import HftArb.Decimal
import HftArb.Foundations.AssocMap
import HftArb.Foundations.Runs

/-!
# The dust manager

Balances below a threshold are dust.  The manager keeps an inventory of them, one entry for each
exchange and token, and when their values reach a second threshold it asks to convert them.  A
report without a positive quantity and price is ignored, so that a balance that went down to zero
stays in the inventory; and entries worth less than 10 dollars are left out of the requests,
although all entries are small.  `sweeps_iff` says when the inventory and the requests are right
nevertheless.

The conversion to upper case is a parameter.
-/

namespace HftArb

open AssocMap Runs

namespace DustManager

/-- Exchange and token of an entry. -/
structure DustKey where
  exchangeId : UInt16
  tokenSymbol : String
  deriving DecidableEq

/-- Quantity and value of an entry. -/
structure DustAmount where
  quantity : Decimal
  estimatedUsdValue : Decimal

/-- `DustConversionRequest`. -/
structure DustConversionRequest where
  exchangeId : UInt16
  tokenSymbol : String
  quantity : Decimal
  targetSymbol : String

end DustManager

open DustManager

/-- `DustManager`, with one entry for each exchange and token. -/
structure DustManager where
  dustThresholdUsd : Decimal
  sweepThresholdUsd : Decimal
  minWithdrawalUsd : Decimal
  targetTokens : UInt16 → Option String
  dustInventory : List (DustKey × DustAmount)
  nodup_keys : (dustInventory.map Prod.fst).Nodup

namespace DustManager

/-- `DEFAULT_MIN_WITHDRAWAL_USD`. -/
def defaultMinWithdrawalUsd : Decimal := 10

/-- `with_thresholds`. -/
def withThresholds (dustThreshold sweepThreshold : Decimal) : DustManager where
  dustThresholdUsd := dustThreshold
  sweepThresholdUsd := sweepThreshold
  minWithdrawalUsd := defaultMinWithdrawalUsd
  targetTokens := fun _ => none
  dustInventory := []
  nodup_keys := List.nodup_nil

/-- `new`, with the default thresholds. -/
def new : DustManager := withThresholds (1 / 2) 5

section Model

variable (toUppercase : String → String)

/-- `set_target_token`. -/
def setTargetToken (m : DustManager) (exchangeId : UInt16) (token : String) : DustManager :=
  { m with
    targetTokens := Function.update m.targetTokens exchangeId (some (toUppercase token)) }

/-- `update_balance`. -/
def updateBalance (m : DustManager) (exchangeId : UInt16) (tokenSymbol : String)
    (quantity priceUsd : Decimal) : DustManager :=
  if quantity ≤ 0 then m
  else if priceUsd ≤ 0 then m
  else
    let usdValue := quantity * priceUsd
    let key : DustKey := ⟨exchangeId, toUppercase tokenSymbol⟩
    if usdValue < m.dustThresholdUsd then
      { m with
        dustInventory := upsert key (fun _ => ⟨quantity, usdValue⟩) m.dustInventory
        nodup_keys := nodup_keys_upsert m.nodup_keys }
    else
      { m with
        dustInventory := remove key m.dustInventory
        nodup_keys := nodup_keys_remove m.nodup_keys }

/-- The value of the inventory. -/
def totalDustUsd (m : DustManager) : Decimal :=
  (m.dustInventory.map fun entry => entry.2.estimatedUsdValue).sum

/-- The request for an entry. -/
def requestFor (entry : DustKey × DustAmount) (target : String) : DustConversionRequest :=
  ⟨entry.1.exchangeId, entry.1.tokenSymbol, entry.2.quantity, target⟩

/-- `evaluate_and_generate_requests`. -/
def evaluateAndGenerateRequests (m : DustManager) : List DustConversionRequest :=
  if m.totalDustUsd < m.sweepThresholdUsd then []
  else
    m.dustInventory.filterMap fun entry =>
      if entry.2.estimatedUsdValue ≤ 0 then none
      else if entry.2.estimatedUsdValue < m.minWithdrawalUsd then none
      else (m.targetTokens entry.1.exchangeId).map (requestFor entry)

/-! ## Runs -/

/-- A call of the manager. -/
inductive Call
  | updateBalance (exchangeId : UInt16) (tokenSymbol : String) (quantity priceUsd : Decimal)
  | setTargetToken (exchangeId : UInt16) (token : String)

/-- The manager after a call. -/
def apply (m : DustManager) : Call → DustManager
  | .updateBalance exchangeId tokenSymbol quantity priceUsd =>
    m.updateBalance toUppercase exchangeId tokenSymbol quantity priceUsd
  | .setTargetToken exchangeId token => m.setTargetToken toUppercase exchangeId token

/-- The manager after some calls. -/
def run (m : DustManager) (calls : List Call) : DustManager := calls.foldl (apply toUppercase) m

/-! ## Reports -/

/-- Quantity and price that a call reports for a key. -/
def Call.report (key : DustKey) : Call → Option (Decimal × Decimal)
  | updateBalance exchangeId tokenSymbol quantity priceUsd =>
    if ⟨exchangeId, toUppercase tokenSymbol⟩ = key then some (quantity, priceUsd) else none
  | setTargetToken _ _ => none

/-- The key for which a call reports. -/
def Call.key : Call → Option DustKey
  | updateBalance exchangeId tokenSymbol _ _ => some ⟨exchangeId, toUppercase tokenSymbol⟩
  | setTargetToken _ _ => none

/-- The target token that a call sets for an exchange. -/
def Call.target (exchangeId : UInt16) : Call → Option String
  | setTargetToken id token => if id = exchangeId then some (toUppercase token) else none
  | updateBalance _ _ _ _ => none

/-- The latest report for a key. -/
def lastReport (calls : List Call) (key : DustKey) : Option (Decimal × Decimal) :=
  calls.reverse.findSome? (Call.report toUppercase key)

/-- The latest report for a key with a positive quantity and price. -/
def lastAccepted (calls : List Call) (key : DustKey) : Option (Decimal × Decimal) :=
  calls.reverse.findSome? fun call =>
    (call.report toUppercase key).filter fun r => decide (0 < r.1 ∧ 0 < r.2)

/-- The target token of an exchange. -/
def targetOf (calls : List Call) (exchangeId : UInt16) : Option String :=
  calls.reverse.findSome? (Call.target toUppercase exchangeId)

/-- The keys for which there are reports. -/
def reportedKeys (calls : List Call) : Finset DustKey :=
  (calls.filterMap (Call.key toUppercase)).toFinset

/-- The dust in a report: a positive balance worth less than the threshold. -/
def dustIn (dustThreshold : Decimal) (r : Decimal × Decimal) : Option DustAmount :=
  if 0 < r.1 ∧ r.1 * r.2 < dustThreshold then some ⟨r.1, r.1 * r.2⟩ else none

section Dust

variable (dustThreshold : Decimal) (calls : List Call)

/-- The dust in the latest report for a key. -/
def latestDust (key : DustKey) : Option DustAmount :=
  (lastReport toUppercase calls key).bind (dustIn dustThreshold)

/-- The dust in the latest report for a key with a positive quantity and price. -/
def acceptedDust (key : DustKey) : Option DustAmount :=
  (lastAccepted toUppercase calls key).bind (dustIn dustThreshold)

/-- The value of some dust, by its keys. -/
def valueOf (dust : DustKey → Option DustAmount) : Decimal :=
  ∑ key ∈ reportedKeys toUppercase calls, ((dust key).map DustAmount.estimatedUsdValue).getD 0

end Dust

end Model

/-! ## The inventory -/

section Inventory

variable {toUppercase : String → String} {dustThreshold sweepThreshold : Decimal}

/-- The manager agrees with the calls so far. -/
structure Tracks (toUppercase : String → String) (dustThreshold sweepThreshold : Decimal)
    (calls : List Call) (m : DustManager) : Prop where
  dust_threshold : m.dustThresholdUsd = dustThreshold
  sweep_threshold : m.sweepThresholdUsd = sweepThreshold
  min_withdrawal : m.minWithdrawalUsd = defaultMinWithdrawalUsd
  targets : ∀ exchangeId, m.targetTokens exchangeId = targetOf toUppercase calls exchangeId
  entries : ∀ key, m.dustInventory.lookup key = acceptedDust toUppercase dustThreshold calls key

lemma lastAccepted_append (calls : List Call) (call : Call) (key : DustKey) :
    lastAccepted toUppercase (calls ++ [call]) key =
      ((call.report toUppercase key).filter fun r => decide (0 < r.1 ∧ 0 < r.2)).or
        (lastAccepted toUppercase calls key) :=
  findSome?_reverse_append_singleton _ _ _

/-- A report without a positive quantity and price changes nothing; another one sets the entry of
its key, or takes it out. -/
lemma updateBalance_spec (m : DustManager) (exchangeId : UInt16) (tokenSymbol : String)
    (quantity priceUsd : Decimal) (key : DustKey) :
    (m.updateBalance toUppercase exchangeId tokenSymbol quantity priceUsd).dustInventory.lookup
        key =
      if (⟨exchangeId, toUppercase tokenSymbol⟩ : DustKey) = key ∧ 0 < quantity ∧ 0 < priceUsd then
        dustIn m.dustThresholdUsd (quantity, priceUsd)
      else m.dustInventory.lookup key := by
  rw [updateBalance]
  by_cases hquantity : quantity ≤ 0
  · rw [if_pos hquantity, if_neg fun h => not_lt.mpr hquantity h.2.1]
  · by_cases hprice : priceUsd ≤ 0
    · rw [if_neg hquantity, if_pos hprice, if_neg fun h => not_lt.mpr hprice h.2.2]
    · rw [if_neg hquantity, if_neg hprice]
      rw [not_le] at hquantity hprice
      simp only [hquantity, hprice, and_true, dustIn, true_and]
      split_ifs with hdust hkey hkey
      · exact (lookup_upsert _ _ _ _).trans (if_pos hkey.symm)
      · exact (lookup_upsert _ _ _ _).trans (if_neg fun h => hkey h.symm)
      · exact (lookup_remove _ _ _).trans (if_pos hkey.symm)
      · exact (lookup_remove _ _ _).trans (if_neg fun h => hkey h.symm)

/-- Reports leave everything but the inventory. -/
lemma updateBalance_frame (toUppercase : String → String) (m : DustManager)
    (exchangeId : UInt16) (tokenSymbol : String) (quantity priceUsd : Decimal) :
    (m.updateBalance toUppercase exchangeId tokenSymbol quantity priceUsd).dustThresholdUsd =
        m.dustThresholdUsd ∧
      (m.updateBalance toUppercase exchangeId tokenSymbol quantity priceUsd).sweepThresholdUsd =
        m.sweepThresholdUsd ∧
      (m.updateBalance toUppercase exchangeId tokenSymbol quantity priceUsd).minWithdrawalUsd =
        m.minWithdrawalUsd ∧
      (m.updateBalance toUppercase exchangeId tokenSymbol quantity priceUsd).targetTokens =
        m.targetTokens := by
  rw [updateBalance]
  dsimp only
  split_ifs <;> exact ⟨rfl, rfl, rfl, rfl⟩

lemma Tracks.apply {calls : List Call} {m : DustManager}
    (h : Tracks toUppercase dustThreshold sweepThreshold calls m) (call : Call) :
    Tracks toUppercase dustThreshold sweepThreshold (calls ++ [call])
      (m.apply toUppercase call) := by
  have htarget : ∀ exchangeId, targetOf toUppercase (calls ++ [call]) exchangeId =
      (call.target toUppercase exchangeId).or (targetOf toUppercase calls exchangeId) :=
    fun exchangeId => findSome?_reverse_append_singleton _ _ _
  cases call with
  | updateBalance exchangeId tokenSymbol quantity priceUsd =>
    obtain ⟨hdust, hsweep, hmin, htargets⟩ :=
      updateBalance_frame toUppercase m exchangeId tokenSymbol quantity priceUsd
    refine ⟨hdust.trans h.dust_threshold, hsweep.trans h.sweep_threshold,
      hmin.trans h.min_withdrawal, fun id => ?_, fun key => ?_⟩
    · rw [htarget]
      exact (congrFun htargets id).trans (h.targets id)
    · rw [DustManager.apply, updateBalance_spec, acceptedDust, lastAccepted_append, Call.report,
        h.dust_threshold, h.entries]
      by_cases hkey : (⟨exchangeId, toUppercase tokenSymbol⟩ : DustKey) = key
      · by_cases haccepted : 0 < quantity ∧ 0 < priceUsd
        · rw [if_pos ⟨hkey, haccepted⟩, if_pos hkey,
            Option.filter_some_pos (by simpa using haccepted)]
          rfl
        · rw [if_neg fun hall => haccepted hall.2, if_pos hkey,
            Option.filter_some_neg (by simpa using haccepted), Option.none_or]
          rfl
      · rw [if_neg fun hall => hkey hall.1, if_neg hkey]
        rfl
  | setTargetToken exchangeId token =>
    refine ⟨h.dust_threshold, h.sweep_threshold, h.min_withdrawal, fun id => ?_, fun key => ?_⟩
    · rw [htarget, Call.target, ← h.targets]
      by_cases hid : exchangeId = id
      · subst hid
        simp [DustManager.apply, setTargetToken]
      · rw [if_neg hid]
        exact Function.update_of_ne (Ne.symm hid) _ _
    · rw [acceptedDust, lastAccepted_append]
      exact h.entries key

lemma tracks_run (calls : List Call) :
    Tracks toUppercase dustThreshold sweepThreshold calls
      ((withThresholds dustThreshold sweepThreshold).run toUppercase calls) := by
  induction calls using List.reverseRecOn with
  | nil => exact ⟨rfl, rfl, rfl, fun _ => rfl, fun _ => rfl⟩
  | append_singleton calls call ih =>
    rw [run, List.foldl_append]
    exact ih.apply call

/-- A key in the inventory has been reported. -/
lemma key_mem_of_report {calls : List Call} {key : DustKey} {r : Decimal × Decimal}
    (h : lastAccepted toUppercase calls key = some r) : key ∈ reportedKeys toUppercase calls := by
  obtain ⟨call, hcall, hreport⟩ := List.exists_of_findSome?_eq_some h
  have hreported := (Option.filter_eq_some_iff.mp hreport).1
  cases call with
  | updateBalance exchangeId tokenSymbol quantity priceUsd =>
    obtain ⟨hkey, -⟩ := Option.ite_none_right_eq_some.mp hreported
    rw [reportedKeys, List.mem_toFinset, List.mem_filterMap]
    exact ⟨_, List.mem_reverse.mp hcall, congrArg some hkey⟩
  | setTargetToken exchangeId token => cases hreported

namespace Tracks

variable {calls : List Call} {m : DustManager}
  (h : Tracks toUppercase dustThreshold sweepThreshold calls m)

include h

lemma mem_inventory_iff {key : DustKey} {amount : DustAmount} :
    (key, amount) ∈ m.dustInventory ↔
      acceptedDust toUppercase dustThreshold calls key = some amount := by
  rw [mem_iff_lookup m.nodup_keys, h.entries]

/-- The entries of the inventory have positive values. -/
lemma value_pos {entry : DustKey × DustAmount} (hentry : entry ∈ m.dustInventory) :
    0 < entry.2.estimatedUsdValue := by
  obtain ⟨r, hr, hdust⟩ := Option.bind_eq_some_iff.mp (h.mem_inventory_iff.mp hentry)
  obtain ⟨call, -, hreport⟩ := List.exists_of_findSome?_eq_some hr
  obtain ⟨hquantity, hprice⟩ := of_decide_eq_true (Option.filter_eq_some_iff.mp hreport).2
  obtain ⟨-, hsome⟩ := Option.ite_none_right_eq_some.mp hdust
  rw [← Option.some.inj hsome]
  exact mul_pos hquantity hprice

/-- The value of the inventory is that of the accepted dust. -/
lemma totalDustUsd_eq :
    m.totalDustUsd =
      valueOf toUppercase calls (acceptedDust toUppercase dustThreshold calls) := by
  have hkeys : ∀ entry ∈ m.dustInventory, entry.1 ∈ reportedKeys toUppercase calls := by
    intro entry hentry
    obtain ⟨r, hr, -⟩ := Option.bind_eq_some_iff.mp (h.mem_inventory_iff.mp hentry)
    exact key_mem_of_report hr
  rw [totalDustUsd, sum_map_eq_sum_lookup m.nodup_keys hkeys]
  simp only [h.entries, valueOf]

end Tracks

end Inventory

/-! ## Sweeps -/

section Sweeps

variable (toUppercase : String → String) (dustThreshold sweepThreshold : Decimal)
  (calls : List Call)

/-- One entry for each key with dust in its latest report, with its quantity. -/
def InventoryRight (m : DustManager) : Prop :=
  ∀ key, (m.dustInventory.filter fun entry => entry.1 = key).map (fun entry => entry.2.quantity) =
    ((latestDust toUppercase dustThreshold calls key).map DustAmount.quantity).toList

/-- When the dust reaches the threshold there is a request for each entry whose exchange has a
target. -/
def RequestsRight (m : DustManager) : Prop :=
  sweepThreshold ≤ valueOf toUppercase calls (latestDust toUppercase dustThreshold calls) →
    m.evaluateAndGenerateRequests =
      m.dustInventory.filterMap fun entry =>
        (targetOf toUppercase calls entry.1.exchangeId).map (requestFor entry)

/-- The reports that are ignored make no difference: for each key the latest report has the same
dust as the latest one with a positive quantity and price. -/
def KeepsUp : Prop :=
  ∀ key, (latestDust toUppercase dustThreshold calls key).map DustAmount.quantity =
    (acceptedDust toUppercase dustThreshold calls key).map DustAmount.quantity

/-- No dust is on an exchange with a target, or its value reaches the threshold, and on exchanges
with a target each balance is worth at least the minimum of a withdrawal. -/
def CanSweep : Prop :=
  (∀ key amount, acceptedDust toUppercase dustThreshold calls key = some amount →
      targetOf toUppercase calls key.exchangeId = none) ∨
    sweepThreshold ≤ valueOf toUppercase calls (acceptedDust toUppercase dustThreshold calls) ∧
      ∀ key amount, acceptedDust toUppercase dustThreshold calls key = some amount →
        targetOf toUppercase calls key.exchangeId ≠ none →
          defaultMinWithdrawalUsd ≤ amount.estimatedUsdValue

variable {toUppercase dustThreshold sweepThreshold calls} {m : DustManager}

lemma toList_inj {α : Type*} {a b : Option α} : a.toList = b.toList ↔ a = b := by
  cases a <;> cases b <;> simp

lemma inventoryRight_iff (h : Tracks toUppercase dustThreshold sweepThreshold calls m) :
    InventoryRight toUppercase dustThreshold calls m ↔
      KeepsUp toUppercase dustThreshold calls := by
  refine forall_congr' fun key => ?_
  have hentries : (m.dustInventory.filter fun entry => entry.1 = key).map
      (fun entry => entry.2.quantity) =
        ((acceptedDust toUppercase dustThreshold calls key).map DustAmount.quantity).toList := by
    have hfilter := congrArg (List.map DustAmount.quantity) (filter_key_eq m.nodup_keys key)
    rw [List.map_map, h.entries] at hfilter
    refine Eq.trans hfilter ?_
    cases acceptedDust toUppercase dustThreshold calls key <;> rfl
  rw [hentries, toList_inj]
  exact eq_comm

/-- A filter that is applied before some elements are read leaves everything that can be read. -/
lemma filterMap_ite_eq_iff {α β : Type*} (p : α → Prop) [DecidablePred p] (f : α → Option β)
    (l : List α) :
    (l.filterMap fun a => if p a then f a else none) = l.filterMap f ↔
      ∀ a ∈ l, f a ≠ none → p a := by
  have hle : ∀ l : List α,
      (l.filterMap fun a => if p a then f a else none).length ≤ (l.filterMap f).length := by
    intro l
    have hsub : ((l.filter fun a => p a).filterMap f).Sublist (l.filterMap f) :=
      List.filter_sublist.filterMap f
    rw [List.filterMap_filter] at hsub
    simpa using hsub.length_le
  induction l with
  | nil => simp
  | cons a l ih =>
    rw [List.forall_mem_cons, List.filterMap_cons, List.filterMap_cons]
    by_cases hp : p a
    · rw [if_pos hp, and_iff_right fun _ => hp]
      refine Iff.trans ?_ ih
      cases f a with
      | none => exact Iff.rfl
      | some b => exact List.cons_inj_right b
    · rw [if_neg hp]
      cases f a with
      | none => exact ih.trans (and_iff_right fun h => absurd rfl h).symm
      | some b =>
        refine iff_of_false (fun heq => ?_) fun hall => hp (hall.1 (Option.some_ne_none b))
        have hlength := congrArg List.length heq
        have hshorter := hle l
        simp only [List.length_cons] at hlength
        omega

lemma requestsRight_iff (h : Tracks toUppercase dustThreshold sweepThreshold calls m) :
    RequestsRight toUppercase dustThreshold sweepThreshold calls m ↔
      (sweepThreshold ≤ valueOf toUppercase calls (latestDust toUppercase dustThreshold calls) →
        CanSweep toUppercase dustThreshold sweepThreshold calls) := by
  refine imp_congr_right fun _ => ?_
  have hsame : (m.dustInventory.filterMap fun entry =>
      if entry.2.estimatedUsdValue ≤ 0 then none
      else if entry.2.estimatedUsdValue < m.minWithdrawalUsd then none
      else (m.targetTokens entry.1.exchangeId).map (requestFor entry)) =
        m.dustInventory.filterMap fun entry =>
          if defaultMinWithdrawalUsd ≤ entry.2.estimatedUsdValue then
            (targetOf toUppercase calls entry.1.exchangeId).map (requestFor entry)
          else none := by
    refine List.filterMap_congr fun entry hentry => ?_
    rw [if_neg (not_le.mpr (h.value_pos hentry)), h.min_withdrawal, h.targets]
    by_cases hmin : defaultMinWithdrawalUsd ≤ entry.2.estimatedUsdValue
    · rw [if_neg (not_lt.mpr hmin), if_pos hmin]
    · rw [if_pos (not_le.mp hmin), if_neg hmin]
  have hnoTarget : m.dustInventory.filterMap (fun entry =>
      (targetOf toUppercase calls entry.1.exchangeId).map (requestFor entry)) = [] ↔
        ∀ key amount, acceptedDust toUppercase dustThreshold calls key = some amount →
          targetOf toUppercase calls key.exchangeId = none := by
    rw [List.filterMap_eq_nil_iff]
    simp only [Option.map_eq_none_iff, Prod.forall, h.mem_inventory_iff]
  rw [evaluateAndGenerateRequests, h.totalDustUsd_eq, h.sweep_threshold, hsame, CanSweep]
  by_cases htotal : valueOf toUppercase calls (acceptedDust toUppercase dustThreshold calls) <
      sweepThreshold
  · rw [if_pos htotal, eq_comm, hnoTarget]
    exact (or_iff_left fun hreached => not_lt.mpr hreached.1 htotal).symm
  · rw [if_neg htotal, filterMap_ite_eq_iff]
    simp only [ne_eq, Option.map_eq_none_iff, Prod.forall, h.mem_inventory_iff]
    constructor
    · exact fun hall => Or.inr ⟨not_lt.mp htotal, hall⟩
    · rintro (hnone | ⟨-, hall⟩)
      · exact fun key amount hdust htarget => absurd (hnone key amount hdust) htarget
      · exact hall

/-- After a run the inventory and the requests are right exactly when the ignored reports make no
difference and, where the dust reaches the threshold, it can be swept. -/
theorem sweeps_iff (toUppercase : String → String) (dustThreshold sweepThreshold : Decimal)
    (calls : List Call) :
    InventoryRight toUppercase dustThreshold calls
        ((withThresholds dustThreshold sweepThreshold).run toUppercase calls) ∧
      RequestsRight toUppercase dustThreshold sweepThreshold calls
        ((withThresholds dustThreshold sweepThreshold).run toUppercase calls) ↔
    KeepsUp toUppercase dustThreshold calls ∧
      (sweepThreshold ≤ valueOf toUppercase calls (latestDust toUppercase dustThreshold calls) →
        CanSweep toUppercase dustThreshold sweepThreshold calls) :=
  and_congr (inventoryRight_iff (tracks_run calls)) (requestsRight_iff (tracks_run calls))

/-- Ten balances of half a dollar each. -/
def tenBalances : List Call :=
  .setTargetToken 1 "BNB" ::
    ["TOKEN0", "TOKEN1", "TOKEN2", "TOKEN3", "TOKEN4", "TOKEN5", "TOKEN6", "TOKEN7", "TOKEN8",
      "TOKEN9"].map fun token => .updateBalance 1 token (1 / 100) 50

/-- Dust of five dollars passes a threshold of three, and is not swept; a balance that went down to
zero stays in the inventory. -/
theorem dust_not_swept :
    3 ≤ ((withThresholds 1 3).run (fun s => s) tenBalances).totalDustUsd ∧
      ((withThresholds 1 3).run (fun s => s) tenBalances).evaluateAndGenerateRequests.length = 0 ∧
      ((withThresholds 1 3).run (fun s => s)
        [.updateBalance 1 "SOL" (1 / 200) 100, .updateBalance 1 "SOL" 0 100]).dustInventory.length =
          1 := by
  decide +kernel

end Sweeps

end DustManager

end HftArb
