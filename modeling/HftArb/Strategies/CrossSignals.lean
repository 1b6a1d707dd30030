import HftArb.Strategies.ArenaUpdates

/-!
# Which pairs of exchanges are reported

A pair of exchanges that carry a token is profitable for a purchase on one and a sale on the other
when the spread of the prices, less the fees, exceeds the threshold.  `Profitable` says so with
exact numbers; the evaluation computes with words.

Two things come between them.  A spread that overflows a word is capped, and the capped spread may
pass for a sane one.  And a spread beyond the anomaly guard, found for the purchase on the exchange
with the lower id, abandons the opposite direction of the pair with it.  `crossSpreads_exact_iff`
says for which prices the signals are the profitable pairs nevertheless.
-/

namespace HftArb

open Saturating

/-- The spreads reported for a purchase on one exchange and a sale on another. -/
def crossSpreads (signals : List ArbitrageSignal) (buy sell : ℕ) : List UInt64 :=
  signals.filterMap fun signal =>
    match signal with
    | .crossExchange buyExchange sellExchange _ spreadBps =>
      if buyExchange = UInt16.ofNat buy ∧ sellExchange = UInt16.ofNat sell then some spreadBps
      else none
    | .triangular .. => none

namespace MarketArena

/-! ## Profitable pairs -/

section Profitable

variable (a : MarketArena) (tokenId : ℕ) (minSpreadBps : UInt64) (buy sell : ℕ)

/-- The bid of the sale exceeds the ask of the purchase, which is a price. -/
def Crossed : Prop := a.ask buy tokenId < a.bid sell tokenId ∧ 0 < a.ask buy tokenId

/-- Both exchanges may be used across exchanges. -/
def Allowed : Prop :=
  a.crossExchangeMask.toNat.testBit buy = true ∧ a.crossExchangeMask.toNat.testBit sell = true

/-- No price of an exchange is a sentinel. -/
def Unmarked (exchId : ℕ) : Prop :=
  isSentinel (a.bid exchId tokenId) = false ∧ isSentinel (a.ask exchId tokenId) = false

/-- The spread of the prices in ten thousandths, before it is divided by the ask. -/
def scaledSpread : ℕ := ((a.bid sell tokenId).toNat - (a.ask buy tokenId).toNat) * 10000

/-- The spread in basis points. -/
def exactSpread : ℕ := a.scaledSpread tokenId buy sell / (a.ask buy tokenId).toNat

/-- The spread in basis points, computed from a scaled spread that is capped at the largest word. -/
def cappedSpread : ℕ :=
  min (a.scaledSpread tokenId buy sell) (2 ^ 64 - 1) / (a.ask buy tokenId).toNat

/-- The taker fees of both exchanges, when fees are deducted. -/
def exactFees : ℕ :=
  if a.feeAwareEnabled then
    ((a.feeSchedule.getTaker buy).getD defaultTakerFeeBps).toNat +
      ((a.feeSchedule.getTaker sell).getD defaultTakerFeeBps).toNat
  else 0

/-- A spread in basis points that is sane and exceeds the threshold after fees, as it is
reported. -/
def verdict (spread : ℕ) : Option ℕ :=
  if spread < 1000000 ∧ minSpreadBps.toNat < spread - a.exactFees buy sell then
    some (spread - a.exactFees buy sell)
  else none

/-- Buying on one exchange and selling on the other is profitable. -/
structure Profitable : Prop where
  unmarked_buy : a.Unmarked tokenId buy
  unmarked_sell : a.Unmarked tokenId sell
  crossed : a.Crossed tokenId buy sell
  sane : a.exactSpread tokenId buy sell < 1000000
  exceeds : minSpreadBps.toNat < a.exactSpread tokenId buy sell - a.exactFees buy sell
  allowed : a.Allowed buy sell

/-- The capped spread of a crossed pair is taken for an anomaly. -/
def Phantom : Prop := a.Crossed tokenId buy sell ∧ 1000000 ≤ a.cappedSpread tokenId buy sell

/-- When the scaled spread overflows a word and the capped spread passes for a sane one, it leads to
the verdict of the exact spread. -/
def CappedAlike : Prop :=
  a.Crossed tokenId buy sell → a.Allowed buy sell → 2 ^ 64 ≤ a.scaledSpread tokenId buy sell →
    a.cappedSpread tokenId buy sell < 1000000 →
    a.verdict minSpreadBps buy sell (a.cappedSpread tokenId buy sell) =
      a.verdict minSpreadBps buy sell (a.exactSpread tokenId buy sell)

instance : Decidable (a.Crossed tokenId buy sell) := inferInstanceAs (Decidable (_ ∧ _))

instance : Decidable (a.Allowed buy sell) := inferInstanceAs (Decidable (_ ∧ _))

instance (exchId : ℕ) : Decidable (a.Unmarked tokenId exchId) :=
  inferInstanceAs (Decidable (_ ∧ _))

instance : Decidable (a.Phantom tokenId buy sell) := inferInstanceAs (Decidable (_ ∧ _))

instance : Decidable (a.Profitable tokenId minSpreadBps buy sell) :=
  decidable_of_iff (a.Unmarked tokenId buy ∧ a.Unmarked tokenId sell ∧ a.Crossed tokenId buy sell ∧
      a.exactSpread tokenId buy sell < 1000000 ∧
      minSpreadBps.toNat < a.exactSpread tokenId buy sell - a.exactFees buy sell ∧
      a.Allowed buy sell)
    ⟨fun ⟨hbuy, hsell, hcrossed, hsane, hexceeds, hallowed⟩ =>
      ⟨hbuy, hsell, hcrossed, hsane, hexceeds, hallowed⟩,
      fun h => ⟨h.1, h.2, h.3, h.4, h.5, h.6⟩⟩

/-- What should be reported for a pair. -/
def expected : List UInt64 :=
  if a.Profitable tokenId minSpreadBps buy sell then
    [UInt64.ofNat (a.exactSpread tokenId buy sell - a.exactFees buy sell)]
  else []

/-- What is reported for a direction that is looked at. -/
def reported : List UInt64 :=
  if a.Crossed tokenId buy sell ∧ a.Allowed buy sell then
    ((a.verdict minSpreadBps buy sell (a.cappedSpread tokenId buy sell)).map UInt64.ofNat).toList
  else []

end Profitable

section Directions

variable {a : MarketArena} {tokenId : ℕ} {minSpreadBps : UInt64} {buy sell : ℕ}

/-- The capped spread is at most the exact one. -/
lemma cappedSpread_le (a : MarketArena) (tokenId buy sell : ℕ) :
    a.cappedSpread tokenId buy sell ≤ a.exactSpread tokenId buy sell :=
  Nat.div_le_div_right (min_le_left _ _)

/-- Without an overflow the capped spread is the exact one. -/
lemma cappedSpread_eq (h : a.scaledSpread tokenId buy sell < 2 ^ 64) :
    a.cappedSpread tokenId buy sell = a.exactSpread tokenId buy sell := by
  unfold cappedSpread exactSpread
  rw [min_eq_left (by omega)]

/-- What should be reported, by the verdict on the exact spread. -/
lemma expected_eq (hbuy : a.Unmarked tokenId buy) (hsell : a.Unmarked tokenId sell) :
    a.expected tokenId minSpreadBps buy sell =
      if a.Crossed tokenId buy sell ∧ a.Allowed buy sell then
        ((a.verdict minSpreadBps buy sell (a.exactSpread tokenId buy sell)).map
          UInt64.ofNat).toList
      else [] := by
  unfold expected verdict
  by_cases hpair : a.Crossed tokenId buy sell ∧ a.Allowed buy sell
  · rw [if_pos hpair]
    by_cases hspread : a.exactSpread tokenId buy sell < 1000000 ∧
        minSpreadBps.toNat < a.exactSpread tokenId buy sell - a.exactFees buy sell
    · rw [if_pos ⟨hbuy, hsell, hpair.1, hspread.1, hspread.2, hpair.2⟩, if_pos hspread]
      rfl
    · rw [if_neg (fun h => hspread ⟨h.sane, h.exceeds⟩), if_neg hspread]
      rfl
  · rw [if_neg hpair, if_neg (fun h => hpair ⟨h.crossed, h.allowed⟩)]

/-- Verdicts are told apart by what is reported. -/
lemma verdict_toList_inj {spread spread' : ℕ} :
    ((a.verdict minSpreadBps buy sell spread).map UInt64.ofNat).toList =
        ((a.verdict minSpreadBps buy sell spread').map UInt64.ofNat).toList ↔
      a.verdict minSpreadBps buy sell spread = a.verdict minSpreadBps buy sell spread' := by
  have hlt : ∀ spread net, a.verdict minSpreadBps buy sell spread = some net → net < 2 ^ 64 := by
    intro spread net h
    unfold verdict at h
    split_ifs at h with hspread
    cases h
    omega
  constructor
  · intro h
    cases hv : a.verdict minSpreadBps buy sell spread with
    | none =>
      cases hv' : a.verdict minSpreadBps buy sell spread' with
      | none => rfl
      | some net' => simp [hv, hv'] at h
    | some net =>
      cases hv' : a.verdict minSpreadBps buy sell spread' with
      | none => simp [hv, hv'] at h
      | some net' =>
        have heq : UInt64.ofNat net = UInt64.ofNat net' := by simpa [hv, hv'] using h
        have hnat := congrArg UInt64.toNat heq
        rw [UInt64.toNat_ofNat_of_lt' (hlt _ _ hv), UInt64.toNat_ofNat_of_lt' (hlt _ _ hv')]
          at hnat
        rw [hnat]
  · intro h
    rw [h]

/-- A direction that is looked at is reported as it should be exactly when an overflow of its spread
does not matter. -/
lemma reported_eq_expected_iff (hbuy : a.Unmarked tokenId buy) (hsell : a.Unmarked tokenId sell) :
    a.reported tokenId minSpreadBps buy sell = a.expected tokenId minSpreadBps buy sell ↔
      a.CappedAlike tokenId minSpreadBps buy sell := by
  rw [expected_eq hbuy hsell, reported]
  by_cases hpair : a.Crossed tokenId buy sell ∧ a.Allowed buy sell
  · rw [if_pos hpair, if_pos hpair, verdict_toList_inj]
    constructor
    · intro h _ _ _ _
      exact h
    · intro h
      by_cases hover : 2 ^ 64 ≤ a.scaledSpread tokenId buy sell
      · by_cases hsane : a.cappedSpread tokenId buy sell < 1000000
        · exact h hpair.1 hpair.2 hover hsane
        · have hle := a.cappedSpread_le tokenId buy sell
          unfold verdict
          rw [if_neg (by omega), if_neg (by omega)]
      · rw [cappedSpread_eq (not_le.mp hover)]
  · rw [if_neg hpair, if_neg hpair]
    exact iff_of_true rfl fun hcrossed hallowed => absurd ⟨hcrossed, hallowed⟩ hpair

/-- A phantom spread is not profitable. -/
lemma not_profitable_of_phantom (minSpreadBps : UInt64) (h : a.Phantom tokenId buy sell) :
    ¬ a.Profitable tokenId minSpreadBps buy sell := by
  intro hprofit
  have hle := a.cappedSpread_le tokenId buy sell
  have hsane := hprofit.sane
  have hphantom := h.2
  omega

/-- A phantom spread is not reported. -/
lemma reported_of_phantom (h : a.Phantom tokenId buy sell) :
    a.reported tokenId minSpreadBps buy sell = [] := by
  have hphantom := h.2
  unfold reported verdict
  split_ifs
  · omega
  · rfl
  · rfl

end Directions

/-! ## What the evaluation reports -/

section Evaluation

variable {a : MarketArena} {tokenId : ℕ} {minSpreadBps : UInt64}

/-- The spread of a crossed pair as it is computed. -/
lemma toNat_raw {buy sell : ℕ} (h : a.Crossed tokenId buy sell) :
    (satMul (a.bid sell tokenId - a.ask buy tokenId) arenaBpsScale / a.ask buy tokenId).toNat =
      a.cappedSpread tokenId buy sell := by
  have hle : a.ask buy tokenId ≤ a.bid sell tokenId := UInt64.le_of_lt h.1
  rw [UInt64.toNat_div, satMul_toNat, UInt64.toNat_sub_of_le _ _ hle]
  rfl

/-- What is left of a sane spread after fees. -/
lemma netOfFees_eq (hfees : a.feesLocked = false) (buy sell : ℕ) {raw : UInt64}
    (hraw : raw.toNat < 1000000) :
    a.netOfFees raw (a.feeSchedule.roundTripTakerBps buy sell) =
      some (UInt64.ofNat (raw.toNat - a.exactFees buy sell)) := by
  unfold netOfFees exactFees
  cases a.feeAwareEnabled with
  | false => simp
  | true =>
    simp only [if_true, hfees, Bool.false_eq_true, if_false, Option.some.injEq]
    rw [← UInt64.toNat_inj, satSub_toNat, ExchangeFeeSchedule.roundTripTakerBps, satAdd_toNat,
      UInt64.toNat_ofNat_of_lt' (by change _ < 2 ^ 64; omega)]
    omega

/-- One direction of a pair: a phantom spread abandons the pair, anything else is reported. -/
lemma crossDirection_eq (hfees : a.feesLocked = false) (buy sell : ℕ) (token : UInt16) :
    a.crossDirection buy sell (a.ask buy tokenId) (a.bid sell tokenId) token minSpreadBps =
      if a.Phantom tokenId buy sell then none
      else some ((a.reported tokenId minSpreadBps buy sell).map fun spread =>
        .crossExchange (UInt16.ofNat buy) (UInt16.ofNat sell) token spread) := by
  unfold crossDirection
  by_cases hcrossed : a.Crossed tokenId buy sell
  · have hprices : a.ask buy tokenId < a.bid sell tokenId ∧ 0 < a.ask buy tokenId := hcrossed
    have hraw := toNat_raw hcrossed
    have hsane : maxRatioBps ≤ satMul (a.bid sell tokenId - a.ask buy tokenId) arenaBpsScale /
        a.ask buy tokenId ↔ a.Phantom tokenId buy sell := by
      rw [UInt64.le_iff_toNat_le, hraw]
      exact (and_iff_right hcrossed).symm
    rw [if_pos hprices]
    generalize satMul (a.bid sell tokenId - a.ask buy tokenId) arenaBpsScale /
      a.ask buy tokenId = raw at hraw hsane ⊢
    by_cases hphantom : a.Phantom tokenId buy sell
    · rw [if_pos hphantom]
      exact if_pos (hsane.mpr hphantom)
    · have hlt : raw.toNat < 1000000 := by
        rw [hraw]
        by_contra hge
        exact hphantom ⟨hcrossed, not_lt.mp hge⟩
      have hexceeds : minSpreadBps < UInt64.ofNat (raw.toNat - a.exactFees buy sell) ↔
          minSpreadBps.toNat < raw.toNat - a.exactFees buy sell := by
        rw [UInt64.lt_iff_toNat_lt, UInt64.toNat_ofNat_of_lt' (by change _ < 2 ^ 64; omega)]
      simp only [if_neg hphantom, if_neg (mt hsane.mp hphantom), netOfFees_eq hfees buy sell hlt,
        hexceeds]
      unfold reported verdict
      rw [← hraw]
      by_cases hallowed : a.Allowed buy sell
      · by_cases hnet : minSpreadBps.toNat < raw.toNat - a.exactFees buy sell
        · rw [if_pos ⟨hnet, hallowed.1, hallowed.2⟩, if_pos ⟨hcrossed, hallowed⟩,
            if_pos ⟨hlt, hnet⟩]
          rfl
        · rw [if_neg (fun h => hnet h.1), if_pos ⟨hcrossed, hallowed⟩,
            if_neg (fun h => hnet h.2)]
          rfl
      · rw [if_neg (fun h => hallowed ⟨h.2.1, h.2.2⟩), if_neg (fun h => hallowed h.2)]
        rfl
  · have hprices : ¬ (a.ask buy tokenId < a.bid sell tokenId ∧ 0 < a.ask buy tokenId) := hcrossed
    have hphantom : ¬ a.Phantom tokenId buy sell := fun h => hcrossed h.1
    have hnone : a.reported tokenId minSpreadBps buy sell = [] :=
      if_neg fun h => hcrossed h.1
    rw [if_neg hprices, if_neg hphantom, hnone]
    rfl

/-- The spreads of two lists of signals. -/
lemma crossSpreads_append (signals signals' : List ArbitrageSignal) (buy sell : ℕ) :
    crossSpreads (signals ++ signals') buy sell =
      crossSpreads signals buy sell ++ crossSpreads signals' buy sell :=
  List.filterMap_append

/-- The spreads of the signals of one direction. -/
lemma crossSpreads_map {buy sell buy' sell' : ℕ} (hbuy : buy < 64) (hsell : sell < 64)
    (hbuy' : buy' < 64) (hsell' : sell' < 64) (token : UInt16) (spreads : List UInt64) :
    crossSpreads (spreads.map fun spread =>
        .crossExchange (UInt16.ofNat buy') (UInt16.ofNat sell') token spread) buy sell =
      if buy' = buy ∧ sell' = sell then spreads else [] := by
  have hword : ∀ {x y : ℕ}, x < 64 → y < 64 → (UInt16.ofNat x = UInt16.ofNat y ↔ x = y) := by
    intro x y hx hy
    rw [← UInt16.toNat_inj, toNat_ofNat_exchange hx, toNat_ofNat_exchange hy]
  unfold crossSpreads
  rw [List.filterMap_map]
  simp only [Function.comp_def, hword hbuy' hbuy, hword hsell' hsell]
  split_ifs with h
  · exact List.filterMap_some
  · simp

/-- The signals of one direction. -/
def directionSignals (a : MarketArena) (tokenId : ℕ) (minSpreadBps : UInt64) (token : UInt16)
    (buy sell : ℕ) : List ArbitrageSignal :=
  (a.reported tokenId minSpreadBps buy sell).map fun spread =>
    .crossExchange (UInt16.ofNat buy) (UInt16.ofNat sell) token spread

/-- Both directions of a pair are looked at unless a price is marked or the first direction is a
phantom. -/
lemma crossPair_eq (hfees : a.feesLocked = false) {i j : ℕ} (hi : a.getIndex i tokenId < a.size)
    (hj : a.getIndex j tokenId < a.size) (token : UInt16) :
    a.crossPair tokenId token minSpreadBps i j =
      if (a.Unmarked tokenId i ∧ a.Unmarked tokenId j) ∧ ¬ a.Phantom tokenId i j then
        a.directionSignals tokenId minSpreadBps token i j ++
          a.directionSignals tokenId minSpreadBps token j i
      else [] := by
  unfold crossPair
  rw [if_neg (by omega)]
  by_cases hmarked : a.Unmarked tokenId i ∧ a.Unmarked tokenId j
  · have hnone : ¬ (isSentinel (a.bid i tokenId) || isSentinel (a.ask i tokenId) ||
        isSentinel (a.bid j tokenId) || isSentinel (a.ask j tokenId)) = true := by
      simp [hmarked.1.1, hmarked.1.2, hmarked.2.1, hmarked.2.2]
    rw [if_neg hnone, crossDirection_eq hfees]
    by_cases hphantom : a.Phantom tokenId i j
    · have hskip : ¬ ((a.Unmarked tokenId i ∧ a.Unmarked tokenId j) ∧ ¬ a.Phantom tokenId i j) :=
        fun h => h.2 hphantom
      rw [if_pos hphantom, if_neg hskip]
    · have hlook : (a.Unmarked tokenId i ∧ a.Unmarked tokenId j) ∧ ¬ a.Phantom tokenId i j :=
        ⟨hmarked, hphantom⟩
      rw [if_neg hphantom, if_pos hlook, crossDirection_eq hfees]
      unfold directionSignals
      by_cases hsecond : a.Phantom tokenId j i
      · rw [if_pos hsecond, reported_of_phantom hsecond]
        rfl
      · rw [if_neg hsecond]
        rfl
  · have hsome : (isSentinel (a.bid i tokenId) || isSentinel (a.ask i tokenId) ||
        isSentinel (a.bid j tokenId) || isSentinel (a.ask j tokenId)) = true := by
      by_contra hnot
      simp only [Bool.or_eq_true, not_or, Bool.not_eq_true] at hnot
      exact hmarked ⟨⟨hnot.1.1.1, hnot.1.1.2⟩, hnot.1.2, hnot.2⟩
    rw [if_pos hsome, if_neg (fun h => hmarked h.1)]

/-- The pairs of an ascending list are distinct. -/
lemma nodup_orderedPairs {l : List ℕ} (hl : l.Pairwise (· < ·)) : (orderedPairs l).Nodup := by
  induction l with
  | nil => exact List.nodup_nil
  | cons x l ih =>
    obtain ⟨hx, hl⟩ := List.pairwise_cons.mp hl
    have hnodup : l.Nodup := hl.imp fun h => h.ne
    rw [orderedPairs, List.nodup_append]
    refine ⟨hnodup.map fun y y' h => (Prod.mk.inj h).2, ih hl, ?_⟩
    rintro p hp q hq rfl
    obtain ⟨y, -, rfl⟩ := List.mem_map.mp hp
    have hmem := ((mem_orderedPairs hl).mp hq).1
    exact absurd (hx x hmem) (lt_irrefl x)

/-- When only one element of a list without repetition contributes, it alone makes the sum. -/
lemma flatMap_eq_of_nodup {α β : Type*} {l : List α} {x : α} {g : α → List β} (hl : l.Nodup)
    (hx : x ∈ l) (hg : ∀ y ∈ l, y ≠ x → g y = []) : l.flatMap g = g x := by
  induction l with
  | nil => simp at hx
  | cons y l ih =>
    obtain ⟨hy, hl⟩ := List.nodup_cons.mp hl
    rw [List.flatMap_cons]
    by_cases heq : y = x
    · have hrest : l.flatMap g = [] := by
        rw [List.flatMap_eq_nil_iff]
        intro z hz
        apply hg z (by simp [hz])
        rintro rfl
        exact hy (heq ▸ hz)
      rw [heq, hrest, List.append_nil]
    · have hmem : x ∈ l := by
        rcases List.mem_cons.mp hx with rfl | hmem
        · exact absurd rfl heq
        · exact hmem
      rw [hg y (by simp) heq, List.nil_append]
      exact ih hl hmem fun z hz => hg z (by simp [hz])

/-- An exchange is in the mask of a target of the token. -/
def InTarget (a : MarketArena) (tokenId exchId : ℕ) : Prop :=
  ∃ target ∈ a.targetsOf tokenId, target.exchangeMask.toNat.testBit exchId = true

instance (a : MarketArena) (tokenId exchId : ℕ) : Decidable (a.InTarget tokenId exchId) :=
  inferInstanceAs (Decidable (∃ target ∈ a.targetsOf tokenId, _))

/-- The triangular part reports no spread. -/
lemma crossSpreads_triSignals (a : MarketArena) (updatedExch tokenId : ℕ)
    (minTriProfitBps : UInt64) (buy sell : ℕ) :
    crossSpreads (a.triSignals updatedExch tokenId minTriProfitBps) buy sell = [] := by
  unfold crossSpreads
  rw [List.filterMap_eq_nil_iff]
  intro signal hsignal
  obtain ⟨loops, -, tri, -, htri⟩ := mem_triSignals hsignal
  obtain ⟨-, ⟨net, rfl⟩, -⟩ := triLoopSignal_spec htri
  rfl

/-- What a pair of exchanges reports on a direction. -/
lemma crossSpreads_crossPair (hfees : a.feesLocked = false) {i j buy sell : ℕ} (hi : i < 64)
    (hj : j < 64) (hbuy : buy < 64) (hsell : sell < 64) (hidxi : a.getIndex i tokenId < a.size)
    (hidxj : a.getIndex j tokenId < a.size) (token : UInt16) :
    crossSpreads (a.crossPair tokenId token minSpreadBps i j) buy sell =
      if (a.Unmarked tokenId i ∧ a.Unmarked tokenId j) ∧ ¬ a.Phantom tokenId i j then
        (if i = buy ∧ j = sell then a.reported tokenId minSpreadBps i j else []) ++
          if j = buy ∧ i = sell then a.reported tokenId minSpreadBps j i else []
      else [] := by
  rw [crossPair_eq hfees hidxi hidxj]
  by_cases hlook : (a.Unmarked tokenId i ∧ a.Unmarked tokenId j) ∧ ¬ a.Phantom tokenId i j
  · rw [if_pos hlook, if_pos hlook, crossSpreads_append, directionSignals, directionSignals,
      crossSpreads_map hbuy hsell hi hj, crossSpreads_map hbuy hsell hj hi]
  · rw [if_neg hlook, if_neg hlook]
    rfl

/-- A token with a single target whose exchanges are in range. -/
structure SingleTarget (a : MarketArena) (tokenId : ℕ) (target : CrossExchangeTarget) : Prop where
  targets : a.targetsOf tokenId = [target]
  inRange : ∀ i, target.exchangeMask.toNat.testBit i = true → a.getIndex i tokenId < a.size

/-- The exchanges of the targets are those of the single one. -/
lemma SingleTarget.testBit {target : CrossExchangeTarget} (h : a.SingleTarget tokenId target)
    {i : ℕ} (hi : a.InTarget tokenId i) : target.exchangeMask.toNat.testBit i = true := by
  obtain ⟨target', hmem, hbit⟩ := hi
  rw [h.targets, List.mem_singleton] at hmem
  exact hmem ▸ hbit

/-- A pair of exchanges reports nothing on a direction between two others. -/
lemma crossSpreads_crossPair_of_ne (hfees : a.feesLocked = false) {target : CrossExchangeTarget}
    (htarget : a.SingleTarget tokenId target) {x y buy sell : ℕ}
    (hx : x ∈ maskBits target.exchangeMask) (hy : y ∈ maskBits target.exchangeMask)
    (hbuy : buy < 64) (hsell : sell < 64) (hfirst : ¬ (x = buy ∧ y = sell))
    (hsecond : ¬ (y = buy ∧ x = sell)) :
    crossSpreads (a.crossPair tokenId target.tokenId minSpreadBps x y) buy sell = [] := by
  rw [crossSpreads_crossPair hfees (lt_of_mem_maskBits hx) (lt_of_mem_maskBits hy) hbuy hsell
    (htarget.inRange x (mem_maskBits.mp hx)) (htarget.inRange y (mem_maskBits.mp hy)),
    if_neg hfirst, if_neg hsecond, List.append_nil, ite_self]

/-- What the evaluation reports on a pair of exchanges of a target. -/
lemma crossSpreads_evaluateTick (hon : a.enabledCross = true) (hcross : a.crossLocked = false)
    (hfees : a.feesLocked = false) {target : CrossExchangeTarget}
    (htarget : a.SingleTarget tokenId target) {i j : ℕ}
    (hi : target.exchangeMask.toNat.testBit i = true)
    (hj : target.exchangeMask.toNat.testBit j = true) (hlt : i < j) (updatedExch : ℕ)
    (minTriProfitBps : UInt64) {buy sell : ℕ} (hpair : buy = i ∧ sell = j ∨ buy = j ∧ sell = i) :
    crossSpreads (a.evaluateTick updatedExch tokenId minSpreadBps minTriProfitBps) buy sell =
      if (a.Unmarked tokenId i ∧ a.Unmarked tokenId j) ∧ ¬ a.Phantom tokenId i j then
        a.reported tokenId minSpreadBps buy sell
      else [] := by
  have hi64 := lt_of_mem_maskBits (mem_maskBits.mpr hi)
  have hj64 := lt_of_mem_maskBits (mem_maskBits.mpr hj)
  have hbuy : buy < 64 := by
    rcases hpair with ⟨rfl, rfl⟩ | ⟨rfl, rfl⟩
    · exact hi64
    · exact hj64
  have hsell : sell < 64 := by
    rcases hpair with ⟨rfl, rfl⟩ | ⟨rfl, rfl⟩
    · exact hj64
    · exact hi64
  have hsorted := pairwise_maskBits target.exchangeMask
  have hmem : (i, j) ∈ orderedPairs (maskBits target.exchangeMask) :=
    (mem_orderedPairs hsorted).mpr ⟨mem_maskBits.mpr hi, mem_maskBits.mpr hj, hlt⟩
  -- Of all the pairs the walk visits only this one is about the direction asked for.
  have hother : ∀ ij ∈ orderedPairs (maskBits target.exchangeMask), ij ≠ (i, j) →
      crossSpreads (a.crossPair tokenId target.tokenId minSpreadBps ij.1 ij.2) buy sell = [] := by
    rintro ⟨x, y⟩ hxy hne
    obtain ⟨hx, hy, hxlty⟩ := (mem_orderedPairs hsorted).mp hxy
    apply crossSpreads_crossPair_of_ne hfees htarget hx hy hbuy hsell
    · rintro ⟨rfl, rfl⟩
      rcases hpair with ⟨rfl, rfl⟩ | ⟨rfl, rfl⟩
      · exact hne rfl
      · omega
    · rintro ⟨rfl, rfl⟩
      rcases hpair with ⟨rfl, rfl⟩ | ⟨rfl, rfl⟩
      · omega
      · exact hne rfl
  rw [evaluateTick, crossSpreads_append, crossSpreads_triSignals, List.append_nil, crossSignals_eq,
    if_pos ⟨hon, hcross⟩, htarget.targets, List.flatMap_singleton, crossSpreads,
    List.filterMap_flatMap]
  refine (flatMap_eq_of_nodup (nodup_orderedPairs hsorted) hmem hother).trans ?_
  rw [crossSpreads_crossPair hfees hi64 hj64 hbuy hsell (htarget.inRange i hi)
    (htarget.inRange j hj)]
  rcases hpair with ⟨rfl, rfl⟩ | ⟨rfl, rfl⟩
  · have hsecond : ¬ (sell = buy ∧ buy = sell) := by omega
    simp only [and_self, if_true, if_neg hsecond, List.append_nil]
  · have hfirst : ¬ (sell = buy ∧ buy = sell) := by omega
    simp only [and_self, if_true, if_neg hfirst, List.nil_append]

end Evaluation

/-! ## The signals are the profitable pairs -/

section Exact

variable (a : MarketArena) (updatedExch tokenId : ℕ) (minSpreadBps minTriProfitBps : UInt64)

/-- For each two exchanges of the token's target, the evaluation reports the profitable directions,
once each and with the exact spread after fees. -/
def SignalsExact : Prop :=
  ∀ i j, a.InTarget tokenId i → a.InTarget tokenId j → i ≠ j →
    crossSpreads (a.evaluateTick updatedExch tokenId minSpreadBps minTriProfitBps) i j =
      a.expected tokenId minSpreadBps i j

/-- A pair without marks: a phantom spread for the purchase on the first exchange hides no profit in
the other direction, and otherwise an overflow matters in no direction. -/
def PairExact (i j : ℕ) : Prop :=
  a.Unmarked tokenId i → a.Unmarked tokenId j →
    (a.Phantom tokenId i j → ¬ a.Profitable tokenId minSpreadBps j i) ∧
    (¬ a.Phantom tokenId i j →
      a.CappedAlike tokenId minSpreadBps i j ∧ a.CappedAlike tokenId minSpreadBps j i)

variable {a tokenId}

/-- Nothing is expected of a pair that is not profitable. -/
lemma nil_eq_expected_iff {buy sell : ℕ} : [] = a.expected tokenId minSpreadBps buy sell ↔
    ¬ a.Profitable tokenId minSpreadBps buy sell := by
  unfold expected
  split_ifs with h
  · simpa using h
  · simpa using h

/-- Both directions of a pair are reported as they should be. -/
lemma pairExact_iff {i j : ℕ} :
    (∀ buy sell, buy = i ∧ sell = j ∨ buy = j ∧ sell = i →
      (if (a.Unmarked tokenId i ∧ a.Unmarked tokenId j) ∧ ¬ a.Phantom tokenId i j then
        a.reported tokenId minSpreadBps buy sell else []) =
      a.expected tokenId minSpreadBps buy sell) ↔ a.PairExact tokenId minSpreadBps i j := by
  have hboth : ∀ P : ℕ → ℕ → Prop, (∀ buy sell, buy = i ∧ sell = j ∨ buy = j ∧ sell = i →
      P buy sell) ↔ P i j ∧ P j i := by
    intro P
    constructor
    · intro h
      exact ⟨h i j (Or.inl ⟨rfl, rfl⟩), h j i (Or.inr ⟨rfl, rfl⟩)⟩
    · rintro ⟨hij, hji⟩ buy sell (⟨rfl, rfl⟩ | ⟨rfl, rfl⟩)
      · exact hij
      · exact hji
  rw [hboth]
  unfold PairExact
  by_cases hmarked : a.Unmarked tokenId i ∧ a.Unmarked tokenId j
  · obtain ⟨hi, hj⟩ := hmarked
    by_cases hphantom : a.Phantom tokenId i j
    · have hskip : ¬ ((a.Unmarked tokenId i ∧ a.Unmarked tokenId j) ∧ ¬ a.Phantom tokenId i j) :=
        fun h => h.2 hphantom
      have hfirst := not_profitable_of_phantom minSpreadBps hphantom
      rw [if_neg hskip, if_neg hskip, nil_eq_expected_iff, nil_eq_expected_iff]
      simp only [hi, hj, hphantom, true_implies, not_true_eq_false, false_implies, and_true]
      exact and_iff_right hfirst
    · rw [if_pos ⟨⟨hi, hj⟩, hphantom⟩, if_pos ⟨⟨hi, hj⟩, hphantom⟩,
        reported_eq_expected_iff hi hj, reported_eq_expected_iff hj hi]
      simp only [hi, hj, hphantom, true_implies, not_false_eq_true, false_implies, true_and]
  · have hskip : ¬ ((a.Unmarked tokenId i ∧ a.Unmarked tokenId j) ∧ ¬ a.Phantom tokenId i j) :=
      fun h => hmarked h.1
    rw [if_neg hskip, if_neg hskip, nil_eq_expected_iff, nil_eq_expected_iff]
    refine iff_of_true ⟨?_, ?_⟩ fun hi hj => absurd ⟨hi, hj⟩ hmarked
    · exact fun h => hmarked ⟨h.unmarked_buy, h.unmarked_sell⟩
    · exact fun h => hmarked ⟨h.unmarked_sell, h.unmarked_buy⟩

/-- The targets compiled from the prices: one for a token, with exchanges that have prices. -/
lemma exists_singleTarget (hbuilt : a.buildCrossExchangeTargets = a) {i : ℕ}
    (h : a.InTarget tokenId i) : ∃ target, a.SingleTarget tokenId target := by
  obtain ⟨target, hmem, -⟩ := h
  have ht : tokenId < a.totalTokens := by
    by_contra hge
    have hlength : a.crossIndex.length = a.totalTokens := by
      rw [← hbuilt]
      exact length_crossIndex_compileTargets a _
    rw [targetsOf_eq_nil (by omega)] at hmem
    simp at hmem
  have htargets := targetsOf_buildCrossExchangeTargets a ht
  rw [hbuilt] at htargets
  dsimp only at htargets
  split_ifs at htargets
  · refine ⟨_, htargets, ?_⟩
    intro k hk
    rw [TargetEntry.target, testBit_exchangeMask, decide_eq_true_eq] at hk
    have hcarrier := List.mem_range.mp (List.mem_filter.mp hk.1).1
    exact (getIndex_lt_size_iff _ ht).mpr hcarrier
  · rw [htargets] at hmem
    simp at hmem

variable (a tokenId)

/-- After the targets have been compiled from the prices and with the locks free, the evaluation
reports exactly the profitable pairs of exchanges if and only if it is switched on and no pair is
reported wrongly by an overflow or by a phantom spread, or it is switched off and no pair is
profitable. -/
theorem crossSpreads_exact_iff (hbuilt : a.buildCrossExchangeTargets = a)
    (hcross : a.crossLocked = false) (hfees : a.feesLocked = false) :
    a.SignalsExact updatedExch tokenId minSpreadBps minTriProfitBps ↔
      (a.enabledCross = true → ∀ i j, a.InTarget tokenId i → a.InTarget tokenId j → i < j →
        a.PairExact tokenId minSpreadBps i j) ∧
      (a.enabledCross = false → ∀ i j, a.InTarget tokenId i → a.InTarget tokenId j → i ≠ j →
        ¬ a.Profitable tokenId minSpreadBps i j) := by
  unfold SignalsExact
  cases hon : a.enabledCross with
  | false =>
    have hoff : ¬ (a.enabledCross = true ∧ a.crossLocked = false) :=
      fun h => absurd (hon.symm.trans h.1) Bool.false_ne_true
    have hnone : ∀ i j,
        crossSpreads (a.evaluateTick updatedExch tokenId minSpreadBps minTriProfitBps) i j =
          [] := by
      intro i j
      rw [evaluateTick, crossSpreads_append, crossSpreads_triSignals, List.append_nil,
        crossSignals_eq, if_neg hoff]
      rfl
    simp only [hnone, nil_eq_expected_iff, Bool.false_eq_true, false_implies, true_implies,
      true_and]
  | true =>
    simp only [true_implies, Bool.true_eq_false, false_implies, and_true]
    have hspreads : ∀ i j, a.InTarget tokenId i → a.InTarget tokenId j → i < j →
        ∀ buy sell, buy = i ∧ sell = j ∨ buy = j ∧ sell = i →
        crossSpreads (a.evaluateTick updatedExch tokenId minSpreadBps minTriProfitBps) buy sell =
          if (a.Unmarked tokenId i ∧ a.Unmarked tokenId j) ∧ ¬ a.Phantom tokenId i j then
            a.reported tokenId minSpreadBps buy sell
          else [] := by
      intro i j hi hj hlt buy sell hpair
      obtain ⟨target, htarget⟩ := exists_singleTarget hbuilt hi
      exact crossSpreads_evaluateTick hon hcross hfees htarget (htarget.testBit hi)
        (htarget.testBit hj) hlt updatedExch minTriProfitBps hpair
    constructor
    · intro h i j hi hj hlt
      rw [← pairExact_iff]
      intro buy sell hpair
      rw [← hspreads i j hi hj hlt buy sell hpair]
      rcases hpair with ⟨rfl, rfl⟩ | ⟨rfl, rfl⟩
      · exact h buy sell hi hj hlt.ne
      · exact h buy sell hj hi hlt.ne'
    · intro h i j hi hj hne
      rcases lt_or_gt_of_ne hne with hlt | hlt
      · rw [hspreads i j hi hj hlt i j (Or.inl ⟨rfl, rfl⟩)]
        exact (pairExact_iff minSpreadBps).mpr (h i j hi hj hlt) i j (Or.inl ⟨rfl, rfl⟩)
      · rw [hspreads j i hj hi hlt i j (Or.inr ⟨rfl, rfl⟩)]
        exact (pairExact_iff minSpreadBps).mpr (h j i hj hi hlt) i j (Or.inr ⟨rfl, rfl⟩)

end Exact

/-- Compiling the targets twice from the same prices changes nothing. -/
lemma buildCrossExchangeTargets_idem (a : MarketArena) :
    a.buildCrossExchangeTargets.buildCrossExchangeTargets = a.buildCrossExchangeTargets := rfl

/-- A mask has room for two exchanges. -/
lemma two_le_maskWidth : 2 ≤ 64 := by decide

/-- An arena with one token on two exchanges, with its targets. -/
def twoVenues (bid₀ ask₀ bid₁ ask₁ : UInt64) : MarketArena :=
  (((new 2 1 two_le_maskWidth).updatePrice 0 0 bid₀ ask₀).updatePrice 1 0 bid₁
    ask₁).buildCrossExchangeTargets

/-- A spread of one percent between two exchanges is reported as it should be. -/
theorem crossSpreads_exact_twoVenues :
    (twoVenues 2000000000 2000000000 2020000000 2020000000).Profitable 0 50 0 1 ∧
      (twoVenues 2000000000 2000000000 2020000000 2020000000).SignalsExact 0 0 50 50 := by
  refine ⟨by decide, ?_⟩
  refine (crossSpreads_exact_iff (twoVenues 2000000000 2000000000 2020000000 2020000000) 0 0 50 50
    (buildCrossExchangeTargets_idem _) rfl rfl).mpr ⟨?_, fun hoff => absurd hoff (by decide)⟩
  intro _ i j hi hj hlt
  have hrange : ∀ k,
      (twoVenues 2000000000 2000000000 2020000000 2020000000).InTarget 0 k → k < 2 := by
    intro k hk
    obtain ⟨target, htarget⟩ := exists_singleTarget (buildCrossExchangeTargets_idem _) hk
    have hslot : k * 1 + 0 < 2 * 1 := htarget.inRange k (htarget.testBit hk)
    omega
  obtain ⟨rfl, rfl⟩ : i = 0 ∧ j = 1 := by
    have := hrange i hi
    have := hrange j hj
    omega
  intro _ _
  refine ⟨fun hphantom => absurd hphantom (by decide), fun _ => ⟨?_, ?_⟩⟩
  · intro _ _ hover
    exact absurd hover (by decide)
  · intro hcrossed
    exact absurd hcrossed (by decide)

/-- A purchase at fifty thousand dollars and a sale at six million, a phantom, is reported. -/
theorem overflow_reported_as_spread :
    ¬ (twoVenues 49000000000000 50000000000000 6000000000000000 6100000000000000).SignalsExact 0 0
      50 50 := by
  intro h
  have hspreads := h 0 1 (by decide) (by decide) (by decide)
  exact absurd hspreads (by decide)

end MarketArena

end HftArb
