import HftArb.Decimal
import HftArb.Foundations.Interleaving

/-!
# Paper trading

`paper_trading.rs` fills orders against a virtual portfolio.  A call of `simulate_fill` draws
whether the order is filled, how much of it and with which slippage, and rejects an order above the
notional limit.  It then makes four accesses under different locks: the check and the change of the
balances, the trade counter, the cached gain, and the history.  Other calls may make accesses in
between.

When no call is under way the ledger is consistent (`paperLedger_consistent`): the balances are the
initial ones with the records of the history, the counter is the length of the history, and the
cached gain is the gain in cents, clamped to a 64-bit integer.
-/

namespace HftArb

open Runs Interleaving

/-- A recorded paper trade. -/
structure PaperTradeRecord where
  timestamp : ℤ
  exchangeId : UInt16
  tokenId : UInt16
  symbol : String
  side : String
  qty : Decimal
  price : Decimal
  total : Decimal
  simulatedSlippageBps : ℕ
  deriving DecidableEq

/-- The virtual portfolio; a token without a balance has the balance zero. -/
structure PaperTradingPipeline where
  balances : UInt16 → Decimal
  initialCapital : Decimal
  totalTrades : UInt64
  totalPnl : ℤ
  tradeHistory : List PaperTradeRecord

namespace PaperTradingPipeline

/-- `PARTIAL_FILL_MIN_BPS`. -/
def partialFillMinBps : ℕ := 5000

/-- `MAX_ORDER_NOTIONAL_USD`. -/
def maxOrderNotionalUsd : Decimal := 100000

/-- The balances a pipeline starts with. -/
def initialBalance (initialCapital : Decimal) (tokenId : UInt16) : Decimal :=
  match tokenId.toNat with
  | 0 => initialCapital
  | 1 => 1
  | 2 => 10
  | 50 => 150000
  | 51 => 1000
  | 52 => 800
  | 53 => 1500
  | 54 => 1300
  | _ => 0

/-- A new pipeline; the source panics for a capital that is not positive. -/
def new (initialCapital : Decimal) : PaperTradingPipeline where
  balances := initialBalance initialCapital
  initialCapital := initialCapital
  totalTrades := 0
  totalPnl := 0
  tradeHistory := []

/-- A call of `simulate_fill`: the order, for a token that is not the quote currency, with the clock
reading, the settings it loads and the random numbers it draws. -/
structure FillCall where
  exchangeId : UInt16
  tokenId : UInt16
  symbol : String
  qty : Decimal
  price : Decimal
  isBuy : Bool
  timestamp : ℤ
  fillPct : UInt64
  fillDraw : UInt32
  partialMax : UInt64
  partialDraw : UInt32
  slippageDraw : UInt32
  tokenId_ne : tokenId ≠ 0
  qty_nonneg : 0 ≤ qty
  price_nonneg : 0 ≤ price

namespace FillCall

variable (c : FillCall)

/-- The side of the order, as recorded. -/
def side : String := if c.isBuy then "BUY" else "SELL"

/-- The quantity that is filled. -/
def actualQty : Decimal :=
  if 10000 ≤ c.partialMax.toNat then c.qty
  else if c.partialMax.toNat ≤ partialFillMinBps then c.qty * Decimal.ofU64 c.partialMax / 10000
  else
    let range := c.partialMax.toNat - partialFillMinBps + 1
    let fillBps := partialFillMinBps + c.partialDraw.toNat % range
    c.qty * (fillBps : ℚ) / 10000

/-- `random_slippage_bps`: one to five basis points. -/
def slippageBps : ℕ := 1 + c.slippageDraw.toNat % 5

/-- The price with the slippage against the order. -/
def effectivePrice : Decimal :=
  let slippage := (c.slippageBps : ℚ) / 10000
  if c.isBuy then c.price * (1 + slippage) else c.price * (1 - slippage)

/-- The value of the fill. -/
def total : Decimal := c.actualQty * c.effectivePrice

/-- The record of a call that fills nothing. -/
def zeroedRecord : PaperTradeRecord :=
  { timestamp := c.timestamp, exchangeId := c.exchangeId, tokenId := c.tokenId, symbol := c.symbol,
    side := c.side, qty := 0, price := 0, total := 0, simulatedSlippageBps := 0 }

/-- The record of a fill. -/
def record : PaperTradeRecord :=
  { timestamp := c.timestamp, exchangeId := c.exchangeId, tokenId := c.tokenId, symbol := c.symbol,
    side := c.side, qty := c.actualQty, price := c.effectivePrice, total := c.total,
    simulatedSlippageBps := c.slippageBps }

end FillCall

/-- `decimal_to_cents`: dollars in cents, rounded to the nearest integer and clamped. -/
def decimalToCents (value : Decimal) : ℤ :=
  let cents := Decimal.round (value * 100)
  if i64Min ≤ cents ∧ cents ≤ i64Max then cents else if 0 < value then i64Max else i64Min

/-- A call under way, at its next access. -/
inductive Op
  | settle (c : FillCall)
  | count (c : FillCall)
  | storePnl (c : FillCall)
  | push (c : FillCall)

/-- The gates before the first access: the fill probability and the notional limit. -/
def enter (c : FillCall) : Option Op × List PaperTradeRecord :=
  if c.fillPct.toNat ≤ c.fillDraw.toNat % 100 then (none, [c.zeroedRecord])
  else if maxOrderNotionalUsd < c.total then (none, [c.zeroedRecord])
  else (some (.settle c), [])

/-- The balances after a fill. -/
def applyFill (balances : UInt16 → Decimal) (c : FillCall) : UInt16 → Decimal :=
  if c.isBuy then
    let paid := Function.update balances 0 (balances 0 - c.total)
    Function.update paid c.tokenId (paid c.tokenId + c.actualQty)
  else
    let delivered := Function.update balances c.tokenId (balances c.tokenId - c.actualQty)
    Function.update delivered 0 (delivered 0 + c.total)

/-- The portfolio covers the fill. -/
def Covers (balances : UInt16 → Decimal) (c : FillCall) : Prop :=
  if c.isBuy then c.total ≤ balances 0 else c.actualQty ≤ balances c.tokenId

instance (balances : UInt16 → Decimal) (c : FillCall) : Decidable (Covers balances c) :=
  inferInstanceAs (Decidable (if c.isBuy then c.total ≤ balances 0
    else c.actualQty ≤ balances c.tokenId))

/-- One access, under its lock; the event is the record the call returns. -/
def access (s : PaperTradingPipeline) (_ : Unit) :
    Op → Outcome PaperTradingPipeline Op PaperTradeRecord
  | .settle c =>
    if Covers s.balances c then
      ⟨{ s with balances := applyFill s.balances c }, some (.count c), []⟩
    else ⟨s, none, [c.zeroedRecord]⟩
  | .count c => ⟨{ s with totalTrades := s.totalTrades + 1 }, some (.storePnl c), []⟩
  | .storePnl c =>
    ⟨{ s with totalPnl := decimalToCents (s.balances 0 - s.initialCapital) }, some (.push c), []⟩
  | .push c => ⟨{ s with tradeHistory := s.tradeHistory ++ [c.record] }, none, [c.record]⟩

/-- The calls on one pipeline. -/
def paperSystem : System PaperTradingPipeline FillCall Op Unit PaperTradeRecord where
  enter := enter
  access := access

/-- The state after some steps of calls on a new pipeline. -/
def stateAfter (initialCapital : Decimal) (actions : List (Action FillCall Unit)) :
    State PaperTradingPipeline Op :=
  runState (step paperSystem) ⟨new initialCapital, []⟩ actions

/-- The records returned by the calls, in order. -/
def returnedBy (initialCapital : Decimal) (actions : List (Action FillCall Unit)) :
    List PaperTradeRecord :=
  runTrace (step paperSystem) ⟨new initialCapital, []⟩ actions

/-! ## The books -/

/-- A record of a call that filled nothing. -/
def Zeroed (r : PaperTradeRecord) : Prop :=
  r.qty = 0 ∧ r.price = 0 ∧ r.total = 0 ∧ r.simulatedSlippageBps = 0

instance (r : PaperTradeRecord) : Decidable (Zeroed r) :=
  inferInstanceAs (Decidable (_ ∧ _ ∧ _ ∧ _))

/-- The totals of the records of a side. -/
def totalOf (side : String) (records : List PaperTradeRecord) : Decimal :=
  (records.map fun r => if r.side = side then r.total else 0).sum

/-- The quantity of a token in the records of a side. -/
def qtyOf (side : String) (tokenId : UInt16) (records : List PaperTradeRecord) : Decimal :=
  (records.map fun r => if r.side = side ∧ r.tokenId = tokenId then r.qty else 0).sum

/-- The ledger of a run is consistent, with the cached gain given in cents by a function. -/
structure PaperLedger (cents : Decimal → ℤ) (initialCapital : Decimal)
    (actions : List (Action FillCall Unit)) : Prop where
  nonneg : ∀ t, 0 ≤ (stateAfter initialCapital actions).shared.balances t
  trades : (stateAfter initialCapital actions).shared.totalTrades =
    UInt64.ofNat (stateAfter initialCapital actions).shared.tradeHistory.length
  usdt : (stateAfter initialCapital actions).shared.balances 0 = initialCapital -
    totalOf "BUY" (stateAfter initialCapital actions).shared.tradeHistory +
    totalOf "SELL" (stateAfter initialCapital actions).shared.tradeHistory
  token : ∀ t, t ≠ 0 → (stateAfter initialCapital actions).shared.balances t =
    initialBalance initialCapital t +
    qtyOf "BUY" t (stateAfter initialCapital actions).shared.tradeHistory -
    qtyOf "SELL" t (stateAfter initialCapital actions).shared.tradeHistory
  pnl : (stateAfter initialCapital actions).shared.totalPnl =
    cents ((stateAfter initialCapital actions).shared.balances 0 - initialCapital)
  history : (stateAfter initialCapital actions).shared.tradeHistory =
    (returnedBy initialCapital actions).filter fun r => ¬ Zeroed r
  zeroed_inert : ∀ before a after, actions = before ++ a :: after →
    ∀ r ∈ (step paperSystem (stateAfter initialCapital before) a).2, Zeroed r →
      (step paperSystem (stateAfter initialCapital before) a).1.shared =
        (stateAfter initialCapital before).shared

/-- What a record changes at the balance of a token. -/
def change (t : UInt16) (r : PaperTradeRecord) : Decimal :=
  if t = 0 then (if r.side = "SELL" then r.total else 0) - (if r.side = "BUY" then r.total else 0)
  else (if r.side = "BUY" ∧ r.tokenId = t then r.qty else 0) -
    (if r.side = "SELL" ∧ r.tokenId = t then r.qty else 0)

/-- What a call under way has changed already, for a measure of its record. -/
def Op.settledBy {M : Type*} [Zero M] (f : PaperTradeRecord → M) : Op → M
  | .settle _ => 0
  | .count c => f c.record
  | .storePnl c => f c.record
  | .push c => f c.record

/-- The call has been counted, and is not in the history yet. -/
def Op.counted : Op → ℕ
  | .settle _ => 0
  | .count _ => 0
  | .storePnl _ => 1
  | .push _ => 1

/-- The call has changed the balances, and has not stored the gain yet. -/
def Op.owesPnl : Op → Bool
  | .settle _ => false
  | .count _ => true
  | .storePnl _ => true
  | .push _ => false

/-! ### One fill -/

namespace FillCall

variable (c : FillCall)

lemma actualQty_nonneg : 0 ≤ c.actualQty := by
  have hq := c.qty_nonneg
  rw [actualQty]
  split
  · exact hq
  · split
    · exact div_nonneg (mul_nonneg hq (Decimal.ofU64_nonneg _)) (by norm_num)
    · exact div_nonneg (mul_nonneg hq (Nat.cast_nonneg _)) (by norm_num)

lemma slippageBps_bounds : 1 ≤ c.slippageBps ∧ c.slippageBps ≤ 5 := by
  rw [slippageBps]
  omega

lemma effectivePrice_nonneg : 0 ≤ c.effectivePrice := by
  have hbps : (c.slippageBps : ℚ) ≤ 5 := by exact_mod_cast c.slippageBps_bounds.2
  have hnonneg : (0 : ℚ) ≤ c.slippageBps := Nat.cast_nonneg _
  rw [effectivePrice]
  split
  · exact mul_nonneg c.price_nonneg (by linarith)
  · exact mul_nonneg c.price_nonneg (by linarith)

lemma total_nonneg : 0 ≤ c.total := mul_nonneg c.actualQty_nonneg c.effectivePrice_nonneg

/-- The record of a fill has a slippage and is not a zeroed one. -/
lemma record_not_zeroed : ¬ Zeroed c.record := by
  rintro ⟨-, -, -, hslippage⟩
  have hone := c.slippageBps_bounds.1
  have hzero : c.slippageBps = 0 := hslippage
  omega

lemma zeroedRecord_zeroed : Zeroed c.zeroedRecord := ⟨rfl, rfl, rfl, rfl⟩

lemma change_record_buy (hbuy : c.isBuy = true) (t : UInt16) :
    change t c.record = if t = 0 then -c.total else if t = c.tokenId then c.actualQty else 0 := by
  simp [change, record, side, hbuy, eq_comm]

lemma change_record_sell (hsell : ¬ c.isBuy = true) (t : UInt16) :
    change t c.record = if t = 0 then c.total else if t = c.tokenId then -c.actualQty else 0 := by
  by_cases htoken : t = c.tokenId
  · simp [change, record, side, hsell, htoken]
  · simp [change, record, side, hsell, htoken, Ne.symm htoken]

/-- A fill changes the balances as its record says. -/
lemma applyFill_eq (balances : UInt16 → Decimal) (t : UInt16) :
    applyFill balances c t = balances t + change t c.record := by
  have hne := c.tokenId_ne
  rw [applyFill]
  by_cases hbuy : c.isBuy = true
  · rw [if_pos hbuy, c.change_record_buy hbuy]
    by_cases hzero : t = 0
    · subst hzero
      simp [hne.symm, sub_eq_add_neg]
    · by_cases htoken : t = c.tokenId
      · simp [htoken, hne]
      · simp [hzero, htoken]
  · rw [if_neg hbuy, c.change_record_sell hbuy]
    by_cases hzero : t = 0
    · subst hzero
      simp [hne.symm]
    · by_cases htoken : t = c.tokenId
      · simp [htoken, hne, sub_eq_add_neg]
      · simp [hzero, htoken]

/-- A fill that is covered leaves no negative balance. -/
lemma applyFill_nonneg {balances : UInt16 → Decimal} (h : ∀ t, 0 ≤ balances t)
    (hcovers : Covers balances c) (t : UInt16) : 0 ≤ applyFill balances c t := by
  have hqty := c.actualQty_nonneg
  have htotal := c.total_nonneg
  have ht := h t
  rw [Covers] at hcovers
  rw [applyFill_eq]
  by_cases hbuy : c.isBuy = true
  · rw [if_pos hbuy] at hcovers
    rw [c.change_record_buy hbuy]
    split
    next hzero =>
      rw [hzero]
      linarith
    next =>
      split
      · linarith
      · linarith
  · rw [if_neg hbuy] at hcovers
    rw [c.change_record_sell hbuy]
    split
    · linarith
    · split
      next htoken =>
        rw [htoken]
        linarith
      · linarith

end FillCall

/-! ### One step -/

/-- The state of the calls and the records returned so far, for a capital. -/
structure Books (initialCapital : Decimal) (s : State PaperTradingPipeline Op)
    (returned : List PaperTradeRecord) : Prop where
  capital : s.shared.initialCapital = initialCapital
  nonneg : ∀ t, 0 ≤ s.shared.balances t
  balance : ∀ t, s.shared.balances t = initialBalance initialCapital t +
    (s.shared.tradeHistory.map (change t)).sum +
    (s.inFlight.map (Op.settledBy (change t))).sum
  trades : s.shared.totalTrades =
    UInt64.ofNat (s.shared.tradeHistory.length + (s.inFlight.map Op.counted).sum)
  pnl : (∀ op ∈ s.inFlight, op.owesPnl = false) →
    s.shared.totalPnl = decimalToCents (s.shared.balances 0 - initialCapital)
  history : s.shared.tradeHistory = returned.filter fun r => ¬ Zeroed r

lemma filter_zeroedRecord (c : FillCall) :
    ([c.zeroedRecord].filter fun r => ¬ Zeroed r) = [] := by
  simp [c.zeroedRecord_zeroed]

lemma filter_record (c : FillCall) :
    ([c.record].filter fun r => ¬ Zeroed r) = [c.record] := by
  simp [c.record_not_zeroed]

section Step

variable {initialCapital : Decimal} {s : State PaperTradingPipeline Op}
  {returned : List PaperTradeRecord}

/-- A call that begins changes nothing; one that a gate rejects returns a zeroed record. -/
lemma Books.enter (h : Books initialCapital s returned) (c : FillCall) :
    Books initialCapital ⟨s.shared, s.inFlight ++ (enter c).1.toList⟩
      (returned ++ (PaperTradingPipeline.enter c).2) := by
  have hrejected : Books initialCapital ⟨s.shared, s.inFlight ++ []⟩
      (returned ++ [c.zeroedRecord]) := by
    rw [List.append_nil]
    refine ⟨h.capital, h.nonneg, h.balance, h.trades, h.pnl, ?_⟩
    rw [List.filter_append, filter_zeroedRecord, List.append_nil]
    exact h.history
  rw [PaperTradingPipeline.enter]
  split
  · exact hrejected
  · split
    · exact hrejected
    · refine ⟨h.capital, h.nonneg, ?_, ?_, ?_, by simpa using h.history⟩
      · intro t
        rw [h.balance t]
        simp [Op.settledBy]
      · rw [h.trades]
        simp [Op.counted]
      · intro hpaid
        exact h.pnl fun op hop => hpaid op (List.mem_append_left _ hop)

/-- When a call that owes no gain leaves, the gain is stored as long as none of the others owes
it. -/
lemma Books.pnl_of_leaves (h : Books initialCapital s returned) {op : Op} {calls' others : List Op}
    (hop : op.owesPnl = false) (hbefore : s.inFlight.Perm (op :: others))
    (hafter : calls'.Perm others) (hpaid : ∀ op ∈ calls', op.owesPnl = false) :
    s.shared.totalPnl = decimalToCents (s.shared.balances 0 - initialCapital) := by
  apply h.pnl
  intro op' hop'
  rcases List.mem_cons.mp (hbefore.mem_iff.mp hop') with rfl | hother
  · exact hop
  · exact hpaid op' (hafter.mem_iff.mpr hother)

/-- The check and the change of the balances keep the books. -/
lemma Books.settle (h : Books initialCapital s returned) {c : FillCall} {calls' others : List Op}
    (hbefore : s.inFlight.Perm (.settle c :: others))
    (hafter : calls'.Perm ((access s.shared () (.settle c)).remaining.toList ++ others)) :
    Books initialCapital ⟨(access s.shared () (.settle c)).shared, calls'⟩
      (returned ++ (access s.shared () (.settle c)).events) := by
  have hsum := fun t => sum_inFlight_access (Op.settledBy (change t)) hbefore hafter
  have hcount := sum_inFlight_access Op.counted hbefore hafter
  by_cases hcovers : Covers s.shared.balances c
  · simp only [access, if_pos hcovers, Option.map_some, Option.getD_some, Op.settledBy, Op.counted,
      add_zero, Option.toList_some] at hsum hcount hafter ⊢
    refine ⟨h.capital, c.applyFill_nonneg h.nonneg hcovers, ?_, ?_, ?_, by simpa using h.history⟩
    · intro t
      dsimp only
      rw [c.applyFill_eq, h.balance t, hsum t, add_assoc _ _ (change t c.record)]
    · rw [h.trades, hcount]
    · intro hpaid
      have hmem : Op.count c ∈ calls' := hafter.mem_iff.mpr (by simp)
      exact absurd (hpaid _ hmem) (by simp [Op.owesPnl])
  · simp only [access, if_neg hcovers, Option.map_none, Option.getD_none, Op.settledBy, Op.counted,
      add_zero, Option.toList_none, List.nil_append] at hsum hcount hafter ⊢
    refine ⟨h.capital, h.nonneg, ?_, ?_, ?_, ?_⟩
    · intro t
      rw [h.balance t, hsum t]
    · rw [h.trades, hcount]
    · exact h.pnl_of_leaves rfl hbefore hafter
    · rw [List.filter_append, filter_zeroedRecord, List.append_nil]
      exact h.history

/-- Counting the trade keeps the books. -/
lemma Books.count (h : Books initialCapital s returned) {c : FillCall} {calls' others : List Op}
    (hbefore : s.inFlight.Perm (.count c :: others))
    (hafter : calls'.Perm ((access s.shared () (.count c)).remaining.toList ++ others)) :
    Books initialCapital ⟨(access s.shared () (.count c)).shared, calls'⟩
      (returned ++ (access s.shared () (.count c)).events) := by
  have hsum := fun t => sum_inFlight_access (Op.settledBy (change t)) hbefore hafter
  have hcount := sum_inFlight_access Op.counted hbefore hafter
  simp only [access, Option.map_some, Option.getD_some, Op.settledBy, Op.counted, add_zero,
    Option.toList_some] at hsum hcount hafter ⊢
  refine ⟨h.capital, h.nonneg, ?_, ?_, ?_, by simpa using h.history⟩
  · intro t
    rw [h.balance t, add_right_cancel (hsum t)]
  · dsimp only
    rw [h.trades, hcount, ← add_assoc, UInt64.ofNat_add _ 1]
    rfl
  · intro hpaid
    have hmem : Op.storePnl c ∈ calls' := hafter.mem_iff.mpr (by simp)
    exact absurd (hpaid _ hmem) (by simp [Op.owesPnl])

/-- Storing the gain keeps the books: it is the gain of the balances at that moment. -/
lemma Books.storePnl (h : Books initialCapital s returned) {c : FillCall} {calls' others : List Op}
    (hbefore : s.inFlight.Perm (.storePnl c :: others))
    (hafter : calls'.Perm ((access s.shared () (.storePnl c)).remaining.toList ++ others)) :
    Books initialCapital ⟨(access s.shared () (.storePnl c)).shared, calls'⟩
      (returned ++ (access s.shared () (.storePnl c)).events) := by
  have hsum := fun t => sum_inFlight_access (Op.settledBy (change t)) hbefore hafter
  have hcount := sum_inFlight_access Op.counted hbefore hafter
  simp only [access, Option.map_some, Option.getD_some, Op.settledBy, Op.counted] at hsum hcount ⊢
  refine ⟨h.capital, h.nonneg, ?_, ?_, ?_, by simpa using h.history⟩
  · intro t
    rw [h.balance t, add_right_cancel (hsum t)]
  · rw [h.trades, add_right_cancel hcount]
  · intro _
    rw [h.capital]

/-- Recording the trade keeps the books. -/
lemma Books.push (h : Books initialCapital s returned) {c : FillCall} {calls' others : List Op}
    (hbefore : s.inFlight.Perm (.push c :: others))
    (hafter : calls'.Perm ((access s.shared () (.push c)).remaining.toList ++ others)) :
    Books initialCapital ⟨(access s.shared () (.push c)).shared, calls'⟩
      (returned ++ (access s.shared () (.push c)).events) := by
  have hsum := fun t => sum_inFlight_access (Op.settledBy (change t)) hbefore hafter
  have hcount := sum_inFlight_access Op.counted hbefore hafter
  simp only [access, Option.map_none, Option.getD_none, Op.settledBy, Op.counted, add_zero,
    Option.toList_none, List.nil_append] at hsum hcount hafter ⊢
  refine ⟨h.capital, h.nonneg, ?_, ?_, ?_, ?_⟩
  · intro t
    rw [h.balance t, List.map_append, List.sum_append, List.map_singleton, List.sum_singleton,
      ← hsum t]
    ring
  · rw [h.trades, ← hcount, List.length_append, List.length_singleton]
    dsimp only
    congr 1
    omega
  · exact h.pnl_of_leaves rfl hbefore hafter
  · rw [List.filter_append, filter_record, ← h.history]

/-- A step of the calls keeps the books. -/
lemma Books.step (h : Books initialCapital s returned) (a : Action FillCall Unit) :
    Books initialCapital (Interleaving.step paperSystem s a).1
      (returned ++ (Interleaving.step paperSystem s a).2) := by
  obtain ⟨c, -, hstate, hevents⟩ | ⟨-, hstep⟩ |
    ⟨_, _, op, others, -, -, hbefore, hshared, hafter, hevents⟩ := step_cases paperSystem s a
  · rw [hstate, hevents]
    exact h.enter c
  · rw [hstep, List.append_nil]
    exact h
  · rw [hevents]
    generalize (Interleaving.step paperSystem s a).1 = s' at hshared hafter
    obtain ⟨shared', calls'⟩ := s'
    obtain rfl : shared' = (access s.shared () op).shared := hshared
    cases op with
    | settle c => exact h.settle hbefore hafter
    | count c => exact h.count hbefore hafter
    | storePnl c => exact h.storePnl hbefore hafter
    | push c => exact h.push hbefore hafter

end Step

/-! ### Whole runs -/

lemma initialBalance_nonneg {initialCapital : Decimal} (hcapital : 0 < initialCapital)
    (t : UInt16) : 0 ≤ initialBalance initialCapital t := by
  rw [initialBalance]
  split
  · exact hcapital.le
  all_goals norm_num

lemma decimalToCents_zero : decimalToCents 0 = 0 := by decide +kernel

lemma decimalToCents_le (value : Decimal) : decimalToCents value ≤ i64Max := by
  rw [decimalToCents]
  split
  next hrange => exact hrange.2
  · split
    · exact le_refl _
    · decide

/-- The books of a new pipeline. -/
lemma books_new {initialCapital : Decimal} (hcapital : 0 < initialCapital) :
    Books initialCapital ⟨new initialCapital, []⟩ [] where
  capital := rfl
  nonneg := initialBalance_nonneg hcapital
  balance := by simp [new]
  trades := rfl
  pnl := by
    intro _
    have hgain : (new initialCapital).balances 0 - initialCapital = 0 := sub_self initialCapital
    rw [hgain, decimalToCents_zero]
    rfl
  history := rfl

/-- Every run keeps the books. -/
lemma books_stateAfter {initialCapital : Decimal} (hcapital : 0 < initialCapital)
    (actions : List (Action FillCall Unit)) :
    Books initialCapital (stateAfter initialCapital actions) (returnedBy initialCapital actions) :=
  run_induction (C := fun _ _ _ => True) (fun _ _ a h _ => h.step a) (books_new hcapital)
    fun _ _ _ _ => trivial

lemma sum_change_zero (records : List PaperTradeRecord) :
    (records.map (change 0)).sum = totalOf "SELL" records - totalOf "BUY" records := by
  induction records with
  | nil => simp [totalOf]
  | cons r records ih =>
    rw [totalOf, totalOf] at ih ⊢
    simp only [List.map_cons, List.sum_cons, ih, change, if_true]
    ring

lemma sum_change_token {t : UInt16} (ht : t ≠ 0) (records : List PaperTradeRecord) :
    (records.map (change t)).sum = qtyOf "BUY" t records - qtyOf "SELL" t records := by
  induction records with
  | nil => simp [qtyOf]
  | cons r records ih =>
    rw [qtyOf, qtyOf] at ih ⊢
    simp only [List.map_cons, List.sum_cons, ih, change, if_neg ht]
    ring

/-- The step in which a call returns a zeroed record does not change the portfolio. -/
lemma step_shared_of_zeroed {s : State PaperTradingPipeline Op} {a : Action FillCall Unit}
    {r : PaperTradeRecord} (hr : r ∈ (step paperSystem s a).2) (hzeroed : Zeroed r) :
    (step paperSystem s a).1.shared = s.shared := by
  obtain ⟨c, -, hstate, -⟩ | ⟨-, hstep⟩ | ⟨_, _, op, others, -, -, -, hshared, -, hevents⟩ :=
    step_cases paperSystem s a
  · rw [hstate]
  · rw [hstep]
  · rw [hevents] at hr
    rw [hshared]
    cases op with
    | settle c =>
      by_cases hcovers : Covers s.shared.balances c
      · simp [paperSystem, access, hcovers] at hr
      · simp [paperSystem, access, hcovers]
    | count c => simp [paperSystem, access] at hr
    | storePnl c => simp [paperSystem, access] at hr
    | push c =>
      have hrecord : r = c.record := by simpa [paperSystem, access] using hr
      exact absurd (hrecord ▸ hzeroed) c.record_not_zeroed

/-- When no call is under way the ledger is consistent: no balance is negative, the balances are the
initial ones with the records of the history, the counter is the length of the history, the cached
gain is the gain in cents within the range of a 64-bit integer, and the history holds the records of
the calls that filled something, the others having changed nothing. -/
theorem paperLedger_consistent (initialCapital : Decimal) (hcapital : 0 < initialCapital)
    (actions : List (Action FillCall Unit))
    (hquiescent : (stateAfter initialCapital actions).inFlight = []) :
    PaperLedger decimalToCents initialCapital actions := by
  have hbooks := books_stateAfter hcapital actions
  have hbalance := hbooks.balance
  have htrades := hbooks.trades
  simp only [hquiescent, List.map_nil, List.sum_nil, add_zero] at hbalance htrades
  refine ⟨hbooks.nonneg, htrades, ?_, ?_, ?_, hbooks.history, ?_⟩
  · have hinitial : initialBalance initialCapital 0 = initialCapital := rfl
    rw [hbalance, sum_change_zero, hinitial]
    ring
  · intro t ht
    rw [hbalance, sum_change_token ht]
    ring
  · apply hbooks.pnl
    simp [hquiescent]
  · intro _ _ _ _ _ hr hzeroed
    exact step_shared_of_zeroed hr hzeroed

/-- An order for a tenth of token 1 at 100 dollars, filled at 95 per cent. -/
def smallOrder (isBuy : Bool) : FillCall where
  exchangeId := 0
  tokenId := 1
  symbol := "BTC/USDT"
  qty := 1 / 10
  price := 100
  isBuy := isBuy
  timestamp := 0
  fillPct := 95
  fillDraw := 0
  partialMax := 9500
  partialDraw := 4500
  slippageDraw := 0
  tokenId_ne := by decide
  qty_nonneg := by norm_num
  price_nonneg := by norm_num

/-- A purchase and a sale that take turns. -/
def purchaseAndSale : List (Action FillCall Unit) :=
  [.enter (smallOrder true), .enter (smallOrder false), .access 0 (), .access 1 (), .access 1 (),
    .access 0 (), .access 0 (), .access 1 (), .access 0 (), .access 0 ()]

/-- The ledger after the two fills. -/
theorem paperLedger_consistent_in_turns :
    (stateAfter 1000 purchaseAndSale).shared.tradeHistory.length = 2 ∧
      PaperLedger decimalToCents 1000 purchaseAndSale :=
  ⟨by decide +kernel, paperLedger_consistent 1000 (by decide +kernel) purchaseAndSale
    (List.eq_nil_of_length_eq_zero (by decide +kernel))⟩

/-! ### Fills in turn -/

/-- The steps of a call that nothing interrupts. -/
def uninterrupted (c : FillCall) : List (Action FillCall Unit) :=
  [.enter c, .access 0 (), .access 0 (), .access 0 (), .access 0 ()]

/-- A number of such calls, one after the other. -/
def fillsInTurn (c : FillCall) (n : ℕ) : List (Action FillCall Unit) :=
  (List.replicate n (uninterrupted c)).flatten

/-- A call that passes the gates and is covered changes the balances by its fill. -/
lemma runState_uninterrupted {c : FillCall} {s : PaperTradingPipeline}
    (henter : enter c = (some (.settle c), [])) (hcovers : Covers s.balances c) :
    ∃ s', runState (step paperSystem) ⟨s, []⟩ (uninterrupted c) = ⟨s', []⟩ ∧
      s'.balances = applyFill s.balances c := by
  let settled := { s with balances := applyFill s.balances c }
  let counted := { settled with totalTrades := s.totalTrades + 1 }
  let stored := { counted with
    totalPnl := decimalToCents (applyFill s.balances c 0 - s.initialCapital) }
  refine ⟨{ stored with tradeHistory := s.tradeHistory ++ [c.record] }, ?_, rfl⟩
  simp [uninterrupted, step, paperSystem, henter, access, hcovers, proceed, settled, counted,
    stored]

/-- Calls in turn that are all covered add their totals. -/
lemma runState_fillsInTurn {c : FillCall} (henter : enter c = (some (.settle c), []))
    (hsell : ¬ c.isBuy = true) (n : ℕ) (s : PaperTradingPipeline)
    (hcovered : n * c.actualQty ≤ s.balances c.tokenId) :
    ∃ s', runState (step paperSystem) ⟨s, []⟩ (fillsInTurn c n) = ⟨s', []⟩ ∧
      s'.balances 0 = s.balances 0 + n * c.total := by
  induction n generalizing s with
  | zero => exact ⟨s, rfl, by simp⟩
  | succ n ih =>
    have hqty := c.actualQty_nonneg
    push_cast at hcovered
    have hcovers : Covers s.balances c := by
      rw [Covers, if_neg hsell]
      nlinarith [Nat.cast_nonneg (α := ℚ) n]
    obtain ⟨s₁, hrun, hbalances⟩ := runState_uninterrupted henter hcovers
    have htoken : s₁.balances c.tokenId = s.balances c.tokenId - c.actualQty := by
      rw [hbalances, c.applyFill_eq, c.change_record_sell hsell, if_neg c.tokenId_ne, if_pos rfl,
        sub_eq_add_neg]
    have husdt : s₁.balances 0 = s.balances 0 + c.total := by
      rw [hbalances, c.applyFill_eq, c.change_record_sell hsell, if_pos rfl]
    obtain ⟨s', hrest, hgain⟩ := ih s₁ (by rw [htoken]; linarith)
    refine ⟨s', ?_, ?_⟩
    · rw [fillsInTurn, List.replicate_succ, List.flatten_cons, runState_append, hrun]
      exact hrest
    · rw [hgain, husdt]
      push_cast
      ring

/-- A sale of a tiny quantity of token 1 at a very high price, worth 94990.5 dollars. -/
def dearSale : FillCall where
  exchangeId := 0
  tokenId := 1
  symbol := "BTC/USDT"
  qty := 1 / 10 ^ 13
  price := 10 ^ 18
  isBuy := false
  timestamp := 0
  fillPct := 95
  fillDraw := 0
  partialMax := 9500
  partialDraw := 4500
  slippageDraw := 0
  tokenId_ne := by decide
  qty_nonneg := by norm_num
  price_nonneg := by norm_num

lemma dearSale_qty : dearSale.actualQty = 95 / 10 ^ 15 := by decide +kernel

lemma dearSale_total : dearSale.total = 189981 / 2 := by decide +kernel

lemma dearSale_enter : enter dearSale = (some (.settle dearSale), []) := by
  rw [enter, if_neg (by decide), if_neg (by rw [dearSale_total, maxOrderNotionalUsd]; norm_num)]

lemma round_intCast (z : ℤ) : Decimal.round z = z := by
  rw [Decimal.round, Int.floor_intCast, sub_self, if_pos (by norm_num)]

/-- After very many fills the gain leaves the range of the cached one, which is clamped. -/
theorem gain_beyond_i64_clamped :
    (stateAfter 1000 (fillsInTurn dearSale (10 ^ 12))).inFlight = [] ∧
      ¬ PaperLedger (fun gain => Decimal.round (gain * 100)) 1000
        (fillsInTurn dearSale (10 ^ 12)) := by
  have hcovered : ((10 ^ 12 : ℕ) : ℚ) * dearSale.actualQty ≤ (new 1000).balances 1 := by
    have hone : (new 1000).balances 1 = 1 := rfl
    rw [dearSale_qty, hone]
    norm_num
  obtain ⟨s', hrun, hgain⟩ :=
    runState_fillsInTurn dearSale_enter (by decide) (10 ^ 12) (new 1000) hcovered
  have hstate : stateAfter 1000 (fillsInTurn dearSale (10 ^ 12)) = ⟨s', []⟩ := hrun
  refine ⟨by rw [hstate], fun hledger => ?_⟩
  have hpnl := hledger.pnl
  have hcapital : (0 : Decimal) < 1000 := by decide +kernel
  have hcents := (books_stateAfter hcapital (fillsInTurn dearSale (10 ^ 12))).pnl
  rw [hstate] at hpnl hcents
  have hbound := decimalToCents_le (s'.balances 0 - 1000)
  rw [← hcents (by simp), hpnl] at hbound
  have hexact : (s'.balances 0 - 1000) * 100 = ((9499050000000000000 : ℤ) : ℚ) := by
    have hinitial : (new 1000).balances 0 = 1000 := rfl
    rw [hgain, hinitial, dearSale_total]
    norm_num
  rw [hexact, round_intCast] at hbound
  exact absurd hbound (by decide)

end PaperTradingPipeline

end HftArb
