import HftArb.Foundations.Runs
import HftArb.Execution.Blasts

/-!
# The daily books

Every blast checks the daily loss limit at its start and books its result in the daily counters at
its end.  `DailyBooks` are the counters together with the day of their last reset; `reset` and
`record` are the two things that happen to them, and `blast_dailyBooks` says that a blast does
nothing else.

Two results follow.  A three-leg blast books an estimate made from the orders, and only a positive
one: `blastTriangularLegs_sign_iff` says when this has the sign of what happened.  The counters are
reset by the first check of a day and not at midnight, so that a loss booked by a blast that
started on the day before is dropped: `checkedLoss_eq_iff` says when the loss that is compared with
the limit is the loss of the day.
-/

namespace HftArb

open Saturating Runs

/-! ## The counters -/

/-- The daily counters of the engine. -/
structure DailyBooks where
  lossCents : UInt64
  profitCents : UInt64
  /-- The day of the year of the last reset. -/
  resetDay : UInt32
  deriving DecidableEq

namespace DailyBooks

/-- The counters of a fresh engine. -/
def fresh : DailyBooks := ⟨0, 0, 0⟩

/-- The counters after the check of a day. -/
def reset (b : DailyBooks) (today : UInt32) : DailyBooks :=
  if today = b.resetDay then b else ⟨0, 0, today⟩

/-- The counters after a result. -/
def record (b : DailyBooks) (cents : ℤ) : DailyBooks :=
  if 0 ≤ cents then
    { b with profitCents := b.profitCents + UInt64.ofNat (min cents.natAbs maxWord.toNat) }
  else { b with lossCents := b.lossCents + UInt64.ofNat (min cents.natAbs maxWord.toNat) }

@[simp] lemma reset_resetDay (b : DailyBooks) (today : UInt32) :
    (b.reset today).resetDay = today := by
  unfold reset
  split_ifs with h
  · exact h.symm
  · rfl

@[simp] lemma record_resetDay (b : DailyBooks) (cents : ℤ) :
    (b.record cents).resetDay = b.resetDay := by
  unfold record
  split_ifs <;> rfl

end DailyBooks

/-- The result of an event that books one. -/
def Event.dailyPnl? : Event → Option ℤ
  | .dailyPnl cents => some cents
  | _ => none

/-- The results that are booked in a list of events. -/
def dailyResults (events : List Event) : List ℤ := events.filterMap Event.dailyPnl?

@[simp] lemma dailyResults_append (events events' : List Event) :
    dailyResults (events ++ events') = dailyResults events ++ dailyResults events' :=
  List.filterMap_append

/-- Events of another kind book nothing. -/
lemma dailyResults_map_eq_nil {α : Type*} {f : α → Event} (hf : ∀ a, (f a).dailyPnl? = none)
    (as : List α) : dailyResults (as.map f) = [] := by
  simp [dailyResults, hf]

namespace HighFrequencyExecutionEngine

/-- The daily counters of the engine. -/
def dailyBooks (e : HighFrequencyExecutionEngine) : DailyBooks :=
  ⟨e.dailyLossCents, e.dailyProfitCents, e.dailyResetDay⟩

/-- The engine with other daily counters. -/
def withBooks (e : HighFrequencyExecutionEngine) (b : DailyBooks) : HighFrequencyExecutionEngine :=
  { e with
    dailyLossCents := b.lossCents
    dailyProfitCents := b.profitCents
    dailyResetDay := b.resetDay }

lemma dailyBooks_checkDailyReset (e : HighFrequencyExecutionEngine) (today : UInt32) :
    (e.checkDailyReset today).dailyBooks = e.dailyBooks.reset today := by
  unfold checkDailyReset DailyBooks.reset dailyBooks
  by_cases h : today = e.dailyResetDay
  · simp [h]
  · simp [h]

lemma dailyBooks_recordDailyPnl (e : HighFrequencyExecutionEngine) (cents : ℤ) :
    (e.recordDailyPnl cents).dailyBooks = e.dailyBooks.record cents := by
  unfold recordDailyPnl DailyBooks.record
  split_ifs <;> rfl

lemma SameBooks.dailyBooks {e e' : HighFrequencyExecutionEngine} (h : SameBooks e e') :
    e'.dailyBooks = e.dailyBooks := by
  obtain ⟨health, rollbacks, tracker, rejects, rfl⟩ := h
  rfl

variable (e : HighFrequencyExecutionEngine) (kind : BlastKind) (env : BlastEnv) (legs : List Leg)
  (p c : UInt64)

/-! ## What a blast does to them -/

/-- The blast gets as far as the daily check. -/
def ReachesCheck : Prop := e.executionLocked = false ∧ e.volatilityCircuit = false

instance : Decidable e.ReachesCheck := inferInstanceAs (Decidable (_ ∧ _))

lemma dailyBooks_gatedEngine :
    (e.gatedEngine kind env legs).dailyBooks = e.dailyBooks.reset env.today :=
  e.dailyBooks_checkDailyReset env.today

/-- The events of the gate and of the orders book nothing. -/
lemma dailyResults_gateEvents : dailyResults (e.gateEvents kind legs p c) = [] :=
  dailyResults_map_eq_nil (fun _ => rfl) _

lemma dailyResults_dispatches : dailyResults (e.dispatches kind env legs) = [] :=
  dailyResults_map_eq_nil (fun _ => rfl) _

lemma dailyResults_counterOrders (orders : List OrderIntent) :
    dailyResults (orders.map Event.counterOrder) = [] :=
  dailyResults_map_eq_nil (fun _ => rfl) _

/-- A blast that gets as far as the check resets the counters if that is due, and books its results
behind that; one that does not leaves them. -/
lemma blast_dailyBooks :
    (e.blast kind env legs p c).2.1.dailyBooks =
        (dailyResults (e.blast kind env legs p c).2.2).foldl DailyBooks.record
          (if e.ReachesCheck then e.dailyBooks.reset env.today else e.dailyBooks) ∧
      (dailyResults (e.blast kind env legs p c).2.2 = [] ∨
        e.ReachesCheck ∧ dailyResults (e.blast kind env legs p c).2.2 =
          (e.bookedCents kind legs p).toList) := by
  have hreaches : ¬ e.Blocked env → e.ReachesCheck := fun hb =>
    ⟨(e.switches_of_not_blocked env hb).1, (e.switches_of_not_blocked env hb).2.1⟩
  have hgated := e.dailyBooks_gatedEngine kind env legs
  have hout := e.blast_outcome kind env legs p c
  generalize e.blast kind env legs p c = out at hout ⊢
  cases hout with
  | blocked msg hb =>
    refine ⟨?_, Or.inl rfl⟩
    change (e.blockedEngine env).dailyBooks = _
    unfold blockedEngine
    by_cases hcheck : e.ReachesCheck
    · rw [if_pos hcheck, if_neg (by simp [hcheck.1, hcheck.2])]
      exact e.dailyBooks_checkDailyReset env.today
    · rw [if_neg hcheck, if_pos]
      · rfl
      · by_contra hoff
        simp only [not_or, Bool.not_eq_true] at hoff
        exact hcheck hoff
  | rejected msg hb hp =>
    rw [if_pos (hreaches hb), dailyResults_gateEvents]
    exact ⟨hgated, Or.inl rfl⟩
  | depegged msg hb hp hd =>
    rw [if_pos (hreaches hb), dailyResults_gateEvents]
    exact ⟨hgated, Or.inl rfl⟩
  | timedOut msg n e' hb hp hd hsame =>
    rw [if_pos (hreaches hb)]
    simp only [dailyResults_append, dailyResults_gateEvents, dailyResults_dispatches,
      dailyResults_counterOrders]
    exact ⟨hsame.dailyBooks.trans hgated, Or.inl rfl⟩
  | completed e' hb hp hd ht hsame =>
    have hbooks := hsame.dailyBooks.trans hgated
    rw [if_pos (hreaches hb)]
    simp only [dailyResults_append, dailyResults_gateEvents, dailyResults_dispatches,
      dailyResults_counterOrders]
    cases hcents : e.bookedCents kind legs p with
    | none => exact ⟨hbooks, Or.inl rfl⟩
    | some cents =>
      refine ⟨?_, Or.inr ⟨hreaches hb, rfl⟩⟩
      change (e'.recordDailyPnl cents).dailyBooks = (e.dailyBooks.reset env.today).record cents
      rw [dailyBooks_recordDailyPnl, hbooks]

/-- A blast that runs to its end books its result. -/
lemma dailyBooks_of_ok {results : List OrderResult}
    (hok : (e.blast kind env legs p c).1 = .ok results) :
    (e.blast kind env legs p c).2.1.dailyBooks =
      (e.bookedCents kind legs p).toList.foldl DailyBooks.record
        (e.dailyBooks.reset env.today) := by
  obtain ⟨hb, hp, hd, hcut⟩ := completed_of_ok hok
  obtain ⟨e', hsame, heq⟩ := e.blast_of_completed kind env legs p c hb hp hd
    ((kind.cut_eq_none _ _ _).mpr hcut)
  have hbooks := hsame.dailyBooks.trans (e.dailyBooks_gatedEngine kind env legs)
  rw [heq]
  cases e.bookedCents kind legs p with
  | none => exact hbooks
  | some cents =>
    change (e'.recordDailyPnl cents).dailyBooks = (e.dailyBooks.reset env.today).record cents
    rw [dailyBooks_recordDailyPnl, hbooks]

end HighFrequencyExecutionEngine

/-! ## Amounts in cents -/

/-- The conversion to cents stays in the signed 64-bit range. -/
lemma toCents_mem_range (profit : Decimal) :
    i64Min ≤ toCents profit ∧ toCents profit ≤ i64Max := by
  unfold toCents Decimal.toI64
  split_ifs with h
  · exact h
  · exact ⟨by decide, by decide⟩

/-- A decimal that is not negative is not rounded below zero. -/
lemma Decimal.round_nonneg {d : Decimal} (hd : 0 ≤ d) : 0 ≤ Decimal.round d := by
  have hfloor : 0 ≤ ⌊d⌋ := Int.floor_nonneg.mpr hd
  unfold Decimal.round
  split_ifs <;> omega

/-- A decimal is rounded to zero up to one half. -/
lemma Decimal.round_eq_zero_iff {d : Decimal} (hd : 0 ≤ d) : Decimal.round d = 0 ↔ d ≤ 1 / 2 := by
  have hfloor : 0 ≤ ⌊d⌋ := Int.floor_nonneg.mpr hd
  have hle : (⌊d⌋ : ℚ) ≤ d := Int.floor_le d
  rcases hfloor.eq_or_lt with h0 | hpos
  · unfold Decimal.round
    rw [← h0]
    norm_num
    exact le_total _ _
  · have hone : (1 : ℚ) ≤ ⌊d⌋ := by exact_mod_cast hpos
    refine iff_of_false (fun h => ?_) (by linarith)
    unfold Decimal.round at h
    split_ifs at h <;> omega

/-- A profit is not booked as a loss. -/
lemma toCents_nonneg {profit : Decimal} (h : 0 ≤ profit) : 0 ≤ toCents profit := by
  have hround : 0 ≤ Decimal.round (profit * 100) := Decimal.round_nonneg (by positivity)
  have htrunc : Decimal.trunc (Decimal.round (profit * 100) : ℚ) =
      Decimal.round (profit * 100) := by
    unfold Decimal.trunc
    split_ifs <;> simp
  unfold toCents Decimal.toI64
  split_ifs
  · rw [Option.getD_some, htrunc]
    exact hround
  · exact le_rfl

namespace DailyBooks

/-- The word that is added for a result that fits the signed 64-bit range. -/
lemma toNat_ofNat_min {cents : ℤ} (hlo : i64Min ≤ cents) (hhi : cents ≤ i64Max) :
    (UInt64.ofNat (min cents.natAbs maxWord.toNat)).toNat = cents.natAbs := by
  have hmax : maxWord.toNat = 2 ^ 64 - 1 := by decide
  unfold i64Min at hlo
  unfold i64Max at hhi
  rw [hmax, UInt64.toNat_ofNat_of_lt' (by simp only [UInt64.size]; omega)]
  omega

/-- A profit leaves the profit counter no higher only when it is zero or wraps the counter. -/
lemma record_profitCents_le_iff (b : DailyBooks) {cents : ℤ} (h0 : 0 ≤ cents)
    (hhi : cents ≤ i64Max) :
    (b.record cents).profitCents ≤ b.profitCents ↔
      cents = 0 ∨ 2 ^ 64 ≤ b.profitCents.toNat + cents.toNat := by
  have hadd := toNat_ofNat_min (le_trans (by decide) h0) hhi
  have hlt := b.profitCents.toNat_lt
  unfold i64Max at hhi
  unfold record
  rw [if_pos h0, UInt64.le_iff_toNat_le, UInt64.toNat_add, hadd]
  omega

end DailyBooks

/-! ## The sign of a triangular result -/

/-- The estimate of the result of a three-leg blast: the expected profit on the notional of the
first leg quoted in dollars, less the fees of the filled legs. -/
def triangularEstimate (fees : Option ExchangeFeeSchedule) (profitBps : UInt64)
    (sent : List OrderIntent) (results : List OrderResult) : Decimal :=
  let usdtNotional :=
    (((sent.find? fun l => quotedInUsd l.symbol) <|> sent.head?).map fun l =>
      l.qty * l.price).getD 0
  let legFee (x : OrderIntent × OrderResult) : Decimal :=
    if x.2.filled then x.2.filledQty * x.2.avgPrice * takerFeeBps fees x.1.exchangeId / 10000
    else 0
  usdtNotional * Decimal.ofU64 profitBps / 10000 - ((sent.zip results).map legFee).sum

/-- A three-leg blast books its estimate when it is positive. -/
lemma triangularPnl_eq (fees : Option ExchangeFeeSchedule) (profitBps : UInt64)
    (sent : List OrderIntent) (results : List OrderResult) :
    triangularPnl fees profitBps sent results =
      if 0 < triangularEstimate fees profitBps sent results then
        some (toCents (triangularEstimate fees profitBps sent results))
      else none := rfl

/-- Every leg was filled, so that nothing is rolled back. -/
def AllFilled (results : List OrderResult) : Prop := ∀ r ∈ results, r.filled = true

instance (results : List OrderResult) : Decidable (AllFilled results) :=
  inferInstanceAs (Decidable (∀ r ∈ results, _))

/-- The daily counters move with the right sign between two engines: the profit does not grow when
some leg was not filled, and a negative estimate of a blast that was filled is added to the loss,
rounded to cents. -/
def RightSign (before after : HighFrequencyExecutionEngine) (results : List OrderResult)
    (estimate : Decimal) : Prop :=
  (¬ AllFilled results → after.dailyProfitCents ≤ before.dailyProfitCents) ∧
    (AllFilled results → estimate < 0 →
      (after.dailyLossCents.toNat : ℤ) =
        before.dailyLossCents.toNat + Decimal.round (|estimate| * 100))

namespace HighFrequencyExecutionEngine

/-- A three-leg blast that runs to its end moves the counters of the day with the right sign exactly
when the estimate of a blast that was not filled is not booked, being below half a cent or wrapping
the counter, and the estimate of one that was filled is not negative by more than half a cent. -/
theorem blastTriangularLegs_sign_iff (e : HighFrequencyExecutionEngine) (env : BlastEnv)
    (leg0 leg1 leg2 : Leg) (p c : UInt64) (results : List OrderResult)
    (hok : (e.blastTriangularLegs env leg0 leg1 leg2 p c).1 = .ok results) :
    let estimate := triangularEstimate e.feeScheduleBps p
      (sentOrders e.slippageToleranceFp [leg0, leg1, leg2]) results
    RightSign (e.checkDailyReset env.today) (e.blastTriangularLegs env leg0 leg1 leg2 p c).2.1
        results estimate ↔
      (¬ AllFilled results → 0 < estimate → toCents estimate = 0 ∨
        2 ^ 64 ≤ (e.checkDailyReset env.today).dailyProfitCents.toNat + (toCents estimate).toNat) ∧
      (AllFilled results → -1 / 200 ≤ estimate) := by
  intro estimate
  have hresults := results_eq_of_ok hok
  have hafter := e.dailyBooks_of_ok triangularKind env [leg0, leg1, leg2] p c hok
  have hbefore := e.dailyBooks_checkDailyReset env.today
  have hbooked : e.bookedCents triangularKind [leg0, leg1, leg2] p =
      if 0 < estimate then some (toCents estimate) else none := by
    rw [← triangularPnl_eq, hresults]
    rfl
  rw [← hbefore, hbooked] at hafter
  unfold blastTriangularLegs
  generalize e.checkDailyReset env.today = before at hafter ⊢
  generalize (e.blast triangularKind env [leg0, leg1, leg2] p c).2.1 = after at hafter ⊢
  refine and_congr (forall_congr' fun _ => ?_) (forall_congr' fun _ => ?_)
  · -- The profit counter, which a booking can only leave by a zero or by wrapping.
    by_cases hpos : 0 < estimate
    · rw [if_pos hpos] at hafter
      have hprofit : after.dailyProfitCents =
          (before.dailyBooks.record (toCents estimate)).profitCents :=
        congrArg DailyBooks.profitCents hafter
      have hiff := before.dailyBooks.record_profitCents_le_iff (toCents_nonneg hpos.le)
        (toCents_mem_range estimate).2
      rw [hprofit, forall_prop_of_true hpos]
      exact hiff
    · rw [if_neg hpos] at hafter
      have hprofit : after.dailyProfitCents = before.dailyProfitCents :=
        congrArg DailyBooks.profitCents hafter
      rw [hprofit]
      exact iff_of_true (UInt64.le_refl _) fun h => absurd h hpos
  · -- The loss counter, which no booking of this function touches.
    by_cases hneg : estimate < 0
    · rw [if_neg (not_lt.mpr hneg.le)] at hafter
      have hloss : after.dailyLossCents = before.dailyLossCents :=
        congrArg DailyBooks.lossCents hafter
      have hround := Decimal.round_eq_zero_iff (d := |estimate| * 100) (by positivity)
      rw [hloss, forall_prop_of_true hneg, left_eq_add, hround, abs_of_neg hneg]
      constructor <;> intro h <;> linarith
    · refine iff_of_true (fun h => absurd h hneg) ?_
      linarith

/-- A leg of the cycle from dollars over bitcoin and ether back, of which `fill` is filled. -/
def cycleLeg (symbol : String) (qty price : Decimal) (isBuy : Bool) (fill : Decimal) : Leg :=
  .atZero ⟨0, 3, qty, price, isBuy, symbol⟩
    (.answered ⟨true, some symbol, fill, price, none, none⟩)

/-- A cycle of ten thousand dollars, of whose three legs the given quantities are filled. -/
def cycle (p : UInt64) (fill0 fill1 fill2 : Decimal) : BlastCall :=
  .triangular ⟨1, false, none⟩ (cycleLeg "BTCUSDT" (1 / 2) 20000 true fill0)
    (cycleLeg "ETHBTC" 5 (1 / 20) true fill1) (cycleLeg "ETHUSDT" 5 2000 false fill2) p
    100000000000

/-- The test engine after a check on the first day of the year. -/
def testChecked : HighFrequencyExecutionEngine := test.checkDailyReset 1

/-- The results of a cycle. -/
def cycleResults (call : BlastCall) : List OrderResult := call.kind.results call.legs

/-- The estimate of the result of a cycle. -/
def cycleEstimate (call : BlastCall) : Decimal :=
  triangularEstimate testChecked.feeScheduleBps call.profitBps
    (sentOrders testChecked.slippageToleranceFp call.legs) (cycleResults call)

/-- The cycle moves the counters with the right sign. -/
def CycleRightSign (call : BlastCall) : Prop :=
  RightSign (testChecked.checkDailyReset 1) (testChecked.run call).2.1 (cycleResults call)
    (cycleEstimate call)

/-- Two legs are filled and rolled back, at fees above the expected profit. -/
theorem blastTriangularLegs_sign_iff_rolledBack : CycleRightSign (cycle 15 (1 / 2) 0 5) := by
  refine (testChecked.blastTriangularLegs_sign_iff ⟨1, false, none⟩ _ _ _ 15 100000000000
    (cycleResults (cycle 15 (1 / 2) 0 5)) ?_).mpr ⟨?_, ?_⟩
  · decide +kernel
  · decide +kernel
  · decide +kernel

/-- A cycle of which nothing is filled books fifty dollars of profit, and one that is filled at a
loss of five dollars books nothing. -/
theorem cycle_wrong_sign :
    (testChecked.run (cycle 50 0 0 0)).1 = .ok (cycleResults (cycle 50 0 0 0)) ∧
    ¬ CycleRightSign (cycle 50 0 0 0) ∧
    (testChecked.run (cycle 15 (1 / 2) 5 5)).1 = .ok (cycleResults (cycle 15 (1 / 2) 5 5)) ∧
    ¬ CycleRightSign (cycle 15 (1 / 2) 5 5) := by
  refine ⟨by decide +kernel, fun h => ?_, by decide +kernel, fun h => ?_⟩
  · exact absurd (h.1 (by decide +kernel)) (by decide +kernel)
  · exact absurd (h.2 (by decide +kernel) (by decide +kernel)) (by decide +kernel)

end HighFrequencyExecutionEngine

/-! ## Timed runs -/

/-- The day of the year, counted from one, of a time in seconds since the year began. -/
def ordinal (time : ℕ) : ℕ := time / 86400 + 1

/-- The last midnight before a time. -/
def midnight (time : ℕ) : ℕ := time / 86400 * 86400

/-- A blast with the times of its check and of its booking, in seconds since the year began. -/
structure TimedBlast where
  /-- The engine as the blast finds it, but for the daily counters. -/
  engine : HighFrequencyExecutionEngine
  call : BlastCall
  start : ℕ
  finish : ℕ
  start_le_finish : start ≤ finish
  finish_lt : finish < 366 * 86400
  today_eq : call.env.today = UInt32.ofNat (ordinal start)

/-- A booked result with the times of the check and of the booking of its blast. -/
structure DailyRecord where
  start : ℕ
  finish : ℕ
  cents : ℤ
  deriving DecidableEq

/-- The loss of a booked result, zero for a profit. -/
def DailyRecord.loss (r : DailyRecord) : ℕ := if r.cents < 0 then r.cents.natAbs else 0

/-- The losses booked since a time. -/
def lossesSince (time : ℕ) (records : List DailyRecord) : ℕ :=
  (records.map fun r => if time ≤ r.finish then r.loss else 0).sum

/-- The losses booked by the blasts that checked the limit on a day. -/
def lossesCheckedOn (day : ℕ) (records : List DailyRecord) : ℕ :=
  (records.map fun r => if ordinal r.start = day then r.loss else 0).sum

/-- One blast on the daily counters. -/
def bookStep (b : DailyBooks) (x : TimedBlast) : DailyBooks × List DailyRecord :=
  let out := (x.engine.withBooks b).run x.call
  (out.2.1.dailyBooks, (dailyResults out.2.2).map fun cents => ⟨x.start, x.finish, cents⟩)

/-- The loss that the daily check of a blast compares with the limit. -/
def checkedLoss (b : DailyBooks) (x : TimedBlast) : UInt64 :=
  ((x.engine.withBooks b).checkDailyReset x.call.env.today).dailyLossCents

/-! ### One blast -/

/-- What a blast books fits the signed 64-bit range. -/
lemma bookedCents_mem_range {e : HighFrequencyExecutionEngine} {call : BlastCall} {cents : ℤ}
    (h : e.bookedCents call.kind call.legs call.profitBps = some cents) :
    i64Min ≤ cents ∧ cents ≤ i64Max := by
  suffices hto : ∃ profit, cents = toCents profit by
    obtain ⟨profit, rfl⟩ := hto
    exact toCents_mem_range profit
  cases call with
  | arbitrage env legA legB p c =>
    have hpnl : arbitragePnl e.feeScheduleBps [legA.intent, legB.intent]
        (arbitrageKind.results [legA, legB]) = some cents := h
    unfold arbitragePnl at hpnl
    split at hpnl
    · split at hpnl
      · exact ⟨_, (Option.some.inj hpnl).symm⟩
      · cases hpnl
    · cases hpnl
  | triangular env leg0 leg1 leg2 p c =>
    have hpnl : triangularPnl e.feeScheduleBps p
        (sentOrders e.slippageToleranceFp [leg0, leg1, leg2])
        (triangularKind.results [leg0, leg1, leg2]) = some cents := h
    rw [triangularPnl_eq] at hpnl
    split at hpnl
    · exact ⟨_, (Option.some.inj hpnl).symm⟩
    · cases hpnl

/-- A blast that does not reach the check leaves the counters and books nothing. -/
lemma bookStep_of_not_reaches {b : DailyBooks} {x : TimedBlast} (h : ¬ x.engine.ReachesCheck) :
    bookStep b x = (b, []) := by
  obtain ⟨hbooks, hresults⟩ := (x.engine.withBooks b).blast_dailyBooks x.call.kind x.call.env
    x.call.legs x.call.profitBps x.call.capitalFp
  have hnone : dailyResults ((x.engine.withBooks b).blast x.call.kind x.call.env x.call.legs
      x.call.profitBps x.call.capitalFp).2.2 = [] := by
    rcases hresults with hnil | ⟨hreach, -⟩
    · exact hnil
    · exact absurd hreach h
  rw [hnone, if_neg (show ¬ (x.engine.withBooks b).ReachesCheck from h)] at hbooks
  unfold bookStep
  rw [HighFrequencyExecutionEngine.run_eq_blast]
  dsimp only
  rw [hnone, hbooks]
  rfl

/-- A blast that reaches the check resets the counters if that is due, and books at most one
result. -/
lemma bookStep_of_reaches {b : DailyBooks} {x : TimedBlast} (h : x.engine.ReachesCheck) :
    bookStep b x = (b.reset x.call.env.today, []) ∨
      ∃ cents, i64Min ≤ cents ∧ cents ≤ i64Max ∧
        bookStep b x = ((b.reset x.call.env.today).record cents, [⟨x.start, x.finish, cents⟩]) := by
  obtain ⟨hbooks, hresults⟩ := (x.engine.withBooks b).blast_dailyBooks x.call.kind x.call.env
    x.call.legs x.call.profitBps x.call.capitalFp
  rw [if_pos (show (x.engine.withBooks b).ReachesCheck from h)] at hbooks
  unfold bookStep
  rw [HighFrequencyExecutionEngine.run_eq_blast]
  dsimp only
  rw [hbooks]
  rcases hresults with hnil | ⟨-, hbooked⟩
  · rw [hnil]
    exact Or.inl rfl
  · cases hcents : (x.engine.withBooks b).bookedCents x.call.kind x.call.legs x.call.profitBps with
    | none =>
      rw [hcents] at hbooked
      rw [hbooked]
      exact Or.inl rfl
    | some cents =>
      rw [hcents] at hbooked
      rw [hbooked]
      exact Or.inr ⟨cents, (bookedCents_mem_range hcents).1, (bookedCents_mem_range hcents).2, rfl⟩

/-- The loss counter after a result. -/
lemma record_lossCents (b : DailyBooks) (r : DailyRecord) (hlo : i64Min ≤ r.cents)
    (hhi : r.cents ≤ i64Max) :
    (b.record r.cents).lossCents.toNat = (b.lossCents.toNat + r.loss) % 2 ^ 64 := by
  have hlt := b.lossCents.toNat_lt
  unfold DailyBooks.record DailyRecord.loss
  by_cases h : 0 ≤ r.cents
  · rw [if_pos h, if_neg (not_lt.mpr h)]
    exact (Nat.mod_eq_of_lt hlt).symm
  · rw [if_neg h, if_pos (not_le.mp h), UInt64.toNat_add, DailyBooks.toNat_ofNat_min hlo hhi]

/-- The day of a blast as the engine reads it. -/
lemma TimedBlast.today_toNat (x : TimedBlast) : x.call.env.today.toNat = ordinal x.start := by
  have hfinish := x.finish_lt
  have hle := x.start_le_finish
  rw [x.today_eq, UInt32.toNat_ofNat_of_lt']
  unfold ordinal
  simp only [UInt32.size]
  omega

/-! ### Whole runs -/

/-- The counters after the blasts `as` with the records `tr`: they hold the losses of the blasts
that checked on the day of the last reset, and no blast has checked after that day. -/
structure BooksOf (as : List TimedBlast) (b : DailyBooks) (tr : List DailyRecord) : Prop where
  loss : b.lossCents.toNat = lossesCheckedOn b.resetDay.toNat tr % 2 ^ 64
  checked_le : ∀ r ∈ tr, ordinal r.start ≤ b.resetDay.toNat
  resetDay_le : ∀ time, (∀ x ∈ as, x.start ≤ time) → b.resetDay.toNat ≤ ordinal time
  blast_of_record : ∀ r ∈ tr, ∃ x ∈ as, r.start = x.start ∧ r.finish = x.finish

lemma ordinal_le_of_le {time time' : ℕ} (h : time ≤ time') : ordinal time ≤ ordinal time' := by
  unfold ordinal
  omega

lemma lossesCheckedOn_append (day : ℕ) (tr tr' : List DailyRecord) :
    lossesCheckedOn day (tr ++ tr') = lossesCheckedOn day tr + lossesCheckedOn day tr' := by
  simp [lossesCheckedOn]

namespace BooksOf

variable {as : List TimedBlast} {b : DailyBooks} {tr : List DailyRecord} {x : TimedBlast}

/-- The reset that is due at a check leaves the losses of the blasts that checked on this day. -/
lemma reset_loss (h : BooksOf as b tr) (hle : ∀ y ∈ as, y.start ≤ x.start) :
    (b.reset x.call.env.today).lossCents.toNat =
      lossesCheckedOn (ordinal x.start) tr % 2 ^ 64 := by
  have htoday := x.today_toNat
  unfold DailyBooks.reset
  split_ifs with hday
  · rw [h.loss, ← hday, htoday]
  · -- A day on which nobody has checked yet.
    have hresetDay := h.resetDay_le x.start hle
    have hne : ordinal x.start ≠ b.resetDay.toNat := fun heq =>
      hday (UInt32.toNat_inj.mp (htoday.trans heq))
    have hnone : lossesCheckedOn (ordinal x.start) tr = 0 := by
      apply List.sum_eq_zero
      intro n hn
      obtain ⟨r, hr, rfl⟩ := List.mem_map.mp hn
      have hchecked := h.checked_le r hr
      exact if_neg (by omega)
    rw [hnone]
    rfl

/-- A blast that does not reach the check changes nothing. -/
lemma snoc_of_not_reaches (h : BooksOf as b tr) : BooksOf (as ++ [x]) b tr where
  loss := h.loss
  checked_le := h.checked_le
  resetDay_le time htime :=
    h.resetDay_le time fun y hy => htime y (List.mem_append_left _ hy)
  blast_of_record r hr := by
    obtain ⟨y, hy, htimes⟩ := h.blast_of_record r hr
    exact ⟨y, List.mem_append_left _ hy, htimes⟩

/-- The check of the next blast. -/
lemma snoc_reset (h : BooksOf as b tr) (hle : ∀ y ∈ as, y.start ≤ x.start) :
    BooksOf (as ++ [x]) (b.reset x.call.env.today) tr where
  loss := by
    rw [DailyBooks.reset_resetDay, x.today_toNat]
    exact h.reset_loss hle
  checked_le r hr := by
    obtain ⟨y, hy, hstart, -⟩ := h.blast_of_record r hr
    rw [DailyBooks.reset_resetDay, x.today_toNat, hstart]
    exact ordinal_le_of_le (hle y hy)
  resetDay_le time htime := by
    rw [DailyBooks.reset_resetDay, x.today_toNat]
    exact ordinal_le_of_le (htime x (by simp))
  blast_of_record r hr := by
    obtain ⟨y, hy, htimes⟩ := h.blast_of_record r hr
    exact ⟨y, List.mem_append_left _ hy, htimes⟩

/-- The booking of the blast that has checked last. -/
lemma record (h : BooksOf as b tr) (hx : x ∈ as) (hday : b.resetDay.toNat = ordinal x.start)
    {cents : ℤ} (hlo : i64Min ≤ cents) (hhi : cents ≤ i64Max) :
    BooksOf as (b.record cents) (tr ++ [⟨x.start, x.finish, cents⟩]) where
  loss := by
    have hrecord := record_lossCents b ⟨x.start, x.finish, cents⟩ hlo hhi
    have hnew : lossesCheckedOn b.resetDay.toNat [⟨x.start, x.finish, cents⟩] =
        DailyRecord.loss ⟨x.start, x.finish, cents⟩ := by
      simp [lossesCheckedOn, hday]
    rw [DailyBooks.record_resetDay, lossesCheckedOn_append, hnew, hrecord, h.loss, Nat.mod_add_mod]
  checked_le r hr := by
    rw [DailyBooks.record_resetDay]
    rcases List.mem_append.mp hr with hr | hr
    · exact h.checked_le r hr
    · obtain rfl := List.mem_singleton.mp hr
      exact hday.ge
  resetDay_le := by
    rw [DailyBooks.record_resetDay]
    exact h.resetDay_le
  blast_of_record r hr := by
    rcases List.mem_append.mp hr with hr | hr
    · exact h.blast_of_record r hr
    · obtain rfl := List.mem_singleton.mp hr
      exact ⟨x, hx, rfl, rfl⟩

/-- The next blast. -/
lemma step (h : BooksOf as b tr) (hle : ∀ y ∈ as, y.start ≤ x.start) :
    BooksOf (as ++ [x]) (bookStep b x).1 (tr ++ (bookStep b x).2) := by
  by_cases hreach : x.engine.ReachesCheck
  · have hcheck := h.snoc_reset hle
    rcases bookStep_of_reaches (b := b) hreach with heq | ⟨cents, hlo, hhi, heq⟩
    · rw [heq, List.append_nil]
      exact hcheck
    · rw [heq]
      refine hcheck.record (by simp) ?_ hlo hhi
      rw [DailyBooks.reset_resetDay, x.today_toNat]
  · rw [bookStep_of_not_reaches hreach, List.append_nil]
    exact h.snoc_of_not_reaches

end BooksOf

/-- After every run by a clock that does not go back, the counters are those of the blasts. -/
lemma booksOf_run {as : List TimedBlast} (hclock : as.Pairwise fun x y => x.finish ≤ y.start) :
    BooksOf as (runState bookStep .fresh as) (runTrace bookStep .fresh as) := by
  induction as using List.reverseRecOn with
  | nil =>
    exact ⟨rfl, by simp, fun time _ => Nat.zero_le _, by simp⟩
  | append_singleton as x ih =>
    obtain ⟨hbefore, -, hlast⟩ := List.pairwise_append.mp hclock
    rw [runState_append, runTrace_append, runState_cons, runState_nil, runTrace_cons,
      runTrace_nil, List.append_nil]
    refine (ih hbefore).step fun y hy => ?_
    exact y.start_le_finish.trans (hlast y hy x (by simp))

/-! ### The loss of the day -/

/-- The check of `x` after the blasts `before`, if `x` gets as far, compares the losses booked since
midnight with the limit. -/
def SeesTodaysLosses (before : List TimedBlast) (x : TimedBlast) : Prop :=
  x.engine.ReachesCheck →
    (checkedLoss (runState bookStep .fresh before) x).toNat =
      lossesSince (midnight x.start) (runTrace bookStep .fresh before)

/-- At the check of `x` after the blasts `before`, if `x` gets as far, none of them has checked
before midnight and booked a loss after it, and the losses booked since midnight fit a word. -/
def NoLossAcrossMidnight (before : List TimedBlast) (x : TimedBlast) : Prop :=
  x.engine.ReachesCheck →
    (∀ r ∈ runTrace bookStep .fresh before, r.start < midnight x.start →
      midnight x.start ≤ r.finish → 0 ≤ r.cents) ∧
    lossesSince (midnight x.start) (runTrace bookStep .fresh before) < 2 ^ 64

instance (before : List TimedBlast) (x : TimedBlast) : Decidable (NoLossAcrossMidnight before x) :=
  inferInstanceAs (Decidable (_ → _ ∧ _))

/-- The losses booked since midnight are those of the blasts that checked since then and those of
the blasts that checked before. -/
lemma lossesSince_midnight (time : ℕ) (records : List DailyRecord)
    (htimes : ∀ r ∈ records, r.start ≤ r.finish ∧ r.finish ≤ time) :
    lossesSince (midnight time) records = lossesCheckedOn (ordinal time) records +
      (records.map fun r =>
        if r.start < midnight time ∧ midnight time ≤ r.finish then r.loss else 0).sum := by
  unfold lossesSince lossesCheckedOn
  rw [← List.sum_map_add]
  refine congrArg List.sum (List.map_congr_left fun r hr => ?_)
  obtain ⟨hstart, hfinish⟩ := htimes r hr
  have hday : ordinal r.start = ordinal time ↔ midnight time ≤ r.start := by
    unfold ordinal midnight
    omega
  by_cases hsince : midnight time ≤ r.start
  · rw [if_pos (hday.mpr hsince), if_pos (hsince.trans hstart),
      if_neg fun h => absurd h.1 (not_lt.mpr hsince), add_zero]
  · simp only [hday, hsince, if_false, zero_add, not_le.mp hsince, true_and]

/-- No loss among some records. -/
lemma sum_loss_eq_zero_iff (P : DailyRecord → Prop) [DecidablePred P]
    (records : List DailyRecord) :
    (records.map fun r => if P r then r.loss else 0).sum = 0 ↔
      ∀ r ∈ records, P r → 0 ≤ r.cents := by
  rw [List.sum_eq_zero_iff, List.forall_mem_map]
  refine forall₂_congr fun r hr => ?_
  by_cases hP : P r
  · have hloss : r.loss = 0 ↔ 0 ≤ r.cents := by
      unfold DailyRecord.loss
      split_ifs <;> omega
    simp [hP, hloss]
  · simp [hP]

/-- In every run of blasts by a clock that does not go back within a year, every daily check sees
the losses of its day exactly when no blast has booked a loss across the midnight before a check and
the losses of a day fit a word. -/
theorem checkedLoss_eq_iff (as : List TimedBlast)
    (hclock : as.Pairwise fun x y => x.finish ≤ y.start) :
    (∀ before x after, as = before ++ x :: after → SeesTodaysLosses before x) ↔
      ∀ before x after, as = before ++ x :: after → NoLossAcrossMidnight before x := by
  refine forall₄_congr fun before x after heq => forall_congr' fun hreach => ?_
  subst heq
  obtain ⟨hbefore, -, hlast⟩ := List.pairwise_append.mp hclock
  have hbooks := booksOf_run hbefore
  have hfinish : ∀ y ∈ before, y.finish ≤ x.start := fun y hy => hlast y hy x (by simp)
  have hchecked : (checkedLoss (runState bookStep .fresh before) x).toNat =
      lossesCheckedOn (ordinal x.start) (runTrace bookStep .fresh before) % 2 ^ 64 := by
    have hreset := hbooks.reset_loss fun y hy => y.start_le_finish.trans (hfinish y hy)
    have hcounter := HighFrequencyExecutionEngine.dailyBooks_checkDailyReset
      (x.engine.withBooks (runState bookStep .fresh before)) x.call.env.today
    rw [← hreset]
    exact congrArg (fun b : DailyBooks => b.lossCents.toNat) hcounter
  have hsplit := lossesSince_midnight x.start (runTrace bookStep .fresh before) fun r hr => by
    obtain ⟨y, hy, hs, hf⟩ := hbooks.blast_of_record r hr
    rw [hs, hf]
    exact ⟨y.start_le_finish, hfinish y hy⟩
  have hnone := sum_loss_eq_zero_iff
    (fun r => r.start < midnight x.start ∧ midnight x.start ≤ r.finish)
    (runTrace bookStep .fresh before)
  simp only [and_imp] at hnone
  rw [hchecked, ← hnone]
  omega

/-- A call on the given day that loses more than 500 dollars. -/
def losingArbitrage (today : UInt32) : BlastCall :=
  .arbitrage ⟨today, false, none⟩ (.testBuy (1 / 2))
    (.atZero ⟨1, 3, 1 / 2, 19000, false, "BTCUSDT"⟩
      (.answered ⟨true, some "B-1", 1 / 2, 19000, none, none⟩)) 50 100000000000

lemma losingBlast_finish_lt (start secs : Fin 86402) : start.val + secs.val < 366 * 86400 := by
  omega

/-- The losing call around the first midnight of the year, from `start` for `secs` seconds. -/
def losingBlast (start secs : Fin 86402) : TimedBlast where
  engine := .test
  call := losingArbitrage (UInt32.ofNat (ordinal start.val))
  start := start.val
  finish := start.val + secs.val
  start_le_finish := Nat.le_add_right start.val secs.val
  finish_lt := losingBlast_finish_lt start secs
  today_eq := rfl

/-- The second of two losing blasts of a day is checked against the loss of the first. -/
theorem checkedLoss_eq_iff_sameDay : SeesTodaysLosses [losingBlast 0 1] (losingBlast 2 1) := by
  have hiff := checkedLoss_eq_iff [losingBlast 0 1, losingBlast 2 1] (by decide)
  refine hiff.mpr ?_ [losingBlast 0 1] (losingBlast 2 1) [] rfl
  rw [forall_split_iff]
  decide +kernel

/-- A loss of 519.50 dollars that is booked after midnight by a blast that checked before midnight
is not seen by the next check. -/
theorem loss_across_midnight_not_seen :
    [losingBlast 86399 1, losingBlast 86401 1].Pairwise (fun x y => x.finish ≤ y.start) ∧
    lossesSince (midnight 86401) (runTrace bookStep .fresh [losingBlast 86399 1]) = 51950 ∧
    ¬ ∀ before x after, [losingBlast 86399 1, losingBlast 86401 1] = before ++ x :: after →
      SeesTodaysLosses before x := by
  refine ⟨by decide, by decide +kernel, fun h => ?_⟩
  have hseen := h [losingBlast 86399 1] (losingBlast 86401 1) [] rfl (by decide +kernel)
  exact absurd hseen (by decide +kernel)

end HftArb
