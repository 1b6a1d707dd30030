import HftArb.Decimal
import HftArb.Foundations.Runs

/-!
# The depeg protection circuit

The circuit freezes trading when the price of a stablecoin leaves its peg and counts the prices back
in range from then on; the tenth of them lifts the freeze.

Only a price beyond the threshold starts the count again.  A manual trip and a price that cannot be
stored freeze the circuit too, but leave the count of a recovery under way, so that fewer than ten
prices in range may follow them: `frozenUntilHeld_iff` says in which runs this shows.
-/

namespace HftArb

open Runs

/-- The state of the circuit. -/
structure StablecoinProtectionCircuit where
  isDepegged : Bool
  threshold : Decimal
  recoveryTicksRequired : UInt64
  recoveryTickCount : UInt64
  lastPrice : UInt64
  volatilityMultiplier : UInt64

namespace StablecoinProtectionCircuit

/-! ## Operations -/

/-- The circuit as both constructors build it. -/
def fresh (threshold : Decimal) : StablecoinProtectionCircuit where
  isDepegged := false
  threshold := threshold
  recoveryTicksRequired := 10
  recoveryTickCount := 0
  lastPrice := 1000000
  volatilityMultiplier := 10000

/-- A circuit with the default threshold. -/
def new : StablecoinProtectionCircuit := fresh (5 / 1000)

/-- A circuit with a threshold of its own, which must be positive and at most a tenth. -/
def withThreshold (threshold : Decimal) : Option StablecoinProtectionCircuit :=
  if 0 < threshold ∧ threshold ≤ 1 / 10 then some (fresh threshold) else none

/-- Trading is allowed. -/
def checkSafety (c : StablecoinProtectionCircuit) : Bool := !c.isDepegged

/-- Trip the circuit; the call never clears it. -/
def setDepegState (c : StablecoinProtectionCircuit) (depegged : Bool) :
    StablecoinProtectionCircuit :=
  if depegged then { c with isDepegged := true } else c

/-- The price in micro-dollars, when it is a positive word. -/
def fixedPrice (price : Decimal) : Option UInt64 :=
  (Decimal.toU64 (price * 1000000)).filter fun fp => 0 < fp

/-- The distance of a price from the peg. -/
def deviation (price : Decimal) : Decimal := if 1 < price then price - 1 else 1 - price

/-- The threshold scaled by the volatility multiplier. -/
def effectiveThreshold (c : StablecoinProtectionCircuit) : Decimal :=
  c.threshold * Decimal.ofU64 c.volatilityMultiplier / 10000

/-- Count a price in range; the required number of them in a row lifts the freeze. -/
def recover (c : StablecoinProtectionCircuit) : StablecoinProtectionCircuit :=
  if c.isDepegged then
    if max c.recoveryTicksRequired 1 ≤ c.recoveryTickCount + 1 then
      { c with isDepegged := false, recoveryTickCount := 0 }
    else { c with recoveryTickCount := c.recoveryTickCount + 1 }
  else { c with recoveryTickCount := 0 }

/-- Take in a price.  One that is not positive is ignored, and one that has no fixed-point value
trips the circuit. -/
def updatePrice (c : StablecoinProtectionCircuit) (price : Decimal) :
    StablecoinProtectionCircuit :=
  if price ≤ 0 then c
  else
    match fixedPrice price with
    | none => { c with isDepegged := true }
    | some fp =>
      if c.effectiveThreshold < deviation price then
        { c with lastPrice := fp, recoveryTickCount := 0, isDepegged := true }
      else recover { c with lastPrice := fp }

/-- Scale the threshold.  The argument is the multiplier in ten-thousandths as the floating-point
code rounds it, or nothing when it is not between 0.1 and 10. -/
def updateVolatilityMultiplier (c : StablecoinProtectionCircuit) :
    Option UInt64 → StablecoinProtectionCircuit
  | none => c
  | some fp => { c with volatilityMultiplier := max fp 1 }

/-! ## Runs -/

/-- A call of the circuit. -/
inductive Call where
  | updatePrice (price : Decimal)
  | setDepegState (depegged : Bool)
  | updateVolatilityMultiplier (multiplier : Option UInt64)

/-- One call. -/
def step (c : StablecoinProtectionCircuit) : Call → StablecoinProtectionCircuit × List Empty
  | .updatePrice price => (c.updatePrice price, [])
  | .setDepegState depegged => (c.setDepegState depegged, [])
  | .updateVolatilityMultiplier multiplier => (c.updateVolatilityMultiplier multiplier, [])

/-- The call is a positive price beyond the effective threshold. -/
def Beyond (c : StablecoinProtectionCircuit) : Call → Prop
  | .updatePrice price =>
    0 < price ∧ fixedPrice price ≠ none ∧ c.effectiveThreshold < deviation price
  | _ => False

/-- The call is a manual trip, or a positive price whose fixed-point value is zero or no word. -/
def Trips : Call → Prop
  | .updatePrice price => 0 < price ∧ fixedPrice price = none
  | .setDepegState depegged => depegged = true
  | .updateVolatilityMultiplier _ => False

/-- The call is a depeg event. -/
def DepegEvent (c : StablecoinProtectionCircuit) (call : Call) : Prop := c.Beyond call ∨ Trips call

/-- The call is a price in range. -/
def InRange (c : StablecoinProtectionCircuit) : Call → Prop
  | .updatePrice price =>
    0 < price ∧ fixedPrice price ≠ none ∧ deviation price ≤ c.effectiveThreshold
  | _ => False

instance (c : StablecoinProtectionCircuit) : DecidablePred c.InRange
  | .updatePrice _ => inferInstanceAs (Decidable (_ ∧ _))
  | .setDepegState _ => inferInstanceAs (Decidable False)
  | .updateVolatilityMultiplier _ => inferInstanceAs (Decidable False)

/-- The number of prices in range among the calls, each judged when it comes. -/
def inRangeTicks (c : StablecoinProtectionCircuit) : List Call → ℕ
  | [] => 0
  | call :: calls => (if c.InRange call then 1 else 0) + inRangeTicks (step c call).1 calls

/-- No call is a depeg event when it comes. -/
def Quiet (c : StablecoinProtectionCircuit) : List Call → Prop
  | [] => True
  | call :: calls => ¬ c.DepegEvent call ∧ Quiet (step c call).1 calls

/-- At every point of the run after a depeg event trading is allowed exactly when ten prices in
range have come since the last one. -/
def FrozenUntilHeld (c : StablecoinProtectionCircuit) (calls : List Call) : Prop :=
  ∀ before event after rest, calls = before ++ event :: after ++ rest →
    (runState step c before).DepegEvent event →
    (step (runState step c before) event).1.Quiet after →
    ((runState step c (before ++ event :: after)).checkSafety = true ↔
      10 ≤ (step (runState step c before) event).1.inRangeTicks after)

/-- No trip that comes while in-range prices are already counted is followed, before the next depeg
event, by enough prices in range to complete that count but fewer than ten. -/
def NoShortRecovery (c : StablecoinProtectionCircuit) (calls : List Call) : Prop :=
  ∀ before event after rest, calls = before ++ event :: after ++ rest → Trips event →
    (step (runState step c before) event).1.Quiet after →
    (step (runState step c before) event).1.inRangeTicks after < 10 →
    0 < (runState step c before).recoveryTickCount →
    (runState step c before).recoveryTickCount.toNat +
      (step (runState step c before) event).1.inRangeTicks after < 10

/-! ## What a call does -/

variable {c : StablecoinProtectionCircuit} {call : Call} {calls : List Call}

/-- Every call is a depeg event, a price in range, or leaves the flag and the count. -/
lemma step_cases (c : StablecoinProtectionCircuit) (call : Call) :
    c.Beyond call ∨ Trips call ∨ c.InRange call ∨
      ¬ c.DepegEvent call ∧ ¬ c.InRange call ∧
        (step c call).1.isDepegged = c.isDepegged ∧
        (step c call).1.recoveryTickCount = c.recoveryTickCount := by
  cases call with
  | updatePrice price =>
    by_cases hprice : 0 < price
    · by_cases hfixed : fixedPrice price = none
      · exact Or.inr (Or.inl ⟨hprice, hfixed⟩)
      · rcases lt_or_ge c.effectiveThreshold (deviation price) with hbeyond | hrange
        · exact Or.inl ⟨hprice, hfixed, hbeyond⟩
        · exact Or.inr (Or.inr (Or.inl ⟨hprice, hfixed, hrange⟩))
    · refine Or.inr (Or.inr (Or.inr ⟨?_, fun h => hprice h.1, ?_, ?_⟩))
      · rintro (h | h)
        · exact hprice h.1
        · exact hprice h.1
      · simp [step, updatePrice, not_lt.mp hprice]
      · simp [step, updatePrice, not_lt.mp hprice]
  | setDepegState depegged =>
    cases depegged with
    | true => exact Or.inr (Or.inl rfl)
    | false => exact Or.inr (Or.inr (Or.inr ⟨by simp [DepegEvent, Beyond, Trips], id, rfl, rfl⟩))
  | updateVolatilityMultiplier multiplier =>
    refine Or.inr (Or.inr (Or.inr ⟨by simp [DepegEvent, Beyond, Trips], id, ?_, ?_⟩))
    · cases multiplier <;> rfl
    · cases multiplier <;> rfl

/-- A price beyond the threshold freezes trading and starts the count again. -/
lemma step_of_beyond (h : c.Beyond call) :
    (step c call).1.isDepegged = true ∧ (step c call).1.recoveryTickCount = 0 := by
  cases call with
  | updatePrice price =>
    obtain ⟨hprice, hfixed, hbeyond⟩ := h
    obtain ⟨fp, hfp⟩ := Option.ne_none_iff_exists'.mp hfixed
    simp [step, updatePrice, hfp, hbeyond, not_le.mpr hprice]
  | setDepegState depegged => exact absurd h id
  | updateVolatilityMultiplier multiplier => exact absurd h id

/-- A trip freezes trading and leaves the count. -/
lemma step_of_trips (h : Trips call) :
    (step c call).1.isDepegged = true ∧
      (step c call).1.recoveryTickCount = c.recoveryTickCount := by
  cases call with
  | updatePrice price =>
    obtain ⟨hprice, hfixed⟩ := h
    simp [step, updatePrice, hfixed, not_le.mpr hprice]
  | setDepegState depegged =>
    have hd : depegged = true := h
    simp [step, setDepegState, hd]
  | updateVolatilityMultiplier multiplier => exact absurd h id

/-- A price in range is counted. -/
lemma step_of_inRange (h : c.InRange call) :
    ∃ fp, (step c call).1 = recover { c with lastPrice := fp } := by
  cases call with
  | updatePrice price =>
    obtain ⟨hprice, hfixed, hrange⟩ := h
    obtain ⟨fp, hfp⟩ := Option.ne_none_iff_exists'.mp hfixed
    exact ⟨fp, by simp [step, updatePrice, hfp, not_lt.mpr hrange, not_le.mpr hprice]⟩
  | setDepegState depegged => exact absurd h id
  | updateVolatilityMultiplier multiplier => exact absurd h id

/-- No call changes the required number of prices. -/
lemma recoveryTicksRequired_step (c : StablecoinProtectionCircuit) (call : Call) :
    (step c call).1.recoveryTicksRequired = c.recoveryTicksRequired := by
  cases call with
  | updatePrice price =>
    simp only [step, updatePrice]
    split
    · rfl
    · split
      · rfl
      · split
        · rfl
        · simp only [recover]
          split <;> [split; skip] <;> rfl
  | setDepegState depegged => cases depegged <;> rfl
  | updateVolatilityMultiplier multiplier => cases multiplier <;> rfl

/-- The circuit requires ten prices and has counted fewer. -/
structure Counting (c : StablecoinProtectionCircuit) : Prop where
  required : c.recoveryTicksRequired = 10
  count_lt : c.recoveryTickCount.toNat < 10

/-- The count of a frozen circuit goes up until the tenth price in range lifts the freeze. -/
lemma Counting.recover_frozen (hc : c.Counting) (hfrozen : c.isDepegged = true) (fp : UInt64) :
    (c.recoveryTickCount.toNat = 9 ∧
        recover { c with lastPrice := fp } =
          { c with lastPrice := fp, isDepegged := false, recoveryTickCount := 0 }) ∨
      (c.recoveryTickCount.toNat < 9 ∧
        recover { c with lastPrice := fp } =
          { c with lastPrice := fp, recoveryTickCount := c.recoveryTickCount + 1 }) := by
  have hmax : max c.recoveryTicksRequired 1 = 10 := by
    rw [hc.required]
    decide
  have hcount := hc.count_lt
  have hsum : (c.recoveryTickCount + 1).toNat = c.recoveryTickCount.toNat + 1 := by
    rw [UInt64.toNat_add]
    exact Nat.mod_eq_of_lt (by simp; omega)
  have hle : (10 : UInt64) ≤ c.recoveryTickCount + 1 ↔ 9 ≤ c.recoveryTickCount.toNat := by
    rw [UInt64.le_iff_toNat_le, hsum]
    simp
  simp only [recover, hfrozen, hmax, hle, if_true]
  by_cases h : 9 ≤ c.recoveryTickCount.toNat
  · exact Or.inl ⟨by omega, if_pos h⟩
  · exact Or.inr ⟨by omega, if_neg h⟩

/-- The count of a fresh circuit has not begun. -/
lemma counting_fresh (threshold : Decimal) : (fresh threshold).Counting := ⟨rfl, by simp [fresh]⟩

/-- Every call keeps the count below ten. -/
lemma Counting.step (hc : c.Counting) (call : Call) : (step c call).1.Counting := by
  refine ⟨(recoveryTicksRequired_step c call).trans hc.required, ?_⟩
  have hcount := hc.count_lt
  rcases step_cases c call with h | h | h | ⟨-, -, -, h⟩
  · rw [(step_of_beyond h).2]
    decide
  · rwa [(step_of_trips h).2]
  · obtain ⟨fp, hstep⟩ := step_of_inRange h
    rw [hstep]
    by_cases hfrozen : c.isDepegged = true
    · rcases hc.recover_frozen hfrozen fp with ⟨-, heq⟩ | ⟨hlt, heq⟩
      · simp [heq]
      · rw [heq, UInt64.toNat_add]
        exact lt_of_le_of_lt (Nat.mod_le _ _) (by simp; omega)
    · simp [recover, hfrozen]
  · rwa [h]

/-- While no depeg event comes a circuit that is not frozen stays so. -/
lemma checkSafety_of_quiet (hsafe : c.isDepegged = false) (hquiet : c.Quiet calls) :
    (runState step c calls).checkSafety = true := by
  induction calls generalizing c with
  | nil => simp [checkSafety, hsafe]
  | cons call calls ih =>
    obtain ⟨hevent, hquiet⟩ := hquiet
    refine ih ?_ hquiet
    rcases step_cases c call with h | h | h | ⟨-, -, h, -⟩
    · exact absurd (Or.inl h) hevent
    · exact absurd (Or.inr h) hevent
    · obtain ⟨fp, hstep⟩ := step_of_inRange h
      simp [hstep, recover, hsafe]
    · exact h.trans hsafe

/-- While no depeg event comes a frozen circuit is cleared when its count and the prices in range
since then make ten. -/
lemma Counting.checkSafety_iff (hc : c.Counting) (hfrozen : c.isDepegged = true)
    (hquiet : c.Quiet calls) :
    (runState StablecoinProtectionCircuit.step c calls).checkSafety = true ↔
      10 ≤ c.recoveryTickCount.toNat + c.inRangeTicks calls := by
  induction calls generalizing c with
  | nil =>
    have hcount := hc.count_lt
    simp only [runState_nil, checkSafety, hfrozen, inRangeTicks]
    exact iff_of_false (by decide) (by omega)
  | cons call calls ih =>
    obtain ⟨hevent, hquiet⟩ := hquiet
    have hnext := hc.step call
    rw [runState_cons, inRangeTicks]
    rcases step_cases c call with h | h | h | ⟨-, hrange, hflag, hcount⟩
    · exact absurd (Or.inl h) hevent
    · exact absurd (Or.inr h) hevent
    · obtain ⟨fp, hstep⟩ := step_of_inRange h
      rw [if_pos h]
      rcases hc.recover_frozen hfrozen fp with ⟨hnine, heq⟩ | ⟨hlt, heq⟩
      · -- the tenth price in range: the circuit is clear and stays so
        have hsafe : (StablecoinProtectionCircuit.step c call).1.isDepegged = false := by
          rw [hstep, heq]
        exact iff_of_true (checkSafety_of_quiet hsafe hquiet) (by omega)
      · have hcount : (StablecoinProtectionCircuit.step c call).1.recoveryTickCount.toNat =
            c.recoveryTickCount.toNat + 1 := by
          rw [hstep, heq, UInt64.toNat_add]
          exact Nat.mod_eq_of_lt (by simp; omega)
        have hflag : (StablecoinProtectionCircuit.step c call).1.isDepegged = true := by
          rw [hstep, heq]
          exact hfrozen
        rw [ih hnext hflag hquiet, hcount]
        omega
    · rw [if_neg hrange, ih hnext (hflag.trans hfrozen) hquiet, hcount]
      omega

/-- Every state of a run counts fewer than ten prices. -/
lemma counting_runState (threshold : Decimal) (calls : List Call) :
    (runState step (fresh threshold) calls).Counting :=
  runState_induction (C := fun _ => True) (fun _ call hc _ => hc.step call)
    (counting_fresh threshold) fun _ _ => trivial

/-- After a depeg event trading is allowed again when the count it leaves and the prices in range
since then make ten. -/
lemma checkSafety_after_event (threshold : Decimal) {before after : List Call} {event : Call}
    (hevent : (runState step (fresh threshold) before).DepegEvent event)
    (hquiet : (step (runState step (fresh threshold) before) event).1.Quiet after) :
    (runState step (fresh threshold) (before ++ event :: after)).checkSafety = true ↔
      10 ≤ (step (runState step (fresh threshold) before) event).1.recoveryTickCount.toNat +
        (step (runState step (fresh threshold) before) event).1.inRangeTicks after := by
  have hfrozen : (step (runState step (fresh threshold) before) event).1.isDepegged = true := by
    rcases hevent with h | h
    · exact (step_of_beyond h).1
    · exact (step_of_trips h).1
  have hcounting := (counting_runState threshold before).step event
  rw [runState_append, runState_cons]
  exact hcounting.checkSafety_iff hfrozen hquiet

/-- In a run of a circuit trading stays frozen after every depeg event until ten prices in range
have come exactly when no trip is followed by the end of a recovery that was already under way. -/
theorem frozenUntilHeld_iff (threshold : Decimal) (calls : List Call) :
    (fresh threshold).FrozenUntilHeld calls ↔ (fresh threshold).NoShortRecovery calls := by
  constructor
  · intro h before event after rest heq htrips hquiet hticks _
    have hsafe := h before event after rest heq (Or.inr htrips) hquiet
    rw [checkSafety_after_event threshold (Or.inr htrips) hquiet, (step_of_trips htrips).2] at hsafe
    omega
  · intro h before event after rest heq hevent hquiet
    rw [checkSafety_after_event threshold hevent hquiet]
    rcases hevent with hbeyond | htrips
    · simp [(step_of_beyond hbeyond).2]
    · -- the trip leaves the count, which must not be completed by fewer than ten prices
      have hshort := h before event after rest heq htrips hquiet
      rw [(step_of_trips htrips).2]
      rw [UInt64.lt_iff_toNat_lt] at hshort
      simp only [UInt64.toNat_zero] at hshort
      omega

/-- A price off the peg, nine prices in range, a manual trip and one more price in range. -/
def trippedRecovery : List Call :=
  .updatePrice (9 / 10) :: List.replicate 9 (.updatePrice 1) ++
    [.setDepegState true, .updatePrice 1]

/-- A manual trip during a recovery is lifted by a single price in range. -/
theorem not_frozenUntilHeld_trippedRecovery : ¬ new.FrozenUntilHeld trippedRecovery := by
  intro h
  have hquiet : (step (runState step new (trippedRecovery.take 10)) (.setDepegState true)).1.Quiet
      [.updatePrice 1] := by
    refine ⟨?_, trivial⟩
    rintro (⟨-, -, h⟩ | ⟨-, h⟩)
    · exact absurd h (by decide +kernel)
    · exact absurd h (by decide +kernel)
  have hten := (h (trippedRecovery.take 10) (.setDepegState true) [.updatePrice 1] [] (by rfl)
    (Or.inr rfl) hquiet).mp (by decide +kernel)
  exact absurd hten (by decide +kernel)

end StablecoinProtectionCircuit

end HftArb
