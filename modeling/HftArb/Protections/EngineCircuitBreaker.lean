import HftArb.Foundations.Runs
import HftArb.Foundations.Saturating

/-!
# The engine circuit breaker

The breaker freezes all trading.  A trip records its reason only when the breaker was not frozen.  A
plain reset refuses to clear a manual kill or a balance corruption, and a check lifts a freeze for a
network partition or a clock drift by itself after a minute.

A kill issued while the breaker is frozen for another reason is not recorded, so it goes with that
freeze.  `critical_freeze_survives_iff` says exactly which kills and corruptions outlive a run.
-/

namespace HftArb

open Saturating Runs

/-- The state of the breaker. -/
structure EngineCircuitBreaker where
  systemFrozen : Bool
  tripReason : UInt64
  tripTimestampMs : UInt64
  tripCount : UInt64
  rejectedCount : UInt64

/-- `CircuitBreakerError::SystemFrozen`. -/
structure SystemFrozen where
  reasonCode : UInt64
  rejectedTotal : UInt64

/-- The text of the rejection. -/
def SystemFrozen.message (err : SystemFrozen) : String :=
  "System frozen (reason code: " ++ toString err.reasonCode ++ "), " ++
    toString err.rejectedTotal ++ " trades rejected"

namespace EngineCircuitBreaker

/-! ## Reasons -/

def reasonUnknown : UInt64 := 0
def reasonManualKill : UInt64 := 1
def reasonBalanceCorruption : UInt64 := 2
def reasonNetworkPartition : UInt64 := 5
def reasonClockDrift : UInt64 := 7

/-- The reasons a plain reset refuses to clear. -/
def Critical (reason : UInt64) : Prop :=
  reason = reasonBalanceCorruption ∨ reason = reasonManualKill

instance (reason : UInt64) : Decidable (Critical reason) := inferInstanceAs (Decidable (_ ∨ _))

/-- The reasons a check clears after the cooldown. -/
def Transient (reason : UInt64) : Prop :=
  reason = reasonNetworkPartition ∨ reason = reasonClockDrift

instance (reason : UInt64) : Decidable (Transient reason) := inferInstanceAs (Decidable (_ ∨ _))

/-! ## Operations -/

/-- A fresh breaker. -/
def new : EngineCircuitBreaker := ⟨false, 0, 0, 0, 0⟩

/-- Freeze all trading; only the first trip of a freeze records its reason and its time. -/
def trip (b : EngineCircuitBreaker) (reasonCode now : UInt64) : EngineCircuitBreaker :=
  if b.systemFrozen then b
  else
    { b with
      systemFrozen := true
      tripReason := reasonCode
      tripTimestampMs := now
      tripCount := b.tripCount + 1 }

/-- Clear the freeze whatever its reason; the answer is whether there was one. -/
def resetForced (b : EngineCircuitBreaker) : Bool × EngineCircuitBreaker :=
  if b.systemFrozen then
    (true, { b with systemFrozen := false, tripReason := reasonUnknown, tripTimestampMs := 0 })
  else (false, b)

/-- Clear the freeze unless its reason is critical. -/
def reset (b : EngineCircuitBreaker) : Bool × EngineCircuitBreaker :=
  if Critical b.tripReason then (b.systemFrozen, b) else b.resetForced

/-- `TRANSIENT_COOLDOWN_MS`. -/
def transientCooldownMs : UInt64 := 60000

/-- The freeze has a transient reason and its cooldown is over. -/
def AutoRecovers (b : EngineCircuitBreaker) (now : UInt64) : Prop :=
  Transient b.tripReason ∧ transientCooldownMs < satSub now b.tripTimestampMs

instance (b : EngineCircuitBreaker) (now : UInt64) : Decidable (b.AutoRecovers now) :=
  inferInstanceAs (Decidable (_ ∧ _))

/-- Reject a trade while the system is frozen. -/
def checkAndReject (b : EngineCircuitBreaker) (now : UInt64) :
    Except SystemFrozen Unit × EngineCircuitBreaker :=
  if b.systemFrozen then
    if b.AutoRecovers now then (.ok (), b.reset.2)
    else
      (.error ⟨b.tripReason, b.rejectedCount + 1⟩,
        { b with rejectedCount := b.rejectedCount + 1 })
  else (.ok (), b)

/-! ## Runs -/

/-- A call of the breaker, with the clock it reads. -/
inductive Call where
  | trip (reasonCode now : UInt64)
  | reset
  | resetForced
  | checkAndReject (now : UInt64)

/-- The answers of the calls that have one. -/
inductive Answer where
  | wasFrozen (frozen : Bool)
  | checked (result : Except SystemFrozen Unit)

/-- One call. -/
def step (b : EngineCircuitBreaker) : Call → EngineCircuitBreaker × List Answer
  | .trip reasonCode now => (b.trip reasonCode now, [])
  | .reset => (b.reset.2, [.wasFrozen b.reset.1])
  | .resetForced => (b.resetForced.2, [.wasFrozen b.resetForced.1])
  | .checkAndReject now => ((b.checkAndReject now).2, [.checked (b.checkAndReject now).1])

/-- Throughout the calls the breaker is frozen and every check is rejected. -/
structure StaysFrozen (b : EngineCircuitBreaker) (calls : List Call) : Prop where
  frozen : ∀ pre post, calls = pre ++ post → (runState step b pre).systemFrozen = true
  rejects : ∀ pre now post, calls = pre ++ .checkAndReject now :: post →
    ∃ err, ((runState step b pre).checkAndReject now).1 = .error err

/-- From every critical trip of the run on, the breaker stays frozen. -/
def CriticalFreezeSurvives (b : EngineCircuitBreaker) (calls : List Call) : Prop :=
  ∀ before reason now after, calls = before ++ .trip reason now :: after → Critical reason →
    StaysFrozen ((runState step b before).trip reason now) after

/-- Nothing in the calls clears the freeze of the breaker. -/
def Uncleared (b : EngineCircuitBreaker) (calls : List Call) : Prop :=
  Call.reset ∉ calls ∧ ∀ now, Call.checkAndReject now ∈ calls → ¬ b.AutoRecovers now

variable {b : EngineCircuitBreaker} {calls : List Call}

/-- A freeze that lasts is one that lasts over the first call and from there on. -/
lemma staysFrozen_cons_iff {call : Call} :
    StaysFrozen b (call :: calls) ↔
      b.systemFrozen = true ∧
        (∀ now, call = .checkAndReject now → ∃ err, (b.checkAndReject now).1 = .error err) ∧
        StaysFrozen (step b call).1 calls := by
  constructor
  · intro h
    refine ⟨h.frozen [] (call :: calls) rfl, ?_, ?_, ?_⟩
    · rintro now rfl
      exact h.rejects [] now calls rfl
    · rintro pre post rfl
      exact h.frozen (call :: pre) post rfl
    · rintro pre now post rfl
      exact h.rejects (call :: pre) now post rfl
  · rintro ⟨hfrozen, hreject, htail⟩
    constructor
    · intro pre post heq
      cases pre with
      | nil => exact hfrozen
      | cons c pre =>
        obtain ⟨rfl, rfl⟩ := List.cons.inj heq
        exact htail.frozen pre post rfl
    · intro pre now post heq
      cases pre with
      | nil =>
        obtain ⟨rfl, -⟩ := List.cons.inj heq
        exact hreject now rfl
      | cons c pre =>
        obtain ⟨rfl, rfl⟩ := List.cons.inj heq
        exact htail.rejects pre now post rfl

/-- A trip of a frozen breaker is dropped. -/
lemma trip_of_frozen (hb : b.systemFrozen = true) (reason now : UInt64) :
    b.trip reason now = b := by
  simp only [trip, hb, if_true]

/-- A frozen breaker rejects a check unless it recovers. -/
lemma checkAndReject_of_frozen (hb : b.systemFrozen = true) {now : UInt64}
    (h : ¬ b.AutoRecovers now) :
    b.checkAndReject now =
      (.error ⟨b.tripReason, b.rejectedCount + 1⟩,
        { b with rejectedCount := b.rejectedCount + 1 }) := by
  simp only [checkAndReject, hb, h, if_true, if_false]

/-- A frozen breaker that recovers accepts the check. -/
lemma checkAndReject_of_recovers (hb : b.systemFrozen = true) {now : UInt64}
    (h : b.AutoRecovers now) : (b.checkAndReject now).1 = .ok () := by
  simp only [checkAndReject, hb, h, if_true]

/-- A reset leaves a freeze whose reason is critical. -/
lemma reset_of_critical (h : Critical b.tripReason) : b.reset.2 = b := by
  simp only [reset, h, if_true]

/-- A reset clears a freeze whose reason is not critical. -/
lemma reset_of_not_critical (hb : b.systemFrozen = true) (h : ¬ Critical b.tripReason) :
    b.reset.2.systemFrozen = false := by
  simp only [reset, h, if_false, resetForced, hb, if_true]

/-- A transient reason is not critical. -/
lemma Transient.not_critical {reason : UInt64} (h : Transient reason) : ¬ Critical reason := by
  rcases h with rfl | rfl
  · decide
  · decide

/-- A trip does not clear a freeze. -/
lemma uncleared_trip_cons {reason now : UInt64} :
    Uncleared b (.trip reason now :: calls) ↔ Uncleared b calls := by
  simp only [Uncleared, List.mem_cons, reduceCtorEq, false_or]

/-- A check clears a freeze only by recovery. -/
lemma uncleared_check_cons {now : UInt64} :
    Uncleared b (.checkAndReject now :: calls) ↔ ¬ b.AutoRecovers now ∧ Uncleared b calls := by
  constructor
  · rintro ⟨hreset, hchecks⟩
    exact ⟨hchecks now List.mem_cons_self, fun h => hreset (List.mem_cons_of_mem _ h),
      fun now' h => hchecks now' (List.mem_cons_of_mem _ h)⟩
  · rintro ⟨hrec, hreset, hchecks⟩
    refine ⟨by simp [hreset], ?_⟩
    intro now' hmem
    rcases List.mem_cons.mp hmem with h | h
    · obtain rfl := Call.checkAndReject.inj h
      exact hrec
    · exact hchecks now' h

/-- No call, no end of a freeze. -/
lemma staysFrozen_nil (hb : b.systemFrozen = true) : StaysFrozen b [] := by
  constructor
  · intro pre post heq
    obtain ⟨rfl, -⟩ := List.append_eq_nil_iff.mp heq.symm
    exact hb
  · intro pre now post heq
    simp at heq

/-- A freeze lasts over calls without a forced reset exactly when its reason is critical or nothing
in the calls clears it. -/
lemma staysFrozen_iff (hb : b.systemFrozen = true) (hforced : Call.resetForced ∉ calls) :
    StaysFrozen b calls ↔ Critical b.tripReason ∨ Uncleared b calls := by
  -- Each call either leaves the reason of the freeze and the time of its trip, or ends the freeze.
  induction calls generalizing b with
  | nil => exact iff_of_true (staysFrozen_nil hb) (Or.inr ⟨by simp, by simp⟩)
  | cons call calls ih =>
    have hforced' : Call.resetForced ∉ calls := fun hmem => hforced (List.mem_cons_of_mem _ hmem)
    rw [staysFrozen_cons_iff]
    cases call with
    | trip reason now =>
      rw [uncleared_trip_cons, ← ih hb hforced']
      simp only [step, trip_of_frozen hb, hb, reduceCtorEq, false_implies, implies_true, true_and]
    | reset =>
      by_cases hcrit : Critical b.tripReason
      · refine iff_of_true ⟨hb, by simp, ?_⟩ (Or.inl hcrit)
        simp only [step, reset_of_critical hcrit]
        exact (ih hb hforced').mpr (Or.inl hcrit)
      · have hcleared := reset_of_not_critical hb hcrit
        refine iff_of_false ?_ ?_
        · rintro ⟨-, -, htail⟩
          have hfrozen : b.reset.2.systemFrozen = true := htail.frozen [] calls rfl
          exact Bool.false_ne_true (hcleared.symm.trans hfrozen)
        · rintro (h | h)
          · exact hcrit h
          · exact h.1 List.mem_cons_self
    | resetForced => exact absurd List.mem_cons_self hforced
    | checkAndReject now =>
      rw [uncleared_check_cons]
      by_cases hrec : b.AutoRecovers now
      · refine iff_of_false ?_ ?_
        · rintro ⟨-, hreject, -⟩
          obtain ⟨err, herr⟩ := hreject now rfl
          rw [checkAndReject_of_recovers hb hrec] at herr
          cases herr
        · rintro (h | h)
          · exact hrec.1.not_critical h
          · exact h.1 hrec
      · have heq := checkAndReject_of_frozen hb hrec
        have htail := ih (b := (b.checkAndReject now).2) (by rw [heq]; exact hb) hforced'
        have hcheck : ∀ now', Call.checkAndReject now = .checkAndReject now' →
            ∃ err, (b.checkAndReject now').1 = .error err := by
          rintro now' ⟨⟩
          rw [heq]
          exact ⟨_, rfl⟩
        have hrest : StaysFrozen (step b (.checkAndReject now)).1 calls ↔
            Critical b.tripReason ∨ Uncleared b calls := by
          rw [heq] at htail
          simp only [step, heq]
          exact htail
        rw [and_iff_right hb, and_iff_right hcheck, hrest, and_iff_right hrec]

/-- In a run without a forced reset every critical trip freezes the breaker for good exactly when
each comes while the breaker is not frozen, or is frozen for a critical reason, or is frozen for
another reason that nothing clears later in the run. -/
theorem critical_freeze_survives_iff (b : EngineCircuitBreaker) (calls : List Call)
    (hforced : Call.resetForced ∉ calls) :
    CriticalFreezeSurvives b calls ↔
      ∀ before reason now after, calls = before ++ .trip reason now :: after → Critical reason →
        (runState step b before).systemFrozen = false ∨
          Critical (runState step b before).tripReason ∨
          Uncleared (runState step b before) after := by
  unfold CriticalFreezeSurvives
  refine forall_congr' fun before => forall_congr' fun reason => forall_congr' fun now =>
    forall_congr' fun after => imp_congr_right fun heq => imp_congr_right fun hcrit => ?_
  have hafter : Call.resetForced ∉ after := by
    intro hmem
    apply hforced
    rw [heq]
    exact List.mem_append_right _ (List.mem_cons_of_mem _ hmem)
  cases hfrozen : (runState step b before).systemFrozen with
  | false =>
    have htrip : ((runState step b before).trip reason now).systemFrozen = true := by
      simp only [trip, hfrozen, Bool.false_eq_true, if_false]
    have hreason : ((runState step b before).trip reason now).tripReason = reason := by
      simp only [trip, hfrozen, Bool.false_eq_true, if_false]
    refine iff_of_true ?_ (Or.inl rfl)
    rw [staysFrozen_iff htrip hafter, hreason]
    exact Or.inl hcrit
  | true =>
    rw [trip_of_frozen hfrozen, staysFrozen_iff hfrozen hafter]
    exact (or_iff_right (by decide)).symm

/-- A kill of a running system outlives resets and checks. -/
theorem critical_freeze_survives_kill :
    Call.resetForced ∉ [Call.trip reasonManualKill 0, .reset, .checkAndReject 100000] ∧
      CriticalFreezeSurvives new [.trip reasonManualKill 0, .reset, .checkAndReject 100000] := by
  have hforced : Call.resetForced ∉
      [Call.trip reasonManualKill 0, .reset, .checkAndReject 100000] := by
    simp
  refine ⟨hforced, (critical_freeze_survives_iff new _ hforced).mpr ?_⟩
  intro before reason now after heq _
  cases before with
  | nil => exact Or.inl rfl
  | cons c before =>
    have hmem : Call.trip reason now ∈ [Call.reset, .checkAndReject 100000] := by
      rw [(List.cons.inj heq).2]
      simp
    simp at hmem

/-- A kill during a network partition is lifted with the partition, after a minute. -/
theorem kill_during_partition_lifted :
    ¬ CriticalFreezeSurvives new
      [.trip reasonNetworkPartition 0, .trip reasonManualKill 1000, .checkAndReject 60001] := by
  intro h
  have hstays := h [.trip reasonNetworkPartition 0] reasonManualKill 1000 [.checkAndReject 60001]
    rfl (by decide)
  have hfrozen := hstays.frozen [.checkAndReject 60001] [] rfl
  exact absurd hfrozen (by decide)

end EngineCircuitBreaker

end HftArb
