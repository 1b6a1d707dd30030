import HftArb.Foundations.Runs
import HftArb.Execution.Blasts
import HftArb.Capital.BalanceAllocator

/-!
# Who pays the reserved exposure back

The gate of a blast reserves exposure and the blast owns a guard that releases it.  The guard is
created behind the gate, so that it covers the depeg abort and the total timeout, but neither a
rejection by the layers behind the reservation nor a rejection of a later leg.
`run_keepsExposure_iff` says exactly when a failing blast leaves the exposure where it was.

The guard of a blast that runs to its end is dismissed, and no other operation gives the
reservation back: the balance synchronisation writes the allocator and not the risk manager.
`closed_trades_released` follows the counter through whole runs of blasts and synchronisations.
-/

namespace HftArb

open Saturating Runs

namespace HighFrequencyExecutionEngine

/-! ## One blast -/

/-- The exposure counter of the risk manager. -/
def exposure (e : HighFrequencyExecutionEngine) : UInt64 := e.riskManager.totalExposure

/-- A failing call leaves the exposure where it was. -/
def KeepsExposure (e : HighFrequencyExecutionEngine) (call : BlastCall) : Prop :=
  (∃ msg, (e.run call).1 = .error msg) → (e.run call).2.1.exposure = e.exposure

/-- The gate turns the call away before it reserves anything. -/
def TurnedAway (e : HighFrequencyExecutionEngine) (call : BlastCall) : Prop :=
  e.Blocked call.env ∨
    ¬ e.riskManager.Reserves call.first.gateClock call.profitBps call.sizeFp call.capitalFp

/-- Every gated leg of the call passes the gate. -/
def PassesCall (e : HighFrequencyExecutionEngine) (call : BlastCall) : Prop :=
  e.Passes call.kind call.legs call.profitBps call.capitalFp

/-- The outside aborts an accepted call: by a depeg or by the total timeout. -/
def Aborts (call : BlastCall) : Prop := call.env.depegActive = true ∨ call.env.cutAt ≠ none

instance (call : BlastCall) : Decidable (Aborts call) := inferInstanceAs (Decidable (_ ∨ _))

instance (e : HighFrequencyExecutionEngine) (call : BlastCall) : Decidable (e.TurnedAway call) :=
  inferInstanceAs (Decidable (_ ∨ _))

instance (e : HighFrequencyExecutionEngine) (call : BlastCall) : Decidable (e.PassesCall call) :=
  inferInstanceAs (Decidable (e.Passes ..))

/-- The guard releases once for every gated leg. -/
lemma releases_eq_length (call : BlastCall) :
    call.kind.releases = (call.kind.gateInputs call.legs).length := by
  cases call <;> rfl

/-- Some leg of every call is gated. -/
lemma releases_eq_succ (call : BlastCall) : ∃ k, call.kind.releases = k + 1 := by
  cases call with
  | arbitrage env legA legB p c => exact ⟨0, rfl⟩
  | triangular env leg0 leg1 leg2 p c => exact ⟨2, rfl⟩

/-- A call that passes the gate is not turned away. -/
lemma not_turnedAway_of_passes {e : HighFrequencyExecutionEngine} {call : BlastCall}
    (hb : ¬ e.Blocked call.env) (hp : e.PassesCall call) : ¬ e.TurnedAway call := by
  obtain ⟨rest, hin⟩ := gateInputs_eq_cons call
  have haccepts : e.riskManager.AcceptsAll call.profitBps call.sizeFp call.capitalFp
      ((call.first.gateClock, call.first.intent.exchangeId) :: rest) := by
    rw [← hin]
    exact hp
  rintro (hblocked | hres)
  · exact hb hblocked
  · exact hres haccepts.1.1

section

variable {e : HighFrequencyExecutionEngine} {call : BlastCall}

/-- A blocked call fails and leaves the exposure. -/
lemma run_of_blocked (hb : e.Blocked call.env) :
    (∃ msg, (e.run call).1 = .error msg) ∧ (e.run call).2.1.exposure = e.exposure := by
  obtain ⟨msg, h⟩ :=
    e.blast_of_blocked call.kind call.env call.legs call.profitBps call.capitalFp hb
  rw [run_eq_blast, h]
  refine ⟨⟨msg, rfl⟩, ?_⟩
  unfold blockedEngine exposure
  split
  · rfl
  · exact congrArg RiskManager.totalExposure (e.checkDailyReset_riskManager call.env.today)

/-- A call that the gate rejects fails with the exposure the gate leaves. -/
lemma run_of_not_passes (hb : ¬ e.Blocked call.env) (hp : ¬ e.PassesCall call) :
    (∃ msg, (e.run call).1 = .error msg) ∧ ((e.run call).2.1.exposure = e.exposure ↔
      ¬ e.riskManager.Reserves call.first.gateClock call.profitBps call.sizeFp call.capitalFp ∨
        call.sizeFp = 0 ∨ e.exposure = maxWord) := by
  obtain ⟨msg, h⟩ := e.blast_of_not_passes call.kind call.env call.legs call.profitBps
    call.capitalFp hb hp
  obtain ⟨rest, hin⟩ := gateInputs_eq_cons call
  rw [run_eq_blast, h]
  refine ⟨⟨msg, rfl⟩, ?_⟩
  have hn : ¬ e.riskManager.AcceptsAll call.profitBps call.sizeFp call.capitalFp
      ((call.first.gateClock, call.first.intent.exchangeId) :: rest) := by
    rw [← hin]
    exact hp
  have hiff := RiskManager.gateLegs_error_exposure_iff _ _ _ _ _ _ hn
  rw [← hin] at hiff
  exact hiff

/-- A call that passes the gate and is aborted fails, having reserved and released once for every
gated leg. -/
lemma run_of_aborts (hb : ¬ e.Blocked call.env) (hp : e.PassesCall call) (ha : Aborts call) :
    (∃ msg, (e.run call).1 = .error msg) ∧ (e.run call).2.1.exposure =
      release call.sizeFp call.kind.releases
        (reserve call.sizeFp call.kind.releases e.exposure) := by
  have hgated : (e.gatedEngine call.kind call.env call.legs).riskManager.totalExposure =
      reserve call.sizeFp call.kind.releases e.exposure := by
    rw [releases_eq_length]
    rfl
  rw [run_eq_blast]
  cases hd : call.env.depegActive with
  | true =>
    obtain ⟨msg, h⟩ := e.blast_of_depeg call.kind call.env call.legs call.profitBps
      call.capitalFp hb hp hd
    rw [h]
    refine ⟨⟨msg, rfl⟩, ?_⟩
    unfold releaseReserved exposure
    rw [RiskManager.releaseTimes_totalExposure, hgated]
    rfl
  | false =>
    have hcut : call.env.cutAt ≠ none := by
      rcases ha with ha | ha
      · rw [hd] at ha
        exact absurd ha Bool.false_ne_true
      · exact ha
    obtain ⟨n, hn⟩ := Option.ne_none_iff_exists'.mp
      (mt (call.kind.cut_eq_none e.slippageToleranceFp call.env call.legs).mp hcut)
    obtain ⟨msg, e', hsame, h⟩ := e.blast_of_cut call.kind call.env call.legs call.profitBps
      call.capitalFp hb hp hd hn
    rw [h]
    refine ⟨⟨msg, rfl⟩, ?_⟩
    unfold releaseReserved exposure
    rw [RiskManager.releaseTimes_totalExposure, hsame.totalExposure, hgated]
    rfl

/-- A call that passes the gate and is not aborted succeeds and keeps its reservations. -/
lemma run_of_completed (hb : ¬ e.Blocked call.env) (hp : e.PassesCall call) (ha : ¬ Aborts call) :
    (∃ results, (e.run call).1 = .ok results) ∧ (e.run call).2.1.exposure =
      reserve call.sizeFp call.kind.releases e.exposure := by
  simp only [Aborts, not_or, Bool.not_eq_true, not_not] at ha
  obtain ⟨hd, hcut⟩ := ha
  obtain ⟨e', hsame, h⟩ := e.blast_of_completed call.kind call.env call.legs call.profitBps
    call.capitalFp hb hp hd ((call.kind.cut_eq_none _ _ _).mpr hcut)
  rw [run_eq_blast, h]
  refine ⟨⟨_, rfl⟩, ?_⟩
  have hexp : e'.exposure = reserve call.sizeFp call.kind.releases e.exposure := by
    rw [releases_eq_length]
    exact hsame.totalExposure
  cases e.bookedCents call.kind call.legs call.profitBps with
  | none => exact hexp
  | some cents =>
    rw [← hexp]
    exact congrArg RiskManager.totalExposure (e'.recordDailyPnl_riskManager cents)

end

/-- A failing blast leaves the exposure where it was exactly when it is turned away before it
reserves, or its size is zero, or the counter is full before a gate that rejects, or it passes the
gate and then either runs to its end or has reserved without saturating. -/
theorem run_keepsExposure_iff (e : HighFrequencyExecutionEngine) (call : BlastCall) :
    e.KeepsExposure call ↔
      e.TurnedAway call ∨ call.sizeFp = 0 ∨
      (¬ e.PassesCall call ∧ e.exposure = maxWord) ∨
      (e.PassesCall call ∧ (¬ Aborts call ∨ e.exposure = 0 ∨
        e.exposure.toNat + call.kind.releases * call.sizeFp.toNat < 2 ^ 64)) := by
  unfold KeepsExposure
  by_cases hb : e.Blocked call.env
  · exact iff_of_true (fun _ => (run_of_blocked hb).2) (Or.inl (Or.inl hb))
  by_cases hp : e.PassesCall call
  · have haway := not_turnedAway_of_passes hb hp
    by_cases ha : Aborts call
    · obtain ⟨herr, hexp⟩ := run_of_aborts hb hp ha
      obtain ⟨k, hk⟩ := releases_eq_succ call
      rw [hexp, hk, release_reserve_eq_self_iff]
      simp [herr, haway, hp, ha]
    · obtain ⟨⟨results, hok⟩, -⟩ := run_of_completed hb hp ha
      simp [hok, hp, ha]
  · obtain ⟨herr, hexp⟩ := run_of_not_passes hb hp
    rw [hexp]
    simp [herr, hp, TurnedAway, hb]

/-- A two-leg call for a fifth of the capital, above the single-position limit of layer 8. -/
def oversizedCall : BlastCall :=
  .arbitrage ⟨1, false, none⟩
    (.atZero ⟨0, 3, 1, 20000, true, "BTCUSDT"⟩ .timedOut)
    (.atZero ⟨1, 3, 1, 20100, false, "BTCUSDT"⟩ .timedOut) 50 100000000000

/-- The rejection of layer 8 leaves the reservation of layer 7 behind. -/
theorem oversizedCall_leaks_exposure : ¬ test.KeepsExposure oversizedCall := by
  intro h
  have herr : (test.run oversizedCall).1 =
      .error "pre-trade risk rejection: single-position size limit breached" := by
    decide +kernel
  have hexp : (test.run oversizedCall).2.1.exposure = 20000000000 := by decide +kernel
  have hzero : test.exposure = 0 := by decide +kernel
  have hkept := h ⟨_, herr⟩
  rw [hexp, hzero] at hkept
  exact absurd hkept (by decide)

/-! ## Runs of blasts and synchronisations -/

/-- The call ended flat: no order was sent, or all legs filled completely, or nothing filled, or
every fill was rolled back. -/
def EndedFlat (e : HighFrequencyExecutionEngine) (call : BlastCall) : Prop :=
  (∀ route o status, Event.dispatched route o status ∉ (e.run call).2.2) ∨
  (∀ l ∈ call.legs, l.fill = l.intent.qty) ∨
  (∀ l ∈ call.legs, l.fill = 0) ∨
  (∀ l ∈ call.legs, l.fill ≠ 0 → ∃ r o, l.answer = .answered r ∧
    counterOrder (applySlippageLimit e.slippageToleranceFp l.intent) r = some o ∧
    Event.counterOrder o ∈ (e.run call).2.2)

/-- The call is turned away before it reserves, or has size zero, or is accepted and aborted. -/
def PaidBack (e : HighFrequencyExecutionEngine) (call : BlastCall) : Prop :=
  e.TurnedAway call ∨ call.sizeFp = 0 ∨ (e.PassesCall call ∧ Aborts call)

instance (e : HighFrequencyExecutionEngine) (call : BlastCall) : Decidable (e.PaidBack call) :=
  inferInstanceAs (Decidable (_ ∨ _))

/-- From a zero exposure, a call leaves zero exactly when it is paid back. -/
lemma run_exposure_eq_zero_iff {e : HighFrequencyExecutionEngine} (h0 : e.exposure = 0)
    (call : BlastCall) : (e.run call).2.1.exposure = 0 ↔ e.PaidBack call := by
  unfold PaidBack
  by_cases hb : e.Blocked call.env
  · have hkept : (e.run call).2.1.exposure = 0 := by rw [(run_of_blocked hb).2, h0]
    exact iff_of_true hkept (Or.inl (Or.inl hb))
  have hfull : ¬ (0 : UInt64) = maxWord := by decide
  by_cases hp : e.PassesCall call
  · have haway := not_turnedAway_of_passes hb hp
    obtain ⟨k, hk⟩ := releases_eq_succ call
    by_cases ha : Aborts call
    · have hback : release call.sizeFp (k + 1) (reserve call.sizeFp (k + 1) 0) = 0 :=
        (release_reserve_eq_self_iff _ _ _).mpr (Or.inr (Or.inl rfl))
      rw [(run_of_aborts hb hp ha).2, hk, h0]
      exact iff_of_true hback (Or.inr (Or.inr ⟨hp, ha⟩))
    · rw [(run_of_completed hb hp ha).2, hk, h0, reserve_eq_self_iff]
      simp [haway, ha, hfull]
  · have hiff := (run_of_not_passes hb hp).2
    rw [h0] at hiff
    rw [hiff]
    simp [TurnedAway, hb, hp, hfull]

end HighFrequencyExecutionEngine

/-- The engine together with the allocator that the synchronisation writes. -/
structure SyncedEngine where
  engine : HighFrequencyExecutionEngine
  allocator : LocalCapitalAllocator

/-- What can happen to them: a blast, or a cycle of the balance synchronisation. -/
inductive SyncedStep where
  | blast (call : BlastCall)
  | balanceSync (tokenId : ℕ) (answers : List (UInt16 × Except String Decimal))

namespace SyncedEngine

/-- One step. -/
def step (s : SyncedEngine) : SyncedStep → SyncedEngine × List Event
  | .blast call => ({ s with engine := (s.engine.run call).2.1 }, (s.engine.run call).2.2)
  | .balanceSync tokenId answers =>
    ({ s with allocator := s.allocator.syncCycle tokenId answers }, [])

/-- Every blast of the run ended flat. -/
def AllFlat (s : SyncedEngine) (steps : List SyncedStep) : Prop :=
  ∀ before call after, steps = before ++ .blast call :: after →
    (runState step s before).engine.EndedFlat call

/-- A synchronisation completed after the last blast of the run. -/
def SyncedSince (steps : List SyncedStep) : Prop :=
  ∃ before tokenId answers after, steps = before ++ .balanceSync tokenId answers :: after ∧
    ∀ call, SyncedStep.blast call ∉ after

/-- Whenever all blasts so far ended flat and a synchronisation followed, no exposure is left. -/
def ClosedTradesReleased (s : SyncedEngine) (steps : List SyncedStep) : Prop :=
  ∀ before after, steps = before ++ after → AllFlat s before → SyncedSince before →
    (runState step s before).engine.exposure = 0

/-- Every blast of the run that ended flat was paid back. -/
def FlatPaidBack (s : SyncedEngine) (steps : List SyncedStep) : Prop :=
  ∀ before call after, steps = before ++ .blast call :: after →
    (runState step s before).engine.EndedFlat call →
    (runState step s before).engine.PaidBack call

/-- A run without blasts does not touch the exposure. -/
lemma runState_exposure_of_no_blast (s : SyncedEngine) {steps : List SyncedStep}
    (h : ∀ call, SyncedStep.blast call ∉ steps) :
    (runState step s steps).engine.exposure = s.engine.exposure := by
  induction steps generalizing s with
  | nil => rfl
  | cons a steps ih =>
    have htail : ∀ call, SyncedStep.blast call ∉ steps := fun call hmem => h call (by simp [hmem])
    cases a with
    | blast call => exact absurd (by simp) (h call)
    | balanceSync tokenId answers => exact ih _ htail

/-- In a run whose blasts all ended flat and were paid back the exposure stays zero. -/
lemma runState_exposure_eq_zero {s : SyncedEngine} (h0 : s.engine.exposure = 0)
    {steps : List SyncedStep} (hflat : AllFlat s steps) (hpaid : FlatPaidBack s steps) :
    (runState step s steps).engine.exposure = 0 := by
  induction steps generalizing s with
  | nil => exact h0
  | cons a steps ih =>
    have hstep : (step s a).1.engine.exposure = 0 := by
      cases a with
      | blast call =>
        have hpaid' : s.engine.PaidBack call :=
          hpaid [] call steps rfl (hflat [] call steps rfl)
        exact (HighFrequencyExecutionEngine.run_exposure_eq_zero_iff h0 call).mpr hpaid'
      | balanceSync tokenId answers => exact h0
    refine ih hstep ?_ ?_
    · intro before call after heq
      exact hflat (a :: before) call after (by rw [heq]; rfl)
    · intro before call after heq
      exact hpaid (a :: before) call after (by rw [heq]; rfl)

/-- In every run from a zero exposure whose flat blasts were all paid back by the blast itself, no
exposure is left of closed trades; and a first blast that is not paid back leaves some, whatever
synchronisations follow. -/
theorem closed_trades_released (s : SyncedEngine) (h0 : s.engine.exposure = 0) :
    (∀ steps, FlatPaidBack s steps → ClosedTradesReleased s steps) ∧
    (∀ call syncs, ¬ s.engine.PaidBack call → (∀ call', SyncedStep.blast call' ∉ syncs) →
      (runState step s (.blast call :: syncs)).engine.exposure ≠ 0) := by
  refine ⟨?_, ?_⟩
  · intro steps hpaid before after heq hflat _
    refine runState_exposure_eq_zero h0 hflat ?_
    intro pre call post hpre hended
    refine hpaid pre call (post ++ after) ?_ hended
    rw [heq, hpre]
    simp
  · intro call syncs hnot hsyncs hzero
    rw [runState_cons, runState_exposure_of_no_blast _ hsyncs] at hzero
    exact hnot ((HighFrequencyExecutionEngine.run_exposure_eq_zero_iff h0 call).mp hzero)

/-- The engine of the tests with an empty allocator. -/
def test : SyncedEngine := ⟨.test, ⟨fun _ => 0, 4, 2, fun _ => none⟩⟩

/-- A two-leg call whose legs both fill completely, under the given answer of the depeg monitor. -/
def filledCall (depegActive : Bool) : BlastCall :=
  .arbitrage ⟨1, depegActive, none⟩ (.testBuy (1 / 2)) (.testSell (1 / 2)) 50 100000000000

/-- A list of one blast and one synchronisation has no other blast. -/
lemma eq_nil_of_blast_mem {c call : BlastCall} {t : ℕ}
    {answers : List (UInt16 × Except String Decimal)} {before after : List SyncedStep}
    (h : [.blast c, .balanceSync t answers] = before ++ .blast call :: after) :
    before = [] ∧ call = c := by
  cases before with
  | nil =>
    rw [List.nil_append, List.cons.injEq, SyncedStep.blast.injEq] at h
    exact ⟨rfl, h.1.symm⟩
  | cons b bs =>
    rw [List.cons_append, List.cons.injEq] at h
    cases bs with
    | nil => simp at h
    | cons b' bs => simp at h

theorem closed_trades_released_test :
    ClosedTradesReleased test [.blast (filledCall true), .balanceSync 0 [(0, .ok 100)]] ∧
    (runState step test
      [.blast (filledCall false), .balanceSync 0 [(0, .ok 100)]]).engine.exposure ≠ 0 := by
  have h0 : test.engine.exposure = 0 := by decide +kernel
  refine ⟨(closed_trades_released test h0).1 _ ?_, (closed_trades_released test h0).2 _ _ ?_ ?_⟩
  · intro before call after heq _
    obtain ⟨rfl, rfl⟩ := eq_nil_of_blast_mem heq
    decide +kernel
  · decide +kernel
  · intro call hmem
    simp at hmem

/-- A completely filled two-leg blast leaves its reservation behind the next synchronisation. -/
theorem filledCall_keeps_exposure :
    ¬ ClosedTradesReleased test [.blast (filledCall false), .balanceSync 0 [(0, .ok 100)]] := by
  intro h
  have hflat : AllFlat test [.blast (filledCall false), .balanceSync 0 [(0, .ok 100)]] := by
    intro before call after heq
    obtain ⟨rfl, rfl⟩ := eq_nil_of_blast_mem heq
    refine Or.inr (Or.inl ?_)
    decide +kernel
  have hsynced : SyncedSince [.blast (filledCall false), .balanceSync 0 [(0, .ok 100)]] :=
    ⟨[.blast (filledCall false)], 0, [(0, .ok 100)], [], rfl, by simp⟩
  have hzero := h _ [] (by simp) hflat hsynced
  have hexp : (runState step test
      [.blast (filledCall false), .balanceSync 0 [(0, .ok 100)]]).engine.exposure =
        10000000000 := by
    decide +kernel
  rw [hexp] at hzero
  exact absurd hzero (by decide)

end SyncedEngine

end HftArb
