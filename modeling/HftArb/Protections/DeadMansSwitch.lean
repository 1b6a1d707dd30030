import HftArb.Foundations.Runs

/-!
# The dead man's switch

The signal loop sends a heartbeat on every tick and looks at the switch before it evaluates
anything.  A watchdog compares the clock with the last heartbeat every second and trips the switch
when the loop has been silent for too long; the shutdown trips it by hand.  The three share two
atomics and nothing else, so their accesses come in any order.

`tripped_iff` says when the switch trips on a clock that never goes back: by hand, or by a check
that finds no heartbeat within the timeout.  `silence_trips` is the other half of the purpose: a
loop that has stopped is found out by the check under way or the one after it, and no tick is
evaluated after that.
-/

namespace HftArb

open Runs

/-- The switch: the instant of the last heartbeat, the flag, and the two times in milliseconds. -/
structure DeadMansSwitch where
  lastHeartbeatMs : UInt64
  tripped : Bool
  gracePeriodMs : UInt64
  timeoutMs : UInt64

namespace DeadMansSwitch

/-- A switch for times in seconds, made when the clock has the given reading. -/
def new (gracePeriodSecs timeoutSecs nowMs : UInt64) : DeadMansSwitch :=
  ⟨nowMs, false, gracePeriodSecs * 1000, timeoutSecs * 1000⟩

/-- `is_tripped`. -/
def isTripped (switch : DeadMansSwitch) : Bool := switch.tripped

/-- `trip`. -/
def trip (switch : DeadMansSwitch) : DeadMansSwitch := { switch with tripped := true }

/-- The store of `heartbeat`, with the reading of the clock. -/
def heartbeat (switch : DeadMansSwitch) (nowMs : UInt64) : DeadMansSwitch :=
  { switch with lastHeartbeatMs := nowMs }

/-- `elapsed_since_heartbeat_ms`: the subtraction saturates. -/
def elapsedSinceHeartbeatMs (switch : DeadMansSwitch) (nowMs : UInt64) : UInt64 :=
  if nowMs ≤ switch.lastHeartbeatMs then 0 else nowMs - switch.lastHeartbeatMs

/-- The watchdog finds more than the timeout since the last heartbeat. -/
lemma timeout_lt_elapsed_iff (switch : DeadMansSwitch) (nowMs : UInt64) :
    switch.timeoutMs < switch.elapsedSinceHeartbeatMs nowMs ↔
      switch.lastHeartbeatMs.toNat + switch.timeoutMs.toNat < nowMs.toNat := by
  unfold elapsedSinceHeartbeatMs
  split_ifs with hle
  · rw [UInt64.le_iff_toNat_le] at hle
    exact iff_of_false (by simp [UInt64.lt_iff_toNat_lt]) (by omega)
  · rw [UInt64.le_iff_toNat_le, not_le] at hle
    rw [UInt64.lt_iff_toNat_lt, UInt64.toNat_sub_of_le _ _ (UInt64.le_iff_toNat_le.mpr hle.le)]
    omega

/-! ## The tasks -/

/-- What the signal loop does next: it sleeps until the next tick, stores the clock that it has
read, looks at the flag, or evaluates. -/
inductive SignalLoop
  | sleeping
  | stamped (nowMs : UInt64)
  | checking
  | evaluating
  deriving DecidableEq

/-- What the watchdog does next: it lets the grace period pass or sleeps between two checks, looks
at the flag, reads the clock, loads the last heartbeat, or trips the switch. -/
inductive Watchdog
  | grace
  | sleeping
  | flag
  | clock
  | load (nowMs : UInt64)
  | tripping
  | returned
  deriving DecidableEq

/-- The switch and the two tasks. -/
structure Tasks where
  switch : DeadMansSwitch
  signalLoop : SignalLoop
  watchdog : Watchdog

/-- A step of the signal loop or of the watchdog at a reading of the clock, or a trip by hand. -/
inductive Action
  | signalLoop (nowMs : UInt64)
  | watchdog (nowMs : UInt64)
  | manualKill
  deriving DecidableEq

/-- What the tasks do to be seen: a heartbeat is stored, the last one is compared with a reading of
the clock, a tick is evaluated, the switch trips. -/
inductive Event
  | beat (nowMs : UInt64)
  | compared (nowMs : UInt64)
  | evaluated
  | tripped
  deriving DecidableEq

/-- The next access of the signal loop. -/
def signalLoopStep (t : Tasks) (nowMs : UInt64) : Tasks × List Event :=
  match t.signalLoop with
  | .sleeping => ({ t with signalLoop := .stamped nowMs }, [])
  | .stamped stampMs =>
    ({ t with switch := t.switch.heartbeat stampMs, signalLoop := .checking }, [.beat stampMs])
  | .checking =>
    if t.switch.isTripped then ({ t with signalLoop := .sleeping }, [])
    else ({ t with signalLoop := .evaluating }, [.evaluated])
  | .evaluating => ({ t with signalLoop := .sleeping }, [])

/-- The next access of the watchdog. -/
def watchdogStep (t : Tasks) (nowMs : UInt64) : Tasks × List Event :=
  match t.watchdog with
  | .grace => ({ t with watchdog := .sleeping }, [])
  | .sleeping => ({ t with watchdog := .flag }, [])
  | .flag =>
    if t.switch.isTripped then ({ t with watchdog := .returned }, [])
    else ({ t with watchdog := .clock }, [])
  | .clock => ({ t with watchdog := .load nowMs }, [])
  | .load stampMs =>
    if t.switch.timeoutMs < t.switch.elapsedSinceHeartbeatMs stampMs then
      ({ t with watchdog := .tripping }, [.compared stampMs])
    else ({ t with watchdog := .sleeping }, [.compared stampMs])
  | .tripping => ({ t with switch := t.switch.trip, watchdog := .returned }, [.tripped])
  | .returned => (t, [])

/-- One step of the tasks. -/
def step (t : Tasks) : Action → Tasks × List Event
  | .signalLoop nowMs => signalLoopStep t nowMs
  | .watchdog nowMs => watchdogStep t nowMs
  | .manualKill => ({ t with switch := t.switch.trip }, [.tripped])

/-- The tasks right after the watchdog is spawned. -/
def start (gracePeriodSecs timeoutSecs nowMs : UInt64) : Tasks :=
  ⟨new gracePeriodSecs timeoutSecs nowMs, .sleeping, .grace⟩

/-! ## What a step changes -/

/-- The heartbeat of an event. -/
def Event.beat? : Event → Option UInt64
  | .beat nowMs => some nowMs
  | _ => none

/-- The reading that the signal loop has still to store. -/
def SignalLoop.stamp? : SignalLoop → Option UInt64
  | .stamped nowMs => some nowMs
  | _ => none

/-- The reading of the clock at an action. -/
def Action.nowMs? : Action → Option UInt64
  | .signalLoop nowMs => some nowMs
  | .watchdog nowMs => some nowMs
  | .manualKill => none

/-- The heartbeats of a switch, the reading at its start first. -/
def beats (startMs : UInt64) (events : List Event) : List UInt64 :=
  startMs :: events.filterMap Event.beat?

lemma beats_append (startMs : UInt64) (events events' : List Event) :
    beats startMs (events ++ events') = beats startMs events ++ events'.filterMap Event.beat? := by
  rw [beats, List.filterMap_append]
  rfl

/-- The last heartbeat. -/
def lastBeat (startMs : UInt64) (events : List Event) : UInt64 :=
  (beats startMs events).getLast (List.cons_ne_nil _ _)

/-- A comparison finds the last heartbeat within the timeout. -/
def LastInTime (timeoutMs startMs : UInt64) (before : List Event) : Event → Prop
  | .compared nowMs => nowMs.toNat ≤ (lastBeat startMs before).toNat + timeoutMs.toNat
  | _ => True

/-- The switch has tripped, or the watchdog is about to trip it. -/
def Tasks.Trips (t : Tasks) : Prop := t.switch.tripped = true ∨ t.watchdog = .tripping

/-- A step leaves the timeout alone. -/
@[simp] lemma timeoutMs_step (t : Tasks) (a : Action) :
    (step t a).1.switch.timeoutMs = t.switch.timeoutMs := by
  cases a with
  | signalLoop nowMs =>
    simp only [step, signalLoopStep]
    split
    any_goals rfl
    split_ifs <;> rfl
  | watchdog nowMs =>
    simp only [step, watchdogStep]
    split
    any_goals rfl
    all_goals split_ifs <;> rfl
  | manualKill => rfl

/-- What the switch and the tasks have to do with the events and with the actions. -/
structure Kept (timeoutMs startMs : UInt64) (actions : List Action) (t : Tasks)
    (events : List Event) : Prop where
  timeout : t.switch.timeoutMs = timeoutMs
  last : t.switch.lastHeartbeatMs = lastBeat startMs events
  stamps : (beats startMs events ++ t.signalLoop.stamp?.toList).Sublist
    (startMs :: actions.filterMap Action.nowMs?)
  trips : t.Trips ↔ .manualKill ∈ actions ∨ ¬ Guarded (LastInTime timeoutMs startMs) events

variable {timeoutMs startMs : UInt64} {actions : List Action} {t : Tasks} {events : List Event}

/-- One more action does not disturb the readings. -/
lemma sublist_readings {l : List UInt64}
    (h : l.Sublist (startMs :: actions.filterMap Action.nowMs?)) (a : Action) :
    l.Sublist (startMs :: (actions ++ [a]).filterMap Action.nowMs?) := by
  rw [List.filterMap_append, ← List.cons_append]
  exact h.trans (List.sublist_append_left ..)

/-- A trip by hand and nothing else is one more reason. -/
lemma mem_append_action {a : Action} (ha : a ≠ .manualKill) :
    .manualKill ∈ actions ++ [a] ↔ .manualKill ∈ actions := by
  rw [List.mem_append, List.mem_singleton]
  exact or_iff_left ha.symm

lemma lastBeat_append_beat (startMs : UInt64) (events : List Event) (nowMs : UInt64) :
    lastBeat startMs (events ++ [.beat nowMs]) = nowMs := by
  simp only [lastBeat, beats_append]
  exact List.getLast_concat

/-- A step that stores no heartbeat and compares nothing. -/
lemma Kept.silent (h : Kept timeoutMs startMs actions t events) {a : Action} {t' : Tasks}
    {events' : List Event} (hswitch : t'.switch.timeoutMs = t.switch.timeoutMs ∧
      t'.switch.lastHeartbeatMs = t.switch.lastHeartbeatMs)
    (hstamp : t'.signalLoop.stamp? = t.signalLoop.stamp? ∨
      t.signalLoop.stamp? = none ∧ t'.signalLoop.stamp? = a.nowMs?)
    (htrips : t'.Trips ↔ t.Trips ∨ a = .manualKill)
    (hbeats : events'.filterMap Event.beat? = [])
    (hcompared : ∀ history, ∀ e ∈ events', LastInTime timeoutMs startMs history e) :
    Kept timeoutMs startMs (actions ++ [a]) t' (events ++ events') := by
  have hsame : beats startMs (events ++ events') = beats startMs events := by
    rw [beats_append, hbeats, List.append_nil]
  refine ⟨hswitch.1.trans h.timeout, ?_, ?_, ?_⟩
  · rw [hswitch.2, h.last]
    simp only [lastBeat, hsame]
  · rw [hsame]
    rcases hstamp with hstamp | ⟨hnone, hstamp⟩
    · rw [hstamp]
      exact sublist_readings h.stamps a
    · have hstamps := h.stamps
      rw [hnone, Option.toList_none, List.append_nil] at hstamps
      rw [hstamp, List.filterMap_append, ← List.cons_append]
      refine hstamps.append ?_
      cases a <;> exact List.Sublist.refl _
  · rw [htrips, h.trips, List.mem_append, List.mem_singleton, Guarded, Guarded,
      guardedFrom_append, and_iff_left (guardedFrom_of_forall hcompared _), eq_comm (a := a)]
    exact or_right_comm

/-- A step that leaves the switch and the watchdog alone. -/
lemma Kept.quiet (h : Kept timeoutMs startMs actions t events) {a : Action} {t' : Tasks}
    (hkill : a ≠ .manualKill) (hswitch : t'.switch = t.switch)
    (hstamp : t'.signalLoop.stamp? = t.signalLoop.stamp?)
    (hwatchdog : t'.watchdog = .tripping ↔ t.watchdog = .tripping) :
    Kept timeoutMs startMs (actions ++ [a]) t' (events ++ []) := by
  refine h.silent ⟨by rw [hswitch], by rw [hswitch]⟩ (Or.inl hstamp) ?_ rfl
    fun _ _ he => absurd he List.not_mem_nil
  rw [or_iff_left hkill, Tasks.Trips, Tasks.Trips, hswitch, hwatchdog]

/-- A step of the signal loop. -/
lemma Kept.signalLoop (h : Kept timeoutMs startMs actions t events) (nowMs : UInt64) :
    Kept timeoutMs startMs (actions ++ [.signalLoop nowMs]) (signalLoopStep t nowMs).1
      (events ++ (signalLoopStep t nowMs).2) := by
  have hkill : Action.signalLoop nowMs ≠ .manualKill := by simp
  obtain ⟨switch, signalLoop, watchdog⟩ := t
  unfold signalLoopStep
  cases signalLoop with
  | sleeping =>
    exact h.silent ⟨rfl, rfl⟩ (Or.inr ⟨rfl, rfl⟩) (or_iff_left hkill).symm rfl (by simp)
  | stamped stampMs =>
    refine ⟨h.timeout, (lastBeat_append_beat ..).symm, ?_, ?_⟩
    · rw [beats_append, List.append_assoc]
      exact sublist_readings h.stamps _
    · have hbeat : LastInTime timeoutMs startMs events (.beat stampMs) := trivial
      dsimp only
      rw [mem_append_action hkill, guarded_append_singleton, and_iff_left hbeat, ← h.trips]
      rfl
  | checking =>
    dsimp only
    split_ifs with htripped
    · exact h.quiet hkill rfl rfl Iff.rfl
    · exact h.silent ⟨rfl, rfl⟩ (Or.inl rfl) (or_iff_left hkill).symm rfl (by simp [LastInTime])
  | evaluating => exact h.quiet hkill rfl rfl Iff.rfl

/-- The comparison of the watchdog. -/
lemma Kept.compare (h : Kept timeoutMs startMs actions t events) {stampMs : UInt64}
    (hload : t.watchdog = .load stampMs) (nowMs : UInt64) :
    Kept timeoutMs startMs (actions ++ [.watchdog nowMs])
      { t with watchdog := if t.switch.timeoutMs < t.switch.elapsedSinceHeartbeatMs stampMs
                then .tripping else .sleeping }
      (events ++ [.compared stampMs]) := by
  have hkill : Action.watchdog nowMs ≠ .manualKill := by simp
  have hbeats : beats startMs (events ++ [.compared stampMs]) = beats startMs events := by
    rw [beats_append]
    exact List.append_nil _
  refine ⟨h.timeout, ?_, ?_, ?_⟩
  · simp only [lastBeat, hbeats]
    exact h.last
  · rw [hbeats]
    exact sublist_readings h.stamps _
  · have hin : LastInTime timeoutMs startMs events (.compared stampMs) ↔
        ¬ t.switch.timeoutMs < t.switch.elapsedSinceHeartbeatMs stampMs := by
      rw [timeout_lt_elapsed_iff, not_lt, h.timeout, h.last]
      rfl
    have htripped : t.switch.tripped = true ↔
        .manualKill ∈ actions ∨ ¬ Guarded (LastInTime timeoutMs startMs) events := by
      rw [← h.trips, Tasks.Trips, hload]
      simp
    rw [mem_append_action hkill, guarded_append_singleton, hin, Tasks.Trips]
    split_ifs with hexceeds <;> simp [hexceeds, htripped]

/-- A step of the watchdog. -/
lemma Kept.watchdog (h : Kept timeoutMs startMs actions t events) (nowMs : UInt64) :
    Kept timeoutMs startMs (actions ++ [.watchdog nowMs]) (watchdogStep t nowMs).1
      (events ++ (watchdogStep t nowMs).2) := by
  have hkill : Action.watchdog nowMs ≠ .manualKill := by simp
  obtain ⟨switch, signalLoop, watchdog⟩ := t
  unfold watchdogStep
  cases watchdog with
  | grace | sleeping | clock => exact h.quiet hkill rfl rfl (by simp)
  | returned => exact h.quiet hkill rfl rfl Iff.rfl
  | flag =>
    dsimp only
    split_ifs <;> exact h.quiet hkill rfl rfl (by simp)
  | load stampMs =>
    have hcompare := h.compare rfl nowMs
    dsimp only at hcompare ⊢
    split_ifs at hcompare ⊢ <;> exact hcompare
  | tripping =>
    exact h.silent ⟨rfl, rfl⟩ (Or.inl rfl) (by simp [Tasks.Trips, trip]) rfl (by simp [LastInTime])

/-- The run of the tasks keeps what the switch stands for. -/
lemma kept_run (gracePeriodSecs timeoutSecs startMs : UInt64) (actions : List Action) :
    Kept (timeoutSecs * 1000) startMs actions
      (runState step (start gracePeriodSecs timeoutSecs startMs) actions)
      (runTrace step (start gracePeriodSecs timeoutSecs startMs) actions) := by
  induction actions using List.reverseRecOn with
  | nil =>
    refine ⟨rfl, rfl, List.Sublist.refl _, ?_⟩
    simp [Tasks.Trips, start, new, Guarded, GuardedFrom]
  | append_singleton actions a ih =>
    rw [runState_append, runTrace_append, runState_cons, runState_nil, runTrace_cons, runTrace_nil,
      List.append_nil]
    cases a with
    | signalLoop nowMs => exact ih.signalLoop nowMs
    | watchdog nowMs => exact ih.watchdog nowMs
    | manualKill =>
      exact ih.silent ⟨rfl, rfl⟩ (Or.inl rfl) (by simp [Tasks.Trips, step, trip]) rfl
        (by simp [step, LastInTime])

/-! ## When the switch trips -/

/-- A comparison finds a heartbeat within the timeout. -/
def InTime (timeoutMs startMs : UInt64) (before : List Event) : Event → Prop
  | .compared nowMs =>
    ∃ beatMs ∈ beats startMs before, nowMs.toNat ≤ beatMs.toNat + timeoutMs.toNat
  | _ => True

instance (timeoutMs startMs : UInt64) (before : List Event) :
    DecidablePred (InTime timeoutMs startMs before)
  | .compared _ => List.decidableBEx _ _
  | .beat _ => .isTrue trivial
  | .evaluated => .isTrue trivial
  | .tripped => .isTrue trivial

/-- When the heartbeats do not go back, the last one is as good as any. -/
lemma lastInTime_iff (hbeats : (beats startMs events).Pairwise (· ≤ ·)) (e : Event) :
    LastInTime timeoutMs startMs events e ↔ InTime timeoutMs startMs events e := by
  cases e with
  | compared nowMs =>
    constructor
    · intro hlast
      exact ⟨_, List.getLast_mem (List.cons_ne_nil _ _), hlast⟩
    · rintro ⟨beatMs, hmem, hle⟩
      have hmax : beatMs ≤ lastBeat startMs events := hbeats.rel_getLast hmem
      exact hle.trans (Nat.add_le_add_right (UInt64.le_iff_toNat_le.mp hmax) _)
  | _ => exact Iff.rfl

lemma guarded_lastInTime_iff (hbeats : (beats startMs events).Pairwise (· ≤ ·)) :
    Guarded (LastInTime timeoutMs startMs) events ↔ Guarded (InTime timeoutMs startMs) events := by
  apply guarded_congr
  induction events using List.reverseRecOn with
  | nil => trivial
  | append_singleton events e ih =>
    rw [beats_append] at hbeats
    have hbegins := hbeats.sublist (List.sublist_append_left ..)
    exact guarded_append_singleton.mpr ⟨ih hbegins, lastInTime_iff hbegins e⟩

/-- On a clock that does not go back, the switch trips exactly when it is tripped by hand, or when
the watchdog makes a comparison that finds no heartbeat within the timeout. -/
theorem tripped_iff (gracePeriodSecs timeoutSecs startMs : UInt64) (actions : List Action)
    (hclock : (startMs :: actions.filterMap Action.nowMs?).Pairwise (· ≤ ·)) :
    (runState step (start gracePeriodSecs timeoutSecs startMs) actions).Trips ↔
      .manualKill ∈ actions ∨ ¬ Guarded (InTime (timeoutSecs * 1000) startMs)
        (runTrace step (start gracePeriodSecs timeoutSecs startMs) actions) := by
  have hkept := kept_run gracePeriodSecs timeoutSecs startMs actions
  have hbeats := hclock.sublist ((List.sublist_append_left ..).trans hkept.stamps)
  rw [hkept.trips, guarded_lastInTime_iff hbeats]

/-- The switch trips when the watchdog finds the heartbeat of its start two minutes old. -/
theorem tripped_iff_two_minutes :
    (runState step (start 30 90 0) [.watchdog 30000, .watchdog 31000, .watchdog 31000,
      .watchdog 120000, .watchdog 120000]).Trips := by
  refine (tripped_iff 30 90 0 _ ?_).mpr (Or.inr ?_)
  · decide
  · decide

/-! ## Silence -/

/-- The accesses after which the watchdog has tripped the switch when no heartbeat comes. -/
def Watchdog.remaining (lastMs timeoutMs : UInt64) : Watchdog → ℕ
  | .grace => 6
  | .sleeping => 5
  | .flag => 4
  | .clock => 3
  | .load stampMs => if lastMs.toNat + timeoutMs.toNat < stampMs.toNat then 2 else 6
  | .tripping => 1
  | .returned => 0

lemma Watchdog.remaining_le (lastMs timeoutMs : UInt64) (w : Watchdog) :
    w.remaining lastMs timeoutMs ≤ 6 := by
  cases w with
  | load stampMs =>
    simp only [Watchdog.remaining]
    split_ifs <;> decide
  | _ => exact Nat.le_of_ble_eq_true rfl

def Action.isWatchdog : Action → Bool
  | .watchdog _ => true
  | _ => false

/-- A switch that has tripped stays so. -/
lemma tripped_step {t : Tasks} (h : t.switch.tripped = true) (a : Action) :
    (step t a).1.switch.tripped = true := by
  cases a with
  | signalLoop nowMs =>
    simp only [step, signalLoopStep]
    split
    any_goals exact h
    split_ifs <;> exact h
  | watchdog nowMs =>
    simp only [step, watchdogStep]
    split
    any_goals exact h
    any_goals split_ifs <;> exact h
    rfl
  | manualKill => rfl

lemma tripped_runState {t : Tasks} (h : t.switch.tripped = true) (actions : List Action) :
    (runState step t actions).switch.tripped = true :=
  runState_induction (I := fun t : Tasks => t.switch.tripped = true) (C := fun _ => True)
    (fun _ a ht _ => tripped_step ht a) h fun _ _ => trivial

/-- A watchdog that has returned has found the switch tripped or has tripped it. -/
def Tasks.Returned (t : Tasks) : Prop := t.watchdog = .returned → t.switch.tripped = true

lemma Tasks.Returned.step {t : Tasks} (h : t.Returned) (a : Action) : (step t a).1.Returned := by
  intro hreturned
  by_cases htripped : t.switch.tripped = true
  · exact tripped_step htripped a
  · cases a with
    | signalLoop nowMs =>
      refine absurd (h ?_) htripped
      simp only [DeadMansSwitch.step, signalLoopStep] at hreturned
      split at hreturned
      any_goals exact hreturned
      split_ifs at hreturned <;> exact hreturned
    | watchdog nowMs =>
      simp only [DeadMansSwitch.step, watchdogStep, isTripped] at hreturned ⊢
      split at hreturned
      any_goals cases hreturned
      · simp [htripped] at hreturned
      · split_ifs at hreturned
      · rfl
      · next hwatchdog => exact absurd (h hwatchdog) htripped
    | manualKill => rfl

/-- A step of the signal loop without a heartbeat is not seen by the watchdog. -/
lemma signalLoopStep_unseen {t : Tasks} {nowMs : UInt64}
    (hquiet : ∀ beatMs, .beat beatMs ∉ (signalLoopStep t nowMs).2) :
    (signalLoopStep t nowMs).1.switch = t.switch ∧
      (signalLoopStep t nowMs).1.watchdog = t.watchdog := by
  obtain ⟨switch, signalLoop, watchdog⟩ := t
  cases signalLoop with
  | stamped stampMs => exact absurd List.mem_cons_self (hquiet stampMs)
  | sleeping | evaluating => exact ⟨rfl, rfl⟩
  | checking =>
    simp only [signalLoopStep]
    split_ifs <;> exact ⟨rfl, rfl⟩

/-- A step of the watchdog brings it nearer to the trip. -/
lemma remaining_watchdogStep {t : Tasks} {nowMs : UInt64} (h : t.switch.tripped = false)
    (hreturned : t.Returned)
    (hlate : t.switch.lastHeartbeatMs.toNat + t.switch.timeoutMs.toNat < nowMs.toNat) :
    (watchdogStep t nowMs).1.switch.tripped = true ∨
      (watchdogStep t nowMs).1.switch = t.switch ∧
        (watchdogStep t nowMs).1.watchdog.remaining t.switch.lastHeartbeatMs t.switch.timeoutMs <
          t.watchdog.remaining t.switch.lastHeartbeatMs t.switch.timeoutMs := by
  obtain ⟨switch, signalLoop, watchdog⟩ := t
  cases watchdog with
  | grace | sleeping => exact Or.inr ⟨rfl, Nat.lt_succ_self _⟩
  | flag =>
    have hflag : switch.tripped = false := h
    refine Or.inr ?_
    simp only [watchdogStep, isTripped, hflag]
    exact ⟨rfl, Nat.lt_succ_self _⟩
  | clock =>
    refine Or.inr ⟨rfl, ?_⟩
    simp only [watchdogStep, Watchdog.remaining, if_pos hlate]
    decide
  | load stampMs =>
    refine Or.inr ?_
    simp only [watchdogStep, timeout_lt_elapsed_iff, Watchdog.remaining]
    split_ifs <;> simp
  | tripping => exact Or.inl rfl
  | returned => exact absurd (h.symm.trans (hreturned rfl)) Bool.false_ne_true

/-- Without a heartbeat, the watchdog trips the switch. -/
lemma tripped_of_quiet {silence : List Action} : ∀ {t : Tasks}, t.Returned →
    (∀ beatMs, .beat beatMs ∉ runTrace step t silence) →
    (∀ nowMs, .watchdog nowMs ∈ silence →
      t.switch.lastHeartbeatMs.toNat + t.switch.timeoutMs.toNat < nowMs.toNat) →
    t.watchdog.remaining t.switch.lastHeartbeatMs t.switch.timeoutMs ≤
      silence.countP Action.isWatchdog →
    (runState step t silence).switch.tripped = true := by
  induction silence with
  | nil =>
    intro t hreturned _ _ hcount
    obtain ⟨switch, signalLoop, watchdog⟩ := t
    cases watchdog with
    | returned => exact hreturned rfl
    | load stampMs =>
      simp only [Watchdog.remaining] at hcount
      split_ifs at hcount <;> exact absurd hcount (by decide)
    | _ => exact absurd hcount (by simp [Watchdog.remaining])
  | cons a silence ih =>
    intro t hreturned hquiet hlate hcount
    cases htripped : t.switch.tripped with
    | true => exact tripped_runState htripped _
    | false =>
      have hquiet' : ∀ beatMs, .beat beatMs ∉ (step t a).2 ∧
          .beat beatMs ∉ runTrace step (step t a).1 silence := by
        intro beatMs
        have hboth := hquiet beatMs
        rw [runTrace_cons, List.mem_append, not_or] at hboth
        exact hboth
      have hlate' : ∀ nowMs, .watchdog nowMs ∈ silence →
          t.switch.lastHeartbeatMs.toNat + t.switch.timeoutMs.toNat < nowMs.toNat :=
        fun nowMs hmem => hlate nowMs (List.mem_cons_of_mem _ hmem)
      have hgo := ih (hreturned.step a) fun beatMs => (hquiet' beatMs).2
      rw [runState_cons]
      cases a with
      | signalLoop nowMs =>
        obtain ⟨hswitch, hwatchdog⟩ := signalLoopStep_unseen fun beatMs => (hquiet' beatMs).1
        apply hgo
        · rw [step, hswitch]
          exact hlate'
        · rw [step, hswitch, hwatchdog]
          simpa [Action.isWatchdog] using hcount
      | watchdog nowMs =>
        rcases remaining_watchdogStep htripped hreturned (hlate nowMs List.mem_cons_self) with
          hdone | ⟨hswitch, hless⟩
        · exact tripped_runState hdone _
        · rw [List.countP_cons_of_pos rfl] at hcount
          apply hgo
          · rw [step, hswitch]
            exact hlate'
          · rw [step, hswitch]
            omega
      | manualKill => exact tripped_runState rfl _

/-- No tick is evaluated once the switch has tripped. -/
lemma evaluated_notMem {t : Tasks} (h : t.switch.tripped = true) (actions : List Action) :
    .evaluated ∉ runTrace step t actions := by
  intro hmem
  obtain ⟨before, a, after, -, hevent⟩ := mem_runTrace_iff.mp hmem
  have htripped := tripped_runState h before
  revert hevent htripped
  generalize runState step t before = t'
  intro hevent htripped
  cases a with
  | signalLoop nowMs =>
    simp only [step, signalLoopStep, isTripped, htripped] at hevent
    split at hevent <;> simp at hevent
  | watchdog nowMs =>
    simp only [step, watchdogStep] at hevent
    split at hevent
    any_goals split_ifs at hevent
    all_goals simp at hevent
  | manualKill => simp [step] at hevent

lemma returned_run (gracePeriodSecs timeoutSecs startMs : UInt64) (actions : List Action) :
    (runState step (start gracePeriodSecs timeoutSecs startMs) actions).Returned :=
  runState_induction (C := fun _ => True) (fun _ a h _ => h.step a)
    (fun hreturned => by cases hreturned) fun _ _ => trivial

/-- When the signal loop stores no heartbeat any more, and the clock of the watchdog is past the
timeout, the switch has tripped after six accesses of the watchdog, whatever it was doing and
whatever comes between them, and no tick is evaluated after that. -/
theorem silence_trips (gracePeriodSecs timeoutSecs startMs : UInt64)
    (actions silence rest : List Action)
    (hquiet : ∀ beatMs, .beat beatMs ∉ runTrace step
      (runState step (start gracePeriodSecs timeoutSecs startMs) actions) silence)
    (hlate : ∀ nowMs, .watchdog nowMs ∈ silence →
      (runState step (start gracePeriodSecs timeoutSecs startMs)
        actions).switch.lastHeartbeatMs.toNat + (timeoutSecs * 1000).toNat < nowMs.toNat)
    (hcount : 6 ≤ silence.countP Action.isWatchdog) :
    (runState step (start gracePeriodSecs timeoutSecs startMs)
        (actions ++ silence)).switch.isTripped = true ∧
      .evaluated ∉ runTrace step
        (runState step (start gracePeriodSecs timeoutSecs startMs) (actions ++ silence)) rest := by
  have htimeout := (kept_run gracePeriodSecs timeoutSecs startMs actions).timeout
  have htripped := tripped_of_quiet (returned_run gracePeriodSecs timeoutSecs startMs actions)
    hquiet (by rwa [htimeout]) ((Watchdog.remaining_le ..).trans hcount)
  rw [← runState_append] at htripped
  exact ⟨htripped, evaluated_notMem htripped rest⟩

/-- The loop has stopped in the evaluation of its first tick. -/
theorem silence_trips_first_tick :
    .evaluated ∉ runTrace step (runState step (start 30 90 0)
      ([.signalLoop 100, .signalLoop 100, .signalLoop 100] ++
        [.watchdog 130000, .watchdog 131000, .watchdog 131000, .watchdog 131000, .watchdog 131000,
          .watchdog 131000])) [.signalLoop 200000, .signalLoop 200100, .signalLoop 200100] := by
  refine (silence_trips 30 90 0 _ _ _ ?_ ?_ ?_).2
  · intro beatMs hmem
    cases hmem with
    | tail _ hmem => cases hmem with
      | tail _ hmem => cases hmem
  · intro nowMs hmem
    simp only [List.mem_cons, Action.watchdog.injEq, List.not_mem_nil, or_false] at hmem
    rcases hmem with rfl | rfl | rfl | rfl | rfl | rfl <;> decide
  · decide

end DeadMansSwitch

end HftArb
