import Mathlib.Data.Finset.Basic
import HftArb.Decimal
import HftArb.Foundations.Interleaving

/-!
# Detecting the starvation of an exchange

`check_balance` compares a balance with a threshold.  A balance that does not exceed it puts the
exchange into the set of the starved ones, becomes the last event, and calls the callback if the
exchange was not starved before: three accesses, under two locks and none.  `clear_starvation` takes
an exchange out again, and drops the last event when no exchange is left.

In every interleaving of these calls the callback is called as often as an exchange becomes starved,
and an exchange is starved when it has been found so and not been cleared since
(`callbacks_on_transitions`).  The factor that `suggested_resize_factor` derives from the last event
lies between a tenth and a fifth, and there is one whenever some exchange is starved and no check is
under way (`resize_factor_between`).
-/

namespace HftArb

namespace StarvationDetector

open Runs Interleaving

/-- A balance that was found too low. -/
structure StarvationEvent where
  exchangeId : ℕ
  tokenId : ℕ
  currentBalance : Decimal
  minThreshold : Decimal
  deriving DecidableEq

/-- What the calls share: the starved exchanges and the last event. -/
structure Detector where
  starvedExchanges : Finset ℕ
  lastEvent : Option StarvationEvent

/-- The calls. -/
inductive Call
  | checkBalance (exchangeId tokenId : ℕ) (currentBalance : Decimal)
  | clearStarvation (exchangeId : ℕ) (verifiedBalance : Decimal)
  | isStarved
  | suggestedResizeFactor

/-- What a call does next. -/
inductive Op
  | insert (event : StarvationEvent)
  | store (event : StarvationEvent) (wasStarved : Bool)
  | callback (event : StarvationEvent) (wasStarved : Bool)
  | remove (exchangeId : ℕ)
  | readStarved
  | readFactor

/-- What happens. -/
inductive Event
  | inserted (exchangeId : ℕ) (wasStarved : Bool)
  | stored (event : StarvationEvent)
  | called (exchangeId : ℕ)
  | removed (exchangeId : ℕ) (noneLeft : Bool)
  | checked (result : Option StarvationEvent)
  | cleared (result : Bool)
  | starved (result : Bool)
  | suggested (factor : Option Decimal)

section Model

variable (minThreshold : Decimal)

/-- The factor for an event. -/
def resizeFactor (event : StarvationEvent) : Decimal :=
  if event.currentBalance ≤ 0 then 1 / 10
  else
    let target := minThreshold * 5
    if target ≤ 0 then 1
    else min (max (event.currentBalance / target) (1 / 10)) 1

/-- What a call does before its first access: the comparison with the threshold. -/
def enter : Call → Option Op × List Event
  | .checkBalance exchangeId tokenId currentBalance =>
    if currentBalance ≤ minThreshold then
      (some (.insert ⟨exchangeId, tokenId, currentBalance, minThreshold⟩), [])
    else (none, [.checked none])
  | .clearStarvation exchangeId verifiedBalance =>
    if verifiedBalance ≤ minThreshold then (none, [.cleared false])
    else (some (.remove exchangeId), [])
  | .isStarved => (some .readStarved, [])
  | .suggestedResizeFactor => (some .readFactor, [])

/-- One access.  The lock of the starved exchanges is held while `clear_starvation` drops the last
event. -/
def access (d : Detector) (_ : Unit) : Op → Outcome Detector Op Event
  | .insert event =>
    let wasStarved := decide (event.exchangeId ∈ d.starvedExchanges)
    ⟨{ d with starvedExchanges := insert event.exchangeId d.starvedExchanges },
      some (.store event wasStarved), [.inserted event.exchangeId wasStarved]⟩
  | .store event wasStarved =>
    ⟨{ d with lastEvent := some event }, some (.callback event wasStarved), [.stored event]⟩
  | .callback event wasStarved =>
    ⟨d, none, if wasStarved then [.checked (some event)]
      else [.called event.exchangeId, .checked (some event)]⟩
  | .remove exchangeId =>
    let starved := d.starvedExchanges.erase exchangeId
    let noneLeft := decide (starved = ∅)
    ⟨⟨starved, if noneLeft then none else d.lastEvent⟩, none,
      [.removed exchangeId noneLeft, .cleared true]⟩
  | .readStarved => ⟨d, none, [.starved (decide (d.starvedExchanges ≠ ∅))]⟩
  | .readFactor => ⟨d, none, [.suggested (d.lastEvent.map (resizeFactor minThreshold))]⟩

/-- The calls on one detector. -/
def detectorSystem : System Detector Call Op Unit Event where
  enter := enter minThreshold
  access := access minThreshold

/-- A new detector. -/
def start : State Detector Op := ⟨⟨∅, none⟩, []⟩

/-- Whether an exchange is starved after an event. -/
def Event.starvedAfter (exchangeId : ℕ) (before : Bool) : Event → Bool
  | .inserted other _ => before || decide (other = exchangeId)
  | .removed other _ => before && decide (other ≠ exchangeId)
  | _ => before

/-- An exchange has been found starved and has not been cleared since. -/
def starvedIn (exchangeId : ℕ) (tr : List Event) : Bool :=
  tr.foldl (Event.starvedAfter exchangeId) false

/-- The last event after some event. -/
def Event.lastAfter (before : Option StarvationEvent) : Event → Option StarvationEvent
  | .stored event => some event
  | .removed _ noneLeft => if noneLeft then none else before
  | _ => before

/-- The last event stored, if no exchange has been the last one to be cleared since. -/
def lastIn (tr : List Event) : Option StarvationEvent := tr.foldl Event.lastAfter none

/-- What an event shows of the events before it. -/
def Shown (history : List Event) : Event → Prop
  | .inserted exchangeId wasStarved => wasStarved = starvedIn exchangeId history
  | .removed exchangeId noneLeft =>
    noneLeft = true ↔ ∀ other, other ≠ exchangeId → starvedIn other history = false
  | .starved result => result = true ↔ ∃ exchangeId, starvedIn exchangeId history = true
  | .suggested factor => factor = (lastIn history).map (resizeFactor minThreshold)
  | _ => True

/-- An exchange becomes starved. -/
def Event.becomesStarved (exchangeId : ℕ) : Event → Bool
  | .inserted other wasStarved => decide (other = exchangeId) && !wasStarved
  | _ => false

/-- The callback is called for an exchange. -/
def Event.isCalled (exchangeId : ℕ) : Event → Bool
  | .called other => decide (other = exchangeId)
  | _ => false

/-- A call that has yet to call the callback for an exchange. -/
def Op.owesCallback (exchangeId : ℕ) : Op → Bool
  | .store event wasStarved => decide (event.exchangeId = exchangeId) && !wasStarved
  | .callback event wasStarved => decide (event.exchangeId = exchangeId) && !wasStarved
  | _ => false

/-- A call that has yet to store its event. -/
def Op.stores : Op → Bool
  | .store .. => true
  | _ => false

/-- The detector and the events so far. -/
structure Sound (d : Detector) (tr : List Event) : Prop where
  starved : ∀ exchangeId, exchangeId ∈ d.starvedExchanges ↔ starvedIn exchangeId tr = true
  last : d.lastEvent = lastIn tr
  low : ∀ event ∈ d.lastEvent, event.currentBalance ≤ minThreshold
  shown : Guarded (Shown minThreshold) tr

/-- The event of a check is about a balance that is too low. -/
def OpSound (_ : List Event) : Op → Prop
  | .insert event => event.currentBalance ≤ minThreshold
  | .store event _ => event.currentBalance ≤ minThreshold
  | _ => True

variable {minThreshold} {d : Detector} {tr : List Event}

lemma starvedIn_append_singleton (exchangeId : ℕ) (tr : List Event) (e : Event) :
    starvedIn exchangeId (tr ++ [e]) = e.starvedAfter exchangeId (starvedIn exchangeId tr) := by
  rw [starvedIn, List.foldl_append]
  rfl

lemma lastIn_append_singleton (tr : List Event) (e : Event) :
    lastIn (tr ++ [e]) = e.lastAfter (lastIn tr) := by
  rw [lastIn, List.foldl_append]
  rfl

/-- An event that changes neither the starved exchanges nor the last event. -/
lemma Sound.inert (h : Sound minThreshold d tr) {e : Event}
    (hstarved : ∀ exchangeId, starvedIn exchangeId (tr ++ [e]) = starvedIn exchangeId tr)
    (hlast : lastIn (tr ++ [e]) = lastIn tr) (hshown : Shown minThreshold tr e) :
    Sound minThreshold d (tr ++ [e]) where
  starved exchangeId := by rw [hstarved, h.starved]
  last := h.last.trans hlast.symm
  low := h.low
  shown := guarded_append_singleton.mpr ⟨h.shown, hshown⟩

/-- An exchange is found starved. -/
lemma Sound.insert (h : Sound minThreshold d tr) (exchangeId : ℕ) :
    Sound minThreshold { d with starvedExchanges := insert exchangeId d.starvedExchanges }
      (tr ++ [.inserted exchangeId (decide (exchangeId ∈ d.starvedExchanges))]) where
  starved other := by
    rw [starvedIn_append_singleton, Event.starvedAfter, Finset.mem_insert, h.starved,
      Bool.or_eq_true, decide_eq_true_eq, or_comm, @eq_comm ℕ other]
  last := by
    rw [lastIn_append_singleton]
    exact h.last
  low := h.low
  shown := by
    refine guarded_append_singleton.mpr ⟨h.shown, ?_⟩
    rw [Shown, ← Bool.coe_iff_coe, decide_eq_true_eq, h.starved]

/-- A low balance becomes the last event. -/
lemma Sound.store (h : Sound minThreshold d tr) {event : StarvationEvent}
    (hlow : event.currentBalance ≤ minThreshold) :
    Sound minThreshold { d with lastEvent := some event } (tr ++ [.stored event]) where
  starved other := by
    rw [starvedIn_append_singleton]
    exact h.starved other
  last := by
    rw [lastIn_append_singleton]
    rfl
  low := by
    rintro _ ⟨⟩
    exact hlow
  shown := guarded_append_singleton.mpr ⟨h.shown, trivial⟩

/-- An exchange is cleared. -/
lemma Sound.remove (h : Sound minThreshold d tr) (exchangeId : ℕ) :
    Sound minThreshold
      ⟨d.starvedExchanges.erase exchangeId,
        if decide (d.starvedExchanges.erase exchangeId = ∅) then none else d.lastEvent⟩
      (tr ++ [.removed exchangeId (decide (d.starvedExchanges.erase exchangeId = ∅))]) where
  starved other := by
    rw [starvedIn_append_singleton, Event.starvedAfter, Finset.mem_erase, h.starved,
      Bool.and_eq_true, decide_eq_true_eq, and_comm, ne_comm]
  last := by
    rw [lastIn_append_singleton, Event.lastAfter, h.last]
  low := by
    intro event hevent
    split_ifs at hevent
    · cases hevent
    · exact h.low event hevent
  shown := by
    refine guarded_append_singleton.mpr ⟨h.shown, ?_⟩
    rw [Shown, decide_eq_true_eq, Finset.eq_empty_iff_forall_notMem]
    refine forall_congr' fun other => ?_
    rw [Finset.mem_erase, h.starved, not_and, Bool.not_eq_true]

/-- What one access keeps. -/
lemma sound_access (h : Sound minThreshold d tr) {op : Op} (hop : OpSound minThreshold tr op)
    (choice : Unit) :
    Sound minThreshold (access minThreshold d choice op).shared
        (tr ++ (access minThreshold d choice op).events) ∧
      ∀ o ∈ (access minThreshold d choice op).remaining,
        OpSound minThreshold (tr ++ (access minThreshold d choice op).events) o := by
  cases op with
  | insert event =>
    refine ⟨h.insert event.exchangeId, ?_⟩
    rintro _ ⟨⟩
    exact hop
  | store event wasStarved =>
    refine ⟨h.store hop, ?_⟩
    rintro _ ⟨⟩
    trivial
  | callback event wasStarved =>
    refine ⟨?_, fun _ ho => by cases ho⟩
    cases wasStarved with
    | true =>
      exact h.inert (fun _ => starvedIn_append_singleton ..) (lastIn_append_singleton ..) trivial
    | false =>
      have hcalled := h.inert (e := .called event.exchangeId)
        (fun _ => starvedIn_append_singleton ..) (lastIn_append_singleton ..) trivial
      have hchecked := hcalled.inert (e := .checked (some event))
        (fun _ => starvedIn_append_singleton ..) (lastIn_append_singleton ..) trivial
      rwa [List.append_assoc] at hchecked
  | remove exchangeId =>
    refine ⟨?_, fun _ ho => by cases ho⟩
    have hcleared := (h.remove exchangeId).inert (e := .cleared true)
      (fun _ => starvedIn_append_singleton ..) (lastIn_append_singleton ..) trivial
    rwa [List.append_assoc] at hcleared
  | readStarved =>
    refine ⟨h.inert (fun _ => starvedIn_append_singleton ..) (lastIn_append_singleton ..) ?_,
      fun _ ho => by cases ho⟩
    rw [Shown, decide_eq_true_eq, ← Finset.nonempty_iff_ne_empty]
    exact exists_congr h.starved
  | readFactor =>
    refine ⟨h.inert (fun _ => starvedIn_append_singleton ..) (lastIn_append_singleton ..) ?_,
      fun _ ho => by cases ho⟩
    rw [Shown, h.last]

/-- What the detector and the calls are after every run. -/
lemma sound_run (minThreshold : Decimal) (actions : List (Action Call Unit)) :
    SoundAt (Sound minThreshold) (OpSound minThreshold)
      (runState (step (detectorSystem minThreshold)) start actions)
      (runTrace (step (detectorSystem minThreshold)) start actions) := by
  refine run_sound ?_ ?_ ?_ ?_ actions
  · intro _ _ op hop
    cases op <;> exact hop
  · intro d tr call hd
    cases call with
    | checkBalance exchangeId tokenId currentBalance =>
      simp only [detectorSystem, enter]
      split_ifs with hlow
      · refine ⟨by simpa using hd, ?_⟩
        rintro _ ⟨⟩
        exact hlow
      · exact ⟨hd.inert (fun _ => starvedIn_append_singleton ..) (lastIn_append_singleton ..)
          trivial, fun _ ho => by cases ho⟩
    | clearStarvation exchangeId verifiedBalance =>
      simp only [detectorSystem, enter]
      split_ifs with hlow
      · exact ⟨hd.inert (fun _ => starvedIn_append_singleton ..) (lastIn_append_singleton ..)
          trivial, fun _ ho => by cases ho⟩
      · refine ⟨by simpa using hd, ?_⟩
        rintro _ ⟨⟩
        trivial
    | isStarved =>
      refine ⟨by simpa [detectorSystem, enter] using hd, ?_⟩
      rintro _ ⟨⟩
      trivial
    | suggestedResizeFactor =>
      refine ⟨by simpa [detectorSystem, enter] using hd, ?_⟩
      rintro _ ⟨⟩
      trivial
  · intro d tr op choice hd hop
    exact sound_access hd hop choice
  · refine ⟨⟨fun exchangeId => ?_, rfl, ?_, trivial⟩, ?_⟩
    · simp [start, starvedIn]
    · rintro _ ⟨⟩
    · rintro _ ⟨⟩

/-- An access that finds an exchange newly starved owes the callback, which the last one pays. -/
lemma access_callbacks (exchangeId : ℕ) (d : Detector) (choice : Unit) (op : Op) :
    (access minThreshold d choice op).events.countP (Event.becomesStarved exchangeId) +
        [op].countP (Op.owesCallback exchangeId) =
      (access minThreshold d choice op).events.countP (Event.isCalled exchangeId) +
        (access minThreshold d choice op).remaining.toList.countP
          (Op.owesCallback exchangeId) := by
  cases op with
  | insert event =>
    simp [access, Event.becomesStarved, Event.isCalled, Op.owesCallback, List.countP_cons]
  | store event wasStarved =>
    simp [access, Event.becomesStarved, Event.isCalled, Op.owesCallback, List.countP_cons]
  | callback event wasStarved =>
    cases wasStarved <;>
      simp [access, Event.becomesStarved, Event.isCalled, Op.owesCallback, List.countP_cons]
  | remove other => rfl
  | readStarved => rfl
  | readFactor => rfl

/-- In every interleaving an exchange is starved when it has been found so and not been cleared
since, and the callback is called once for each time that it becomes starved. -/
theorem callbacks_on_transitions (minThreshold : Decimal) (actions : List (Action Call Unit)) :
    Guarded (Shown minThreshold) (runTrace (step (detectorSystem minThreshold)) start actions) ∧
      ∀ exchangeId, Balanced (Event.becomesStarved exchangeId) (Event.isCalled exchangeId)
        (Op.owesCallback exchangeId)
        (runState (step (detectorSystem minThreshold)) start actions)
        (runTrace (step (detectorSystem minThreshold)) start actions) := by
  refine ⟨(sound_run minThreshold actions).1.shown, fun exchangeId => ?_⟩
  refine run_balanced (fun call => ?_) (fun d choice op => access_callbacks exchangeId d choice op)
    rfl actions
  cases call with
  | checkBalance other tokenId currentBalance =>
    simp only [detectorSystem, enter]
    split_ifs <;> rfl
  | clearStarvation other verifiedBalance =>
    simp only [detectorSystem, enter]
    split_ifs <;> rfl
  | isStarved => rfl
  | suggestedResizeFactor => rfl

/-- The factor for a balance that does not exceed the threshold. -/
lemma resizeFactor_between {event : StarvationEvent} (h : event.currentBalance ≤ minThreshold) :
    1 / 10 ≤ resizeFactor minThreshold event ∧ resizeFactor minThreshold event ≤ 1 / 5 := by
  rw [resizeFactor]
  by_cases hzero : event.currentBalance ≤ 0
  · rw [if_pos hzero]
    norm_num
  · rw [if_neg hzero]
    have htarget : 0 < minThreshold * 5 := by linarith
    have hfifth : event.currentBalance / (minThreshold * 5) ≤ 1 / 5 := by
      rw [div_le_iff₀ htarget]
      linarith
    dsimp only
    rw [if_neg (not_le.mpr htarget)]
    exact ⟨le_min (le_max_right ..) (by norm_num),
      (min_le_left ..).trans (max_le hfifth (by norm_num))⟩

/-- When some exchange is starved there is a last event, or a check is about to store one. -/
def Covered (s : State Detector Op) : Prop :=
  s.shared.starvedExchanges ≠ ∅ → s.shared.lastEvent = none → ∃ op ∈ s.inFlight, op.stores = true

/-- What one step keeps. -/
lemma Covered.step {s : State Detector Op} (h : Covered s) (a : Action Call Unit) :
    Covered (step (detectorSystem minThreshold) s a).1 := by
  rcases step_cases (detectorSystem minThreshold) s a with ⟨call, rfl, hstate, -⟩ | ⟨-, hstep⟩ |
    ⟨position, choice, op, others, rfl, -, hbefore, hshared, hafter, -⟩
  · rw [hstate]
    intro hstarved hlast
    obtain ⟨op, hop, hstores⟩ := h hstarved hlast
    exact ⟨op, List.mem_append_left _ hop, hstores⟩
  · rw [hstep]
    exact h
  · -- an access that stores nothing leaves the call that is about to store one
    have hothers : op.stores = false → (∃ o ∈ s.inFlight, o.stores = true) →
        ∃ o ∈ (Interleaving.step (detectorSystem minThreshold) s
          (.access position choice)).1.inFlight, o.stores = true := by
      rintro hop ⟨o, ho, hstores⟩
      rcases List.mem_cons.mp (hbefore.mem_iff.mp ho) with rfl | ho
      · rw [hop] at hstores
        cases hstores
      · exact ⟨o, hafter.mem_iff.mpr (List.mem_append_right _ ho), hstores⟩
    intro hstarved hlast
    rw [hshared] at hstarved hlast
    cases op with
    | insert event =>
      exact ⟨_, hafter.mem_iff.mpr (List.mem_append_left _ (Option.mem_toList.mpr rfl)), rfl⟩
    | store event wasStarved => cases hlast
    | callback event wasStarved => exact hothers rfl (h hstarved hlast)
    | remove exchangeId =>
      simp only [detectorSystem, access] at hstarved hlast
      rw [if_neg (by simpa using hstarved)] at hlast
      refine hothers rfl (h (fun hempty => hstarved ?_) hlast)
      rw [hempty]
      rfl
    | readStarved => exact hothers rfl (h hstarved hlast)
    | readFactor => exact hothers rfl (h hstarved hlast)

/-- A factor is suggested for a balance that does not exceed the threshold. -/
lemma suggested_between {s : State Detector Op} (h : Sound minThreshold s.shared tr)
    {a : Action Call Unit} {factor : Decimal}
    (hfactor : .suggested (some factor) ∈ (step (detectorSystem minThreshold) s a).2) :
    1 / 10 ≤ factor ∧ factor ≤ 1 / 5 := by
  rcases step_cases (detectorSystem minThreshold) s a with ⟨call, rfl, -, hevents⟩ | ⟨-, hstep⟩ |
    ⟨position, choice, op, others, rfl, -, -, -, -, hevents⟩
  · rw [hevents] at hfactor
    cases call <;> simp only [detectorSystem, enter] at hfactor <;> try split_ifs at hfactor
    all_goals simp at hfactor
  · rw [hstep] at hfactor
    cases hfactor
  · rw [hevents] at hfactor
    cases op with
    | readFactor =>
      have hlast : some factor = s.shared.lastEvent.map (resizeFactor minThreshold) := by
        simpa [detectorSystem, access] using hfactor
      obtain ⟨event, hevent, rfl⟩ := Option.map_eq_some_iff.mp hlast.symm
      exact resizeFactor_between (h.low event hevent)
    | callback event wasStarved => cases wasStarved <;> simp [detectorSystem, access] at hfactor
    | _ => simp [detectorSystem, access] at hfactor

/-- In every interleaving the factor suggested lies between a tenth and a fifth, and there is one
when some exchange is starved and no check is about to store its event. -/
theorem resize_factor_between (minThreshold : Decimal) (actions : List (Action Call Unit)) :
    (∀ factor, .suggested (some factor) ∈
        runTrace (step (detectorSystem minThreshold)) start actions →
      1 / 10 ≤ factor ∧ factor ≤ 1 / 5) ∧
    Covered (runState (step (detectorSystem minThreshold)) start actions) := by
  constructor
  · intro factor hfactor
    obtain ⟨before, a, after, rfl, hevent⟩ := mem_runTrace_iff.mp hfactor
    exact suggested_between (sound_run minThreshold before).1 hevent
  · refine runState_induction (C := fun _ => True) (fun _ a h _ => h.step a) ?_ fun _ _ => trivial
    intro hstarved
    exact absurd rfl hstarved

end Model

end StarvationDetector

end HftArb
