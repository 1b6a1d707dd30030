import Mathlib.Data.List.Perm.Basic
import HftArb.Foundations.Runs

/-!
# Interleavings of calls on a shared state

Several tasks work on one shared state.  A call is begun and then makes one indivisible access to
the state after the other, and between two accesses of a call any other call may be begun or make an
access.  `System` says what a call does first and what an access does: it leaves a state, what
remains of the call, and events.

`step_cases` is the one place that looks at a step.  It says which calls are under way afterwards up
to their order, so that properties of every call under way (`forall_inFlight_access`) and sums over
them (`sum_inFlight_access`) follow from the effect of one access on one call.  For whole runs,
`run_sound` carries a property of the shared state together with one of the calls, and
`run_balanced` counts the events with which a call begins and ends something.
-/

namespace Interleaving

variable {σ κ ο ι ε : Type*}

/-- What an access leaves: the shared state, what remains of the call, and the events. -/
structure Outcome (σ ο ε : Type*) where
  shared : σ
  remaining : Option ο
  events : List ε

/-- Calls of type `κ` that work on a state of type `σ` by accesses.  A call under way is of type
`ο`, and a choice of type `ι` decides what an access leaves open. -/
structure System (σ κ ο ι ε : Type*) where
  enter : κ → Option ο × List ε
  access : σ → ι → ο → Outcome σ ο ε

/-- The shared state and the calls under way. -/
structure State (σ ο : Type*) where
  shared : σ
  inFlight : List ο

/-- Begin a call, or make the next access of the call at a position. -/
inductive Action (κ ι : Type*)
  | enter (call : κ)
  | access (position : ℕ) (choice : ι)

/-- The calls under way when of the one at a position the given part remains. -/
def proceed (calls : List ο) (position : ℕ) : Option ο → List ο
  | none => calls.eraseIdx position
  | some op => calls.set position op

/-- One step of the tasks, with its events. -/
def step (sys : System σ κ ο ι ε) (s : State σ ο) : Action κ ι → State σ ο × List ε
  | .enter call => (⟨s.shared, s.inFlight ++ (sys.enter call).1.toList⟩, (sys.enter call).2)
  | .access position choice =>
    match s.inFlight[position]? with
    | none => (s, [])
    | some op =>
      let outcome := sys.access s.shared choice op
      (⟨outcome.shared, proceed s.inFlight position outcome.remaining⟩, outcome.events)

lemma step_access_none (sys : System σ κ ο ι ε) {s : State σ ο} {position : ℕ}
    (hop : s.inFlight[position]? = none) (choice : ι) :
    step sys s (.access position choice) = (s, []) := by
  simp only [step, hop]

lemma step_access_some (sys : System σ κ ο ι ε) {s : State σ ο} {position : ℕ} {op : ο}
    (hop : s.inFlight[position]? = some op) (choice : ι) :
    step sys s (.access position choice) =
      (⟨(sys.access s.shared choice op).shared,
        proceed s.inFlight position (sys.access s.shared choice op).remaining⟩,
        (sys.access s.shared choice op).events) := by
  simp only [step, hop]

/-- The calls under way after an access: what remains of the call, and the others. -/
lemma perm_proceed {calls : List ο} {position : ℕ} {op : ο} (hop : calls[position]? = some op)
    (remaining : Option ο) :
    ∃ others, calls.Perm (op :: others) ∧
      (proceed calls position remaining).Perm (remaining.toList ++ others) := by
  obtain ⟨hlt, rfl⟩ := List.getElem?_eq_some_iff.mp hop
  refine ⟨calls.eraseIdx position, (List.getElem_cons_eraseIdx_perm hlt).symm, ?_⟩
  cases remaining with
  | none => exact List.Perm.refl _
  | some op =>
    rw [proceed, List.set_eq_take_append_cons_drop, if_pos hlt, List.eraseIdx_eq_take_drop_succ]
    exact List.perm_middle

/-- What a step does: a call begins, or nothing happens, or a call under way makes an access. -/
lemma step_cases (sys : System σ κ ο ι ε) (s : State σ ο) (a : Action κ ι) :
    (∃ call, a = .enter call ∧ (step sys s a).1 =
        ⟨s.shared, s.inFlight ++ (sys.enter call).1.toList⟩ ∧
        (step sys s a).2 = (sys.enter call).2) ∨
      ((∃ position choice, a = .access position choice) ∧ step sys s a = (s, [])) ∨
      ∃ position choice op others, a = .access position choice ∧
        s.inFlight[position]? = some op ∧ s.inFlight.Perm (op :: others) ∧
        (step sys s a).1.shared = (sys.access s.shared choice op).shared ∧
        (step sys s a).1.inFlight.Perm
          ((sys.access s.shared choice op).remaining.toList ++ others) ∧
        (step sys s a).2 = (sys.access s.shared choice op).events := by
  cases a with
  | enter call => exact Or.inl ⟨call, rfl, rfl, rfl⟩
  | access position choice =>
    right
    cases hop : s.inFlight[position]? with
    | none => exact Or.inl ⟨⟨position, choice, rfl⟩, step_access_none sys hop choice⟩
    | some op =>
      obtain ⟨others, hbefore, hafter⟩ :=
        perm_proceed hop (sys.access s.shared choice op).remaining
      rw [step_access_some sys hop]
      exact Or.inr ⟨position, choice, op, others, rfl, hop, hbefore, rfl, hafter, rfl⟩

/-- The call that makes its next access in a step meets a condition on the shared state. -/
def Meets (C : σ → ο → Prop) (s : State σ ο) : Action κ ι → Prop
  | .access position _ => ∀ op ∈ s.inFlight[position]?, C s.shared op
  | .enter _ => True

instance (C : σ → ο → Prop) [∀ x, DecidablePred (C x)] (s : State σ ο) :
    DecidablePred (Meets C s : Action κ ι → Prop)
  | .access position _ => inferInstanceAs (Decidable (∀ op ∈ s.inFlight[position]?, C s.shared op))
  | .enter _ => .isTrue trivial

section Access

variable {calls calls' others : List ο} {op : ο} {remaining : Option ο}

/-- What holds of every call under way still does after an access, when it does of what remains of
the call and the access does not disturb the others. -/
lemma forall_inFlight_access {P P' : ο → Prop} (hbefore : calls.Perm (op :: others))
    (hafter : calls'.Perm (remaining.toList ++ others)) (hP : ∀ o ∈ calls, P o)
    (hothers : ∀ o ∈ others, P o → P' o) (hremaining : ∀ o ∈ remaining, P' o) :
    ∀ o ∈ calls', P' o := by
  intro o ho
  rcases List.mem_append.mp (hafter.mem_iff.mp ho) with ho | ho
  · exact hremaining o (Option.mem_toList.mp ho)
  · exact hothers o ho (hP o (hbefore.mem_iff.mpr (List.mem_cons_of_mem op ho)))

/-- A sum over the calls under way changes with an access as the weight of the call does. -/
lemma sum_inFlight_access {M : Type*} [AddCommMonoid M] (w : ο → M)
    (hbefore : calls.Perm (op :: others)) (hafter : calls'.Perm (remaining.toList ++ others)) :
    (calls'.map w).sum + w op = (calls.map w).sum + (remaining.map w).getD 0 := by
  rw [(hbefore.map w).sum_eq, (hafter.map w).sum_eq, List.map_append, List.sum_append,
    List.map_cons, List.sum_cons]
  cases remaining with
  | none => simp [add_comm]
  | some o => simp [add_comm, add_left_comm]

end Access

open Runs

/-- A property of the shared state and one of every call under way, with the events so far. -/
def SoundAt (S : σ → List ε → Prop) (O : List ε → ο → Prop) (s : State σ ο) (tr : List ε) : Prop :=
  S s.shared tr ∧ ∀ op ∈ s.inFlight, O tr op

/-- What the beginning and every access of a call keep of the shared state and of the call, with the
events so far, holds after every run.  More events do not matter to a call under way. -/
lemma run_sound {sys : System σ κ ο ι ε} {S : σ → List ε → Prop} {O : List ε → ο → Prop}
    (hmore : ∀ {tr more op}, O tr op → O (tr ++ more) op)
    (henter : ∀ {s tr} call, S s tr → S s (tr ++ (sys.enter call).2) ∧
      ∀ op ∈ (sys.enter call).1, O (tr ++ (sys.enter call).2) op)
    (haccess : ∀ {s tr op} choice, S s tr → O tr op →
      S (sys.access s choice op).shared (tr ++ (sys.access s choice op).events) ∧
        ∀ o ∈ (sys.access s choice op).remaining, O (tr ++ (sys.access s choice op).events) o)
    {s : State σ ο} (hs : SoundAt S O s []) (actions : List (Action κ ι)) :
    SoundAt S O (runState (step sys) s actions) (runTrace (step sys) s actions) := by
  have hstep : ∀ s tr a, SoundAt S O s tr → True →
      SoundAt S O (step sys s a).1 (tr ++ (step sys s a).2) := by
    rintro s tr a ⟨hs, hcalls⟩ -
    rcases step_cases sys s a with ⟨call, rfl, hstate, hevents⟩ | ⟨-, hstep⟩ |
      ⟨position, choice, op, others, rfl, hop, hbefore, hafterShared, hafter, hevents⟩
    · obtain ⟨hs', hbegun⟩ := henter call hs
      rw [hstate, hevents]
      refine ⟨hs', fun op hop => ?_⟩
      rcases List.mem_append.mp hop with hop | hop
      · exact hmore (hcalls op hop)
      · exact hbegun op (Option.mem_toList.mp hop)
    · rw [hstep, List.append_nil]
      exact ⟨hs, hcalls⟩
    · obtain ⟨hs', hremaining⟩ := haccess choice hs (hcalls op (List.mem_of_getElem? hop))
      rw [hevents]
      refine ⟨hafterShared ▸ hs', ?_⟩
      exact forall_inFlight_access hbefore hafter hcalls (fun o _ ho => hmore ho) hremaining
  have hrun : SoundAt S O (runState (step sys) s actions) ([] ++ runTrace (step sys) s actions) :=
    run_induction hstep hs fun _ _ _ _ => trivial
  exact hrun

/-- There are as many events of one kind as there are events of another kind and marked calls under
way. -/
def Balanced (opens closes : ε → Bool) (marked : ο → Bool) (s : State σ ο) (tr : List ε) : Prop :=
  tr.countP opens = tr.countP closes + s.inFlight.countP marked

/-- When a call is marked between an event of one kind and one of another kind, the two kinds are
balanced after every run. -/
lemma run_balanced {sys : System σ κ ο ι ε} {opens closes : ε → Bool} {marked : ο → Bool}
    (henter : ∀ call, (sys.enter call).2.countP opens =
      (sys.enter call).2.countP closes + (sys.enter call).1.toList.countP marked)
    (haccess : ∀ s choice op, (sys.access s choice op).events.countP opens + [op].countP marked =
      (sys.access s choice op).events.countP closes +
        (sys.access s choice op).remaining.toList.countP marked)
    {s : State σ ο} (hs : s.inFlight = []) (actions : List (Action κ ι)) :
    Balanced opens closes marked (runState (step sys) s actions)
      (runTrace (step sys) s actions) := by
  have hstep : ∀ s tr a, Balanced opens closes marked s tr → True →
      Balanced opens closes marked (step sys s a).1 (tr ++ (step sys s a).2) := by
    rintro s tr a h -
    unfold Balanced at h ⊢
    rw [List.countP_append, List.countP_append]
    rcases step_cases sys s a with ⟨call, rfl, hstate, hevents⟩ | ⟨-, hstep⟩ |
      ⟨position, choice, op, others, rfl, hop, hbefore, -, hafter, hevents⟩
    · have hcall := henter call
      rw [hstate, hevents, List.countP_append]
      omega
    · rw [hstep]
      simpa using h
    · have hcall := haccess s.shared choice op
      rw [hbefore.countP_eq, ← List.singleton_append, List.countP_append] at h
      rw [hafter.countP_eq, List.countP_append, hevents]
      omega
  have hstart : Balanced opens closes marked s [] := by
    rw [Balanced, hs]
    rfl
  have hrun : Balanced opens closes marked (runState (step sys) s actions)
      ([] ++ runTrace (step sys) s actions) :=
    run_induction hstep hstart fun _ _ _ _ => trivial
  exact hrun

end Interleaving
