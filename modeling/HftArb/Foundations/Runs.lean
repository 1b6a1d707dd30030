import Mathlib.Data.List.Infix
import Mathlib.Tactic

/-!
# Runs of a step function and guarded traces

A system is a step function on states that consumes inputs and emits events.  `runState` is the
state after a list of inputs and `runTrace` the list of events they emitted, in order.

Two rules carry the arguments about whole runs.  `runState_induction` turns a fact that one step
keeps, for the inputs satisfying a side condition, into a fact about every run of such inputs.
`Guarded G` says of a trace that each of its events `e` is allowed by the events before it, in the
sense of `G before e`; `guardedFrom_runTrace_iff` cuts the guardedness of a run into that of its
steps, each with the history of the run so far, and `guardedFrom_iff_forall` settles a piece whose
events give no permissions themselves.
-/

namespace Runs

variable {σ α ε : Type*}

/-- The state reached from `s` by the inputs `as`. -/
def runState (step : σ → α → σ × List ε) (s : σ) : List α → σ
  | [] => s
  | a :: as => runState step (step s a).1 as

/-- The events emitted on the way from `s` along the inputs `as`. -/
def runTrace (step : σ → α → σ × List ε) (s : σ) : List α → List ε
  | [] => []
  | a :: as => (step s a).2 ++ runTrace step (step s a).1 as

@[simp] lemma runState_nil (step : σ → α → σ × List ε) (s : σ) : runState step s [] = s := rfl

@[simp] lemma runState_cons (step : σ → α → σ × List ε) (s : σ) (a : α) (as : List α) :
    runState step s (a :: as) = runState step (step s a).1 as := rfl

@[simp] lemma runTrace_nil (step : σ → α → σ × List ε) (s : σ) : runTrace step s [] = [] := rfl

@[simp] lemma runTrace_cons (step : σ → α → σ × List ε) (s : σ) (a : α) (as : List α) :
    runTrace step s (a :: as) = (step s a).2 ++ runTrace step (step s a).1 as := rfl

/-- A run of two lists of inputs is the run of the second from the state the first reaches. -/
lemma runState_append (step : σ → α → σ × List ε) (s : σ) (as bs : List α) :
    runState step s (as ++ bs) = runState step (runState step s as) bs := by
  induction as generalizing s with
  | nil => rfl
  | cons a as ih => simp [ih]

/-- The events of two lists of inputs. -/
lemma runTrace_append (step : σ → α → σ × List ε) (s : σ) (as bs : List α) :
    runTrace step s (as ++ bs) = runTrace step s as ++ runTrace step (runState step s as) bs := by
  induction as generalizing s with
  | nil => rfl
  | cons a as ih => simp [ih]

/-- What every step keeps under the side condition `C` on its input holds after every run whose
inputs satisfy `C`. -/
lemma runState_induction {step : σ → α → σ × List ε} {I : σ → Prop} {C : α → Prop}
    (hstep : ∀ s a, I s → C a → I (step s a).1) {s : σ} (hs : I s) {as : List α}
    (hC : ∀ a ∈ as, C a) : I (runState step s as) := by
  induction as generalizing s with
  | nil => exact hs
  | cons a as ih =>
    have ha : C a := hC a (by simp)
    exact ih (hstep s a hs ha) fun b hb => hC b (by simp [hb])

/-- What every step keeps of the state and the events so far, under a side condition `C` on the
point of the run, holds after every run all of whose points satisfy `C`. -/
lemma run_induction {step : σ → α → σ × List ε} {I : σ → List ε → Prop}
    {C : σ → List ε → α → Prop}
    (hstep : ∀ s tr a, I s tr → C s tr a → I (step s a).1 (tr ++ (step s a).2)) {s : σ}
    {tr : List ε} (hs : I s tr) {as : List α}
    (hC : ∀ before a after, as = before ++ a :: after →
      C (runState step s before) (tr ++ runTrace step s before) a) :
    I (runState step s as) (tr ++ runTrace step s as) := by
  induction as generalizing s tr with
  | nil => simpa using hs
  | cons a as ih =>
    have ha := hC [] a as rfl
    rw [runState_nil, runTrace_nil, List.append_nil] at ha
    rw [runState_cons, runTrace_cons, ← List.append_assoc]
    apply ih (hstep s tr a hs ha)
    rintro before b after rfl
    have hb := hC (a :: before) b after rfl
    rwa [runState_cons, runTrace_cons, ← List.append_assoc] at hb

/-- What every step keeps of the state, under a side condition `C` on the state and the input, holds
after every run all of whose points satisfy `C`. -/
lemma runState_induction_at {step : σ → α → σ × List ε} {I : σ → Prop} {C : σ → α → Prop}
    (hstep : ∀ s a, I s → C s a → I (step s a).1) {s : σ} (hs : I s) {as : List α}
    (hC : ∀ before a after, as = before ++ a :: after → C (runState step s before) a) :
    I (runState step s as) := by
  induction as generalizing s with
  | nil => exact hs
  | cons a as ih =>
    have ha : C s a := hC [] a as rfl
    apply ih (hstep s a hs ha)
    rintro before b after rfl
    exact hC (a :: before) b after rfl

/-- An event of a run is emitted by one of its steps. -/
lemma mem_runTrace_iff {step : σ → α → σ × List ε} {s : σ} {as : List α} {e : ε} :
    e ∈ runTrace step s as ↔
      ∃ pre a post, as = pre ++ a :: post ∧ e ∈ (step (runState step s pre) a).2 := by
  induction as generalizing s with
  | nil => simp
  | cons b as ih =>
    rw [runTrace_cons, List.mem_append, ih]
    constructor
    · rintro (h | ⟨pre, a, post, rfl, h⟩)
      · exact ⟨[], b, as, rfl, h⟩
      · exact ⟨b :: pre, a, post, rfl, h⟩
    · rintro ⟨pre, a, post, heq, h⟩
      cases pre with
      | nil =>
        obtain ⟨rfl, -⟩ := List.cons.inj heq
        exact Or.inl h
      | cons c pre =>
        obtain ⟨rfl, rfl⟩ := List.cons.inj heq
        exact Or.inr ⟨pre, a, post, rfl, h⟩

/-- A statement about every point of a list, point by point. -/
lemma forall_split_cons {P : List α → α → Prop} {a : α} {as : List α} :
    (∀ before b after, a :: as = before ++ b :: after → P before b) ↔
      P [] a ∧ ∀ before b after, as = before ++ b :: after → P (a :: before) b := by
  constructor
  · intro h
    refine ⟨h [] a as rfl, ?_⟩
    rintro before b after rfl
    exact h (a :: before) b after rfl
  · rintro ⟨ha, htail⟩ before b after heq
    cases before with
    | nil =>
      obtain ⟨rfl, -⟩ := List.cons.inj heq
      exact ha
    | cons c before =>
      obtain ⟨rfl, htl⟩ := List.cons.inj heq
      exact htail before b after htl

lemma forall_split_nil {P : List α → α → Prop} :
    ∀ before b after, ([] : List α) = before ++ b :: after → P before b := by
  intro before b after heq
  simp at heq

/-- A statement about every point of a list with one more element at the end. -/
lemma forall_split_append_singleton {P : List α → α → Prop} {as : List α} {a : α} :
    (∀ before b after, as ++ [a] = before ++ b :: after → P before b) ↔
      (∀ before b after, as = before ++ b :: after → P before b) ∧ P as a := by
  constructor
  · intro h
    refine ⟨?_, h as a [] rfl⟩
    rintro before b after rfl
    exact h before b (after ++ [a]) (by simp)
  · rintro ⟨hinit, hlast⟩ before b after heq
    rcases List.eq_nil_or_concat after with rfl | ⟨after, c, rfl⟩
    · obtain ⟨rfl, rfl⟩ := List.append_singleton_inj.mp heq
      exact hlast
    · rw [List.concat_eq_append, ← List.cons_append, ← List.append_assoc] at heq
      exact hinit before b after (List.append_singleton_inj.mp heq).1

/-- What holds of every prefix of a list, point by point. -/
lemma forall_prefix_iff {P : List α → Prop} {as : List α} :
    (∀ before after, as = before ++ after → P before) ↔
      P [] ∧ ∀ before b after, as = before ++ b :: after → P (before ++ [b]) := by
  constructor
  · intro h
    refine ⟨h [] as rfl, ?_⟩
    rintro before b after rfl
    exact h (before ++ [b]) after (by simp)
  · rintro ⟨hnil, hpoint⟩ before after rfl
    rcases List.eq_nil_or_concat before with rfl | ⟨before, b, rfl⟩
    · exact hnil
    · rw [List.concat_eq_append]
      exact hpoint before b after (by simp)

/-- Two statements about the points of a list agree when they agree wherever an invariant holds that
the second of them carries from point to point. -/
lemma forall_split_congr {P Q : List α → α → Prop} {I : List α → Prop} (hnil : I [])
    (hiff : ∀ before a, I before → (P before a ↔ Q before a))
    (hstep : ∀ before a, I before → Q before a → I (before ++ [a])) (as : List α) :
    (∀ before a after, as = before ++ a :: after → P before a) ↔
      ∀ before a after, as = before ++ a :: after → Q before a := by
  have key : ∀ as : List α,
      ((∀ before a after, as = before ++ a :: after → P before a) ↔
        ∀ before a after, as = before ++ a :: after → Q before a) ∧
      ((∀ before a after, as = before ++ a :: after → Q before a) → I as) := by
    intro as
    induction as using List.reverseRecOn with
    | nil => exact ⟨iff_of_true forall_split_nil forall_split_nil, fun _ => hnil⟩
    | append_singleton as a ih =>
      rw [forall_split_append_singleton, forall_split_append_singleton, ih.1]
      constructor
      · exact and_congr_right fun hQ => hiff as a (ih.2 hQ)
      · rintro ⟨hQ, ha⟩
        exact hstep as a (ih.2 hQ) ha
  exact (key as).1

/-- A statement about every point of a list, by the positions. -/
lemma forall_split_iff {P : List α → α → Prop} {as : List α} :
    (∀ before b after, as = before ++ b :: after → P before b) ↔
      ∀ i : Fin as.length, P (as.take i) (as.get i) := by
  constructor
  · intro h i
    refine h _ _ (as.drop (i + 1)) ?_
    rw [List.get_eq_getElem, List.getElem_cons_drop, List.take_append_drop]
  · rintro h before b after rfl
    have hpoint := h ⟨before.length, by simp⟩
    simpa using hpoint

/-- The last value that some element of a list gives, with one more element at the end. -/
lemma findSome?_reverse_append_singleton {β : Type*} (f : α → Option β) (as : List α) (a : α) :
    (as ++ [a]).reverse.findSome? f = (f a).or (as.reverse.findSome? f) := by
  rw [List.reverse_append, List.reverse_singleton, List.singleton_append, List.findSome?_cons]
  cases f a <;> rfl

/-! ## Counting steps and summing events -/

/-- The events of the steps of a run, step by step. -/
def stepTraces (step : σ → α → σ × List ε) (s : σ) : List α → List (List ε)
  | [] => []
  | a :: as => (step s a).2 :: stepTraces step (step s a).1 as

/-- When the state does not matter for a property of the events of a step, the steps with the
property can be counted on the inputs. -/
lemma countP_stepTraces {step : σ → α → σ × List ε} {p : List ε → Bool} {q : α → Bool}
    (h : ∀ s a, p (step s a).2 = q a) (s : σ) (as : List α) :
    (stepTraces step s as).countP p = as.countP q := by
  induction as generalizing s with
  | nil => rfl
  | cons a as ih => rw [stepTraces, List.countP_cons, List.countP_cons, ih, h]

/-- A bound on what each step adds to a sum over the events bounds the sum over the run. -/
lemma sum_runTrace_le {step : σ → α → σ × List ε} {w : ε → ℚ} {bound : α → ℚ}
    (h : ∀ s a, ((step s a).2.map w).sum ≤ bound a) (s : σ) (as : List α) :
    ((runTrace step s as).map w).sum ≤ (as.map bound).sum := by
  induction as generalizing s with
  | nil => simp
  | cons a as ih =>
    rw [runTrace_cons, List.map_append, List.sum_append, List.map_cons, List.sum_cons]
    exact add_le_add (h s a) (ih _)

/-- A sum over the elements with a given key is bounded by a bound on each of them, when no two
elements share the key. -/
lemma sum_le_of_pairwise_ne {β κ : Type*} [DecidableEq κ] {key : β → κ} {w : β → ℚ} {bound : ℚ}
    (hbound : 0 ≤ bound) {k : κ} {l : List β} (hl : l.Pairwise fun a b => key a ≠ key b)
    (hw : ∀ b ∈ l, key b = k → w b ≤ bound) :
    (l.map fun b => if key b = k then w b else 0).sum ≤ bound := by
  induction l with
  | nil => simpa using hbound
  | cons b l ih =>
    obtain ⟨hb, hl⟩ := List.pairwise_cons.mp hl
    rw [List.map_cons, List.sum_cons]
    by_cases hk : key b = k
    · have hrest : (l.map fun b => if key b = k then w b else 0).sum = 0 := by
        apply List.sum_eq_zero
        intro x hx
        obtain ⟨c, hc, rfl⟩ := List.mem_map.mp hx
        exact if_neg fun hck => hb c hc (hk.trans hck.symm)
      rw [if_pos hk, hrest, add_zero]
      exact hw b (by simp) hk
    · rw [if_neg hk, zero_add]
      exact ih hl fun c hc => hw c (by simp [hc])

/-- When no two elements of a list can both have a property, at most one has it. -/
lemma countP_le_one_of_pairwise {β : Type*} {R : β → β → Prop} {p : β → Bool} {l : List β}
    (hl : l.Pairwise R) (hR : ∀ a b, p a = true → p b = true → ¬ R a b) : l.countP p ≤ 1 := by
  induction l with
  | nil => simp
  | cons a l ih =>
    obtain ⟨ha, hl⟩ := List.pairwise_cons.mp hl
    by_cases hp : p a = true
    · have hrest : l.countP p = 0 := by
        rw [List.countP_eq_zero]
        intro b hb hpb
        exact hR a b hp hpb (ha b hb)
      simp [hp, hrest]
    · rw [List.countP_cons_of_neg hp]
      exact ih hl

/-- What every step of a fold leaves, the fold leaves. -/
lemma foldl_leaves {β : Type*} (read : σ → β) {f : σ → α → σ}
    (hf : ∀ s a, read (f s a) = read s) (as : List α) (s : σ) : read (as.foldl f s) = read s := by
  induction as generalizing s with
  | nil => rfl
  | cons a as ih => exact (ih (f s a)).trans (hf s a)

section Keys

variable {β κ : Type*} {key : α → κ} {read : σ → β} {f : σ → α → σ} {k : κ}

/-- What a fold leaves of the field of a key that no element has. -/
lemma foldl_of_forall_ne (hother : ∀ s a, key a ≠ k → read (f s a) = read s) {as : List α}
    (has : ∀ a ∈ as, key a ≠ k) (s : σ) : read (as.foldl f s) = read s := by
  induction as generalizing s with
  | nil => rfl
  | cons a as ih =>
    obtain ⟨ha, hrest⟩ := List.forall_mem_cons.mp has
    rw [List.foldl_cons, ih hrest, hother s a ha]

/-- When keys are distinct, the field of a key is written by the element with this key, after
elements that leave it. -/
lemma exists_foldl_of_mem (hother : ∀ s a, key a ≠ k → read (f s a) = read s) {as : List α}
    (hnodup : (as.map key).Nodup) {a : α} (ha : a ∈ as) (hkey : key a = k) (s : σ) :
    ∃ s', read s' = read s ∧ read (as.foldl f s) = read (f s' a) := by
  induction as generalizing s with
  | nil => simp at ha
  | cons b as ih =>
    rw [List.map_cons, List.nodup_cons] at hnodup
    rcases List.mem_cons.mp ha with rfl | ha
    · have hrest : ∀ c ∈ as, key c ≠ k := by
        intro c hc hkey'
        exact hnodup.1 (List.mem_map.mpr ⟨c, hc, hkey'.trans hkey.symm⟩)
      exact ⟨s, rfl, foldl_of_forall_ne hother hrest (f s a)⟩
    · have hb : key b ≠ k := by
        intro hkey'
        exact hnodup.1 (List.mem_map.mpr ⟨a, ha, hkey.trans hkey'.symm⟩)
      obtain ⟨s', hs', hread⟩ := ih hnodup.2 ha (f s b)
      exact ⟨s', hs'.trans (hother s b hb), hread⟩

end Keys

/-! ## Guarded traces -/

section Guarded

variable {G : List ε → ε → Prop}

/-- Every event of the trace is allowed by the history and the events of the trace before it. -/
def GuardedFrom (G : List ε → ε → Prop) (history : List ε) : List ε → Prop
  | [] => True
  | e :: tr => G history e ∧ GuardedFrom G (history ++ [e]) tr

/-- Every event of the trace is allowed by the events before it. -/
def Guarded (G : List ε → ε → Prop) (tr : List ε) : Prop := GuardedFrom G [] tr

instance GuardedFrom.decidable [∀ history e, Decidable (G history e)] :
    ∀ (tr history : List ε), Decidable (GuardedFrom G history tr)
  | [], _ => .isTrue trivial
  | e :: tr, history =>
    have := GuardedFrom.decidable tr (history ++ [e])
    inferInstanceAs (Decidable (G history e ∧ _))

instance [∀ history e, Decidable (G history e)] (tr : List ε) : Decidable (Guarded G tr) :=
  GuardedFrom.decidable tr []

/-- Guardedness of a trace in two pieces. -/
lemma guardedFrom_append (history tr tr' : List ε) :
    GuardedFrom G history (tr ++ tr') ↔
      GuardedFrom G history tr ∧ GuardedFrom G (history ++ tr) tr' := by
  induction tr generalizing history with
  | nil => simp [GuardedFrom]
  | cons e tr ih => simp [GuardedFrom, ih, and_assoc]

/-- One more event of a guarded trace. -/
lemma guarded_append_singleton {tr : List ε} {e : ε} :
    Guarded G (tr ++ [e]) ↔ Guarded G tr ∧ G tr e := by
  rw [Guarded, guardedFrom_append, List.nil_append]
  exact and_congr_right fun _ => and_iff_left trivial

/-- A weaker guard allows what a stronger one does. -/
lemma guarded_mono {G' : List ε → ε → Prop} (himp : ∀ history e, G history e → G' history e)
    {tr : List ε} (h : Guarded G tr) : Guarded G' tr := by
  induction tr using List.reverseRecOn with
  | nil => trivial
  | append_singleton tr e ih =>
    obtain ⟨htr, he⟩ := guarded_append_singleton.mp h
    exact guarded_append_singleton.mpr ⟨ih htr, himp tr e he⟩

/-- Two guards that agree along a trace allow it both or neither. -/
lemma guarded_congr {G' : List ε → ε → Prop} {tr : List ε}
    (h : Guarded (fun history e => G history e ↔ G' history e) tr) :
    Guarded G tr ↔ Guarded G' tr := by
  induction tr using List.reverseRecOn with
  | nil => exact Iff.rfl
  | append_singleton tr e ih =>
    obtain ⟨htr, he⟩ := guarded_append_singleton.mp h
    rw [guarded_append_singleton, guarded_append_singleton, ih htr, he]

/-- When the events of a trace give no permissions, each of them must be allowed by the history. -/
lemma guardedFrom_iff_forall {tr : List ε}
    (hinert : ∀ history, ∀ e' ∈ tr, ∀ e, G (history ++ [e']) e ↔ G history e) (history : List ε) :
    GuardedFrom G history tr ↔ ∀ e ∈ tr, G history e := by
  induction tr generalizing history with
  | nil => simp [GuardedFrom]
  | cons b tr ih =>
    have htail := ih (fun h e' he' => hinert h e' (by simp [he'])) (history ++ [b])
    simp only [GuardedFrom, htail, hinert history b (by simp), List.forall_mem_cons]

/-- Events that need no permission may follow any history. -/
lemma guardedFrom_of_forall {tr : List ε} (h : ∀ history, ∀ e ∈ tr, G history e)
    (history : List ε) : GuardedFrom G history tr := by
  induction tr generalizing history with
  | nil => trivial
  | cons b tr ih =>
    exact ⟨h history b (by simp), ih (fun h' e he => h h' e (by simp [he])) _⟩

/-- A run is guarded exactly when each of its steps is, after what the steps before it emitted. -/
lemma guardedFrom_runTrace_iff {step : σ → α → σ × List ε} {s : σ} {as : List α}
    (history : List ε) :
    GuardedFrom G history (runTrace step s as) ↔
      ∀ pre a post, as = pre ++ a :: post →
        GuardedFrom G (history ++ runTrace step s pre) (step (runState step s pre) a).2 := by
  induction as generalizing s history with
  | nil => exact iff_of_true trivial forall_split_nil
  | cons b as ih =>
    rw [runTrace_cons, guardedFrom_append, ih, forall_split_cons]
    simp

end Guarded

end Runs
