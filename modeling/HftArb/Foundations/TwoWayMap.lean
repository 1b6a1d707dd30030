import Mathlib.Data.List.Nodup
import Mathlib.Logic.Function.Basic
import Mathlib.Tactic

/-!
# A map with its inverse, and a list that indexes a property

Two structures that are kept beside a table and written without looking at what they hold.  A pair
of partial maps that are inverse to each other stays so under an overwrite of both exactly when the
pair is new in both, or is already there (`Inverse.update_iff`).  A list that holds every element
with a property once stays so under appending an element that has got the property exactly when
the element did not have it before (`Indexes.update_iff`).
-/

namespace TwoWayMap

variable {α β : Type*}

/-- Two partial maps are inverse to each other. -/
def Inverse (f : α → Option β) (g : β → Option α) : Prop :=
  ∀ a b, f a = some b ↔ g b = some a

lemma inverse_empty : Inverse (fun _ : α => (none : Option β)) fun _ => none :=
  fun _ _ => by simp

section Update

variable [DecidableEq α] [DecidableEq β] {f : α → Option β} {g : β → Option α} {a : α} {b : β}

/-- An overwrite with a new pair keeps two maps inverse. -/
lemma Inverse.update_of_new (h : Inverse f g) (hf : f a = none) (hg : g b = none) :
    Inverse (Function.update f a (some b)) (Function.update g b (some a)) := by
  intro a' b'
  by_cases ha : a' = a
  · subst ha
    by_cases hb : b' = b
    · subst hb
      simp
    · have hnot : g b' ≠ some a' := fun heq => by
        rw [(h a' b').mpr heq] at hf
        cases hf
      simp [Ne.symm hb, hb, hnot]
  · by_cases hb : b' = b
    · subst hb
      have hnot : f a' ≠ some b' := fun heq => by
        rw [(h a' b').mp heq] at hg
        cases hg
      simp [ha, Ne.symm ha, hnot]
    · simpa [ha, hb] using h a' b'

/-- An overwrite with a pair that is already there changes nothing. -/
lemma Inverse.update_of_same (h : Inverse f g) (hf : f a = some b) :
    Inverse (Function.update f a (some b)) (Function.update g b (some a)) := by
  have hsame : Function.update f a (some b) = f := by rw [← hf, Function.update_eq_self]
  have hback : Function.update g b (some a) = g := by
    rw [← (h a b).mp hf, Function.update_eq_self]
  rwa [hsame, hback]

/-- An overwrite keeps two maps inverse when the pair is new in both, or already there. -/
lemma Inverse.update_iff (h : Inverse f g) (a : α) (b : β) :
    Inverse (Function.update f a (some b)) (Function.update g b (some a)) ↔
      f a = none ∧ g b = none ∨ f a = some b := by
  refine ⟨fun hnew => ?_, fun hpair => hpair.elim (fun hnone => h.update_of_new hnone.1 hnone.2)
    h.update_of_same⟩
  cases hf : f a with
  | none =>
    refine Or.inl ⟨rfl, ?_⟩
    cases hg : g b with
    | none => rfl
    | some a' =>
      -- another element has this value and keeps it
      have hother : a' ≠ a := by
        rintro rfl
        rw [(h a' b).mpr hg] at hf
        cases hf
      have hback := (hnew a' b).mp (by rw [Function.update_of_ne hother, (h a' b).mpr hg])
      rw [Function.update_self] at hback
      exact absurd (Option.some.inj hback).symm hother
  | some b' =>
    refine Or.inr ?_
    by_contra hne
    -- the element had another value, which keeps pointing to it
    have hother : b' ≠ b := fun heq => hne (by rw [heq])
    have hback := (hnew a b').mpr (by rw [Function.update_of_ne hother, (h a b').mp hf])
    rw [Function.update_self] at hback
    exact absurd (Option.some.inj hback).symm hother

end Update

/-- A list holds every element with a property once, and no other. -/
def Indexes (l : List α) (p : α → Prop) : Prop :=
  l.Nodup ∧ ∀ a, a ∈ l ↔ p a

lemma indexes_nil {p : α → Prop} (hp : ∀ a, ¬ p a) : Indexes [] p :=
  ⟨List.nodup_nil, fun a => by simp [hp a]⟩

/-- When the property changes at one element only, which is appended when it has the property now,
the list still indexes it exactly when the element did not have it before. -/
lemma Indexes.update_iff {l : List α} {p q : α → Prop} (h : Indexes l p) {a : α} {c : Prop}
    [Decidable c] (hself : q a ↔ c) (hsame : ∀ b, b ≠ a → (q b ↔ p b)) :
    Indexes (if c then l ++ [a] else l) q ↔ ¬ p a := by
  constructor
  · rintro ⟨hnodup, hmem⟩ hold
    have hin : a ∈ l := (h.2 a).mpr hold
    by_cases hnew : c
    · rw [if_pos hnew] at hnodup
      exact (List.nodup_append.mp hnodup).2.2 a hin a (List.mem_singleton_self a) rfl
    · rw [if_neg hnew] at hmem
      exact hnew (hself.mp ((hmem a).mp hin))
  · intro hold
    have hout : a ∉ l := fun hin => hold ((h.2 a).mp hin)
    have hother : ∀ b, b ≠ a → (b ∈ l ↔ q b) := fun b hb => (h.2 b).trans (hsame b hb).symm
    by_cases hnew : c
    · rw [if_pos hnew]
      refine ⟨?_, fun b => ?_⟩
      · rw [List.nodup_append]
        refine ⟨h.1, List.nodup_singleton a, fun b hb c hc => ?_⟩
        rw [List.mem_singleton.mp hc]
        exact fun heq => hout (heq ▸ hb)
      · rw [List.mem_append, List.mem_singleton]
        by_cases hb : b = a
        · subst hb
          exact iff_of_true (Or.inr rfl) (hself.mpr hnew)
        · rw [hother b hb]
          exact ⟨fun hq => hq.resolve_right hb, Or.inl⟩
    · rw [if_neg hnew]
      refine ⟨h.1, fun b => ?_⟩
      by_cases hb : b = a
      · subst hb
        exact iff_of_false hout (mt hself.mp hnew)
      · exact hother b hb

end TwoWayMap
