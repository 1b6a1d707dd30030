import Mathlib.Data.List.Basic
import Mathlib.Tactic

/-!
# Appending pieces to a bounded store

A store of bounded capacity appends a piece as a whole or leaves its content alone.  Pieces that are
appended one after another, up to the first that does not fit, leave those before it behind:
`appendAll_spec`.  The pieces are all or nothing together only where nothing is written before
the first failure.
-/

namespace BoundedAppend

variable {σ α : Type*}

/-- The pieces before the first one that does not fit into what the pieces before it leave of the
room. -/
def fitting (room : ℕ) : List (List α) → List (List α)
  | [] => []
  | d :: ds => if d.length ≤ room then d :: fitting (room - d.length) ds else []

/-- All pieces fit when they fit together. -/
lemma fitting_eq_self {room : ℕ} {ds : List (List α)} (h : ds.flatten.length ≤ room) :
    fitting room ds = ds := by
  induction ds generalizing room with
  | nil => rfl
  | cons d ds ih =>
    rw [List.flatten_cons, List.length_append] at h
    rw [fitting, if_pos (by omega), ih (by omega)]

/-- Nothing fits when the first piece that is not empty does not. -/
lemma flatten_fitting_cons_eq_nil_iff {room : ℕ} {d : List α} {ds : List (List α)} :
    (fitting room (d :: ds)).flatten = [] ↔
      room < d.length ∨ d = [] ∧ (fitting room ds).flatten = [] := by
  rw [fitting]
  split_ifs with hle
  · rw [List.flatten_cons, List.append_eq_nil_iff]
    constructor
    · rintro ⟨rfl, hrest⟩
      exact Or.inr ⟨rfl, hrest⟩
    · rintro (hlt | ⟨rfl, hrest⟩)
      · exact absurd hle (not_le.mpr hlt)
      · exact ⟨rfl, hrest⟩
  · exact iff_of_true rfl (Or.inl (not_le.mp hle))

/-- An append is all or nothing. -/
structure Bounded (append : σ → List α → σ × Bool) (content : σ → List α) (capacity : ℕ) :
    Prop where
  of_le : ∀ s d, (content s).length + d.length ≤ capacity →
    content (append s d).1 = content s ++ d ∧ (append s d).2 = true
  of_lt : ∀ s d, capacity < (content s).length + d.length → append s d = (s, false)

/-- Append pieces up to the first failure. -/
def appendAll (append : σ → List α → σ × Bool) (s : σ) : List (List α) → σ × Bool
  | [] => (s, true)
  | d :: ds => if (append s d).2 = true then appendAll append (append s d).1 ds else append s d

variable {append : σ → List α → σ × Bool} {content : σ → List α} {capacity : ℕ}

lemma appendAll_cons (s : σ) (d : List α) (ds : List (List α)) :
    appendAll append s (d :: ds) =
      if (append s d).2 = true then appendAll append (append s d).1 ds else append s d := rfl

@[simp] lemma appendAll_singleton (s : σ) (d : List α) : appendAll append s [d] = append s d := by
  rw [appendAll_cons]
  split_ifs with h
  · exact Prod.ext rfl h.symm
  · rfl

/-- What fits is left behind, and the appends all succeed exactly when the pieces fit together. -/
lemma appendAll_spec (h : Bounded append content capacity) {s : σ}
    (hs : (content s).length ≤ capacity) (ds : List (List α)) :
    content (appendAll append s ds).1 =
        content s ++ (fitting (capacity - (content s).length) ds).flatten ∧
      ((appendAll append s ds).2 = true ↔
        (content s).length + ds.flatten.length ≤ capacity) := by
  induction ds generalizing s with
  | nil => exact ⟨(List.append_nil _).symm, iff_of_true rfl hs⟩
  | cons d ds ih =>
    rw [appendAll, fitting, List.flatten_cons, List.length_append]
    rcases Nat.lt_or_ge capacity ((content s).length + d.length) with hlt | hle
    · rw [h.of_lt s d hlt, if_neg Bool.false_ne_true, if_neg (by omega), List.flatten_nil,
        List.append_nil]
      exact ⟨rfl, iff_of_false Bool.false_ne_true (by omega)⟩
    · obtain ⟨hcontent, hsnd⟩ := h.of_le s d hle
      have hlength : (content (append s d).1).length = (content s).length + d.length := by
        rw [hcontent, List.length_append]
      obtain ⟨hleft, hall⟩ := ih (hlength ▸ hle)
      rw [if_pos hsnd, if_pos (by omega), hleft, hall, hcontent, List.length_append,
        List.flatten_cons, List.append_assoc, Nat.sub_add_eq, Nat.add_assoc]
      exact ⟨rfl, Iff.rfl⟩

end BoundedAppend
