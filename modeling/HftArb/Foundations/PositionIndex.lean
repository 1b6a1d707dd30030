import Mathlib.Tactic

/-!
# Positions by key

The positions of a list whose element has a given key, in ascending order: what a reverse index
over a growing list has to hold.
-/

namespace PositionIndex

variable {α κ : Type*} [DecidableEq κ]

/-- The positions of the elements with a key. -/
def positions (key : α → κ) (l : List α) (k : κ) : List ℕ :=
  (List.range l.length).filter fun i => decide (l[i]?.map key = some k)

@[simp] lemma positions_nil (key : α → κ) (k : κ) : positions key [] k = [] := rfl

/-- A position is listed when its element has the key. -/
lemma mem_positions {key : α → κ} {l : List α} {k : κ} {i : ℕ} :
    i ∈ positions key l k ↔ ∃ x, l[i]? = some x ∧ key x = k := by
  rw [positions, List.mem_filter, List.mem_range, decide_eq_true_iff, Option.map_eq_some_iff,
    and_iff_right_of_imp]
  rintro ⟨x, hx, -⟩
  exact (List.getElem?_eq_some_iff.mp hx).1

/-- Positions are in the list. -/
lemma lt_of_mem_positions {key : α → κ} {l : List α} {k : κ} {i : ℕ} (h : i ∈ positions key l k) :
    i < l.length := by
  obtain ⟨x, hx, -⟩ := mem_positions.mp h
  exact (List.getElem?_eq_some_iff.mp hx).1

/-- An element added at the end adds its position to those of its key. -/
lemma positions_append_singleton (key : α → κ) (l : List α) (x : α) (k : κ) :
    positions key (l ++ [x]) k =
      positions key l k ++ if key x = k then [l.length] else [] := by
  have hold : ((List.range l.length).filter fun i => decide ((l ++ [x])[i]?.map key = some k)) =
      positions key l k := by
    refine List.filter_congr fun i hi => ?_
    rw [List.getElem?_append_left (List.mem_range.mp hi)]
  have hnew : (l ++ [x])[l.length]? = some x := by
    simp
  rw [positions, List.length_append, List.length_singleton, List.range_succ, List.filter_append,
    hold, List.filter_singleton, hnew]
  by_cases hkey : key x = k
  · simp [hkey]
  · simp [hkey]

end PositionIndex
