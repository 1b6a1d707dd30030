import Mathlib.Data.List.Range
import Mathlib.Tactic

/-!
# The window of a ring

A ring of `N` cells holds a sequence whose positions are free-running counters: position `i` lives
in cell `i % N`.  `window cells N r w` lists the cells of the positions from `r` up to `w`.  As long
as the window is not longer than the ring, its positions live in different cells, so writing the
next position (`window_write`), writing it over the oldest one (`window_overwrite`) and clearing the
oldest position (`window_clear`) act on the list as on a queue.
-/

namespace RingWindow

variable {α : Type*} {cells : ℕ → α} {N r w : ℕ}

/-- The cells of the positions `r, …, w - 1`. -/
def window (cells : ℕ → α) (N r w : ℕ) : List α :=
  (List.range' r (w - r)).map fun i => cells (i % N)

@[simp] lemma length_window : (window cells N r w).length = w - r := by
  simp [window]

lemma window_eq_nil (h : w ≤ r) : window cells N r w = [] := by
  rw [window, Nat.sub_eq_zero_of_le h]
  rfl

/-- The oldest position comes first. -/
lemma window_cons (h : r < w) :
    window cells N r w = cells (r % N) :: window cells N (r + 1) w := by
  obtain ⟨k, rfl⟩ := Nat.exists_eq_add_of_lt h
  have hlen : r + k + 1 - r = k + 1 := by omega
  have hlen' : r + k + 1 - (r + 1) = k := by omega
  rw [window, window, hlen, hlen', List.range'_succ, List.map_cons]

/-- The newest position comes last. -/
lemma window_succ (h : r ≤ w) :
    window cells N r (w + 1) = window cells N r w ++ [cells (w % N)] := by
  obtain ⟨k, rfl⟩ := Nat.exists_eq_add_of_le h
  have hlen : r + k + 1 - r = k + 1 := by omega
  rw [window, window, hlen, Nat.add_sub_cancel_left, List.range'_1_concat, List.map_append,
    List.map_singleton]

/-- Positions less than one revolution apart live in different cells. -/
lemma mod_ne_mod {i j : ℕ} (hij : i < j) (hj : j < i + N) : i % N ≠ j % N := by
  intro heq
  have hdvd : N ∣ j - i := (Nat.modEq_iff_dvd' hij.le).mp heq
  have hle : N ≤ j - i := Nat.le_of_dvd (by omega) hdvd
  omega

/-- A write to a cell outside the window does not show in it. -/
lemma window_update_of_ne {p : ℕ} {a : α} (h : ∀ i, r ≤ i → i < w → i % N ≠ p % N) :
    window (Function.update cells (p % N) a) N r w = window cells N r w := by
  apply List.map_congr_left
  intro i hi
  obtain ⟨hri, hiw⟩ := List.mem_range'_1.mp hi
  exact Function.update_of_ne (h i hri (by omega)) _ _

/-- Writing the next position of a window that is not full appends to it. -/
lemma window_write (hrw : r ≤ w) (hroom : w - r < N) (a : α) :
    window (Function.update cells (w % N) a) N r (w + 1) = window cells N r w ++ [a] := by
  rw [window_succ hrw, Function.update_self, window_update_of_ne]
  intro i hri hiw
  exact mod_ne_mod hiw (by omega)

/-- Writing the next position of a full window replaces its oldest one. -/
lemma window_overwrite (hN : 0 < N) (hfull : w = r + N) (a : α) :
    window (Function.update cells (w % N) a) N (r + 1) (w + 1) =
      (window cells N r w).tail ++ [a] := by
  have hlt : r < w := by omega
  rw [window_write hlt (by omega), window_cons hlt, List.tail_cons]

/-- Clearing the oldest position does not touch the others. -/
lemma window_clear (hlen : w - r ≤ N) (a : α) :
    window (Function.update cells (r % N) a) N (r + 1) w = window cells N (r + 1) w := by
  apply window_update_of_ne
  intro i hri hiw
  exact (mod_ne_mod (by omega) (by omega)).symm

end RingWindow
