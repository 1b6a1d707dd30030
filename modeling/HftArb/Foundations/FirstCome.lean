import Mathlib.Data.Finset.Card
import Mathlib.Data.List.TakeWhile

/-!
# First come, first served

Items arrive one after the other, some of them known beforehand.  An item that is not known takes a
place when it arrives for the first time, as long as there are places left; it is `Admitted` when
fewer items than there are places have done so before it.

`admitted_append_singleton` and `card_newcomers_append_singleton` say what one more arrival changes.
-/

namespace FirstCome

variable {α : Type*} [DecidableEq α] (known : α → Prop) [DecidablePred known]

/-- The arrivals that are not known beforehand. -/
def newcomers (xs : List α) : Finset α := (xs.filter fun x => ¬ known x).toFinset

/-- The item is known, or it has arrived and there was a place left. -/
def Admitted (room : ℕ) (xs : List α) (x : α) : Prop :=
  known x ∨ x ∈ xs ∧ (newcomers known (xs.takeWhile (· ≠ x))).card < room

instance (room : ℕ) (xs : List α) (x : α) : Decidable (Admitted known room xs x) :=
  inferInstanceAs (Decidable (known x ∨ x ∈ xs ∧ _ < room))

variable {known}

lemma mem_newcomers {xs : List α} {x : α} : x ∈ newcomers known xs ↔ x ∈ xs ∧ ¬ known x := by
  simp [newcomers]

lemma newcomers_mono {xs ys : List α} (h : xs ⊆ ys) : newcomers known xs ⊆ newcomers known ys := by
  intro x hx
  rw [mem_newcomers] at hx ⊢
  exact ⟨h hx.1, hx.2⟩

/-- One more arrival is a newcomer when it was neither known nor there. -/
lemma card_newcomers_append_singleton (xs : List α) (x : α) :
    (newcomers known (xs ++ [x])).card =
      if known x ∨ x ∈ xs then (newcomers known xs).card else (newcomers known xs).card + 1 := by
  split_ifs with h
  · refine congrArg Finset.card (Finset.ext fun y => ?_)
    simp only [mem_newcomers, List.mem_append, List.mem_singleton]
    constructor
    · rintro ⟨hy | rfl, hnew⟩
      · exact ⟨hy, hnew⟩
      · exact ⟨h.resolve_left hnew, hnew⟩
    · exact fun ⟨hy, hnew⟩ => ⟨Or.inl hy, hnew⟩
  · rw [not_or] at h
    have hinsert : newcomers known (xs ++ [x]) = insert x (newcomers known xs) := by
      ext y
      simp only [mem_newcomers, List.mem_append, List.mem_singleton, Finset.mem_insert]
      constructor
      · rintro ⟨hy | rfl, hnew⟩
        · exact Or.inr ⟨hy, hnew⟩
        · exact Or.inl rfl
      · rintro (rfl | ⟨hy, hnew⟩)
        · exact ⟨Or.inr rfl, h.1⟩
        · exact ⟨Or.inl hy, hnew⟩
    rw [hinsert, Finset.card_insert_of_notMem fun hmem => h.2 (mem_newcomers.mp hmem).1]

/-- What arrives before an item is settled once it has arrived. -/
lemma takeWhile_append_of_mem {xs : List α} {x : α} (h : x ∈ xs) (ys : List α) :
    (xs ++ ys).takeWhile (· ≠ x) = xs.takeWhile (· ≠ x) := by
  induction xs with
  | nil => cases h
  | cons y xs ih =>
    rw [List.cons_append, List.takeWhile_cons, List.takeWhile_cons]
    by_cases hy : y = x
    · simp [hy]
    · rw [ih ((List.mem_cons.mp h).resolve_left (Ne.symm hy))]

/-- Whether an item is admitted is settled once it has arrived. -/
lemma admitted_append_of_mem {room : ℕ} {xs : List α} {x : α} (h : x ∈ xs) (ys : List α) :
    Admitted known room (xs ++ ys) x ↔ Admitted known room xs x := by
  rw [Admitted, Admitted, takeWhile_append_of_mem h, List.mem_append, or_iff_left_of_imp fun _ => h]

/-- One more arrival is admitted when there is a place left. -/
lemma admitted_append_singleton {room : ℕ} {xs : List α} {x y : α} :
    Admitted known room (xs ++ [x]) y ↔
      Admitted known room xs y ∨ y = x ∧ (newcomers known xs).card < room := by
  by_cases hy : y ∈ xs
  · rw [admitted_append_of_mem hy]
    refine (or_iff_left_of_imp fun ⟨_, hroom⟩ => Or.inr ⟨hy, ?_⟩).symm
    refine (Finset.card_le_card (newcomers_mono ?_)).trans_lt hroom
    exact (List.takeWhile_sublist _).subset
  · by_cases hxy : y = x
    · subst hxy
      have hne : ∀ z ∈ xs, decide (z ≠ y) = true :=
        fun z hz => decide_eq_true fun heq => hy (heq ▸ hz)
      have hend : (xs ++ [y]).takeWhile (· ≠ y) = xs := by
        rw [List.takeWhile_append_of_pos hne]
        simp
      rw [Admitted, Admitted, hend]
      simp [hy]
    · simp [Admitted, hy, hxy]

end FirstCome
