import Mathlib.Tactic

/-!
# Counting the hits of a retry loop

A retry loop makes its attempts in turn and goes on to the next one when the attempt asks for a
retry.  `hits retry hit n i` is the number of attempts that hit, among the at most `n` attempts the
loop makes from attempt `i` on.

`hits_le_one_iff` says that at most one attempt hits exactly when no two attempts hit of which the
later one is reached, that is, has only retried attempts before it.
-/

namespace Retry

variable (retry hit : ℕ → Bool)

/-- The number of hits among the at most `n` attempts made from attempt `i` on. -/
def hits : ℕ → ℕ → ℕ
  | 0, _ => 0
  | n + 1, i => (if hit i then 1 else 0) + if retry i then hits n (i + 1) else 0

/-- Every attempt from `i` up to `j` asked for a retry. -/
def Reached (i j : ℕ) : Prop := ∀ k, i ≤ k → k < j → retry k = true

variable {retry hit}

/-- The first attempt is reached. -/
lemma reached_self (i : ℕ) : Reached retry i i := by
  intro k hik hki
  omega

/-- An attempt behind a retried one is reached from there. -/
lemma reached_succ_iff {i j : ℕ} (hij : i < j) :
    Reached retry i j ↔ retry i = true ∧ Reached retry (i + 1) j := by
  constructor
  · intro h
    refine ⟨h i le_rfl hij, ?_⟩
    intro k hk hkj
    exact h k (by omega) hkj
  · rintro ⟨hi, h⟩ k hk hkj
    rcases hk.eq_or_lt with rfl | hlt
    · exact hi
    · exact h k hlt hkj

/-- The loop has no hit exactly when no attempt it reaches is one. -/
lemma hits_eq_zero_iff (n i : ℕ) :
    hits retry hit n i = 0 ↔ ∀ j, i ≤ j → j < i + n → Reached retry i j → hit j = false := by
  induction n generalizing i with
  | zero =>
    refine iff_of_true rfl ?_
    intro j hij hj
    omega
  | succ n ih =>
    constructor
    · intro h j hij hj hreach
      have hsplit : (if hit i then 1 else 0) = 0 ∧
          (if retry i then hits retry hit n (i + 1) else 0) = 0 := by
        simpa only [hits, Nat.add_eq_zero_iff] using h
      rcases hij.eq_or_lt with rfl | hlt
      · simpa using hsplit.1
      · obtain ⟨hr, hrest⟩ := (reached_succ_iff hlt).mp hreach
        have hzero : hits retry hit n (i + 1) = 0 := by simpa [hr] using hsplit.2
        exact (ih (i + 1)).mp hzero j hlt (by omega) hrest
    · intro h
      have hi : hit i = false := h i le_rfl (by omega) (reached_self i)
      cases hr : retry i with
      | false => simp [hits, hi, hr]
      | true =>
        have hzero : hits retry hit n (i + 1) = 0 := by
          refine (ih (i + 1)).mpr ?_
          intro j hj hjn hreach
          exact h j (by omega) (by omega) ((reached_succ_iff (by omega)).mpr ⟨hr, hreach⟩)
        simp [hits, hi, hr, hzero]

/-- At most one attempt hits exactly when no hit is followed by another one that is reached. -/
lemma hits_le_one_iff (n i : ℕ) :
    hits retry hit n i ≤ 1 ↔ ∀ j k, i ≤ j → j < k → k < i + n → Reached retry i k →
      hit j = true → hit k = false := by
  induction n generalizing i with
  | zero =>
    refine iff_of_true (Nat.zero_le 1) ?_
    intro j k hij hjk hk
    omega
  | succ n ih =>
    cases hr : retry i with
    | false =>
      refine iff_of_true ?_ ?_
      · simp only [hits, hr]
        split <;> simp
      · intro j k hij hjk hk hreach
        have hretry := hreach i le_rfl (by omega)
        rw [hr] at hretry
        cases hretry
    | true =>
      cases hi : hit i with
      | false =>
        have heq : hits retry hit (n + 1) i = hits retry hit n (i + 1) := by simp [hits, hr, hi]
        rw [heq, ih (i + 1)]
        constructor
        · intro h j k hij hjk hk hreach hj
          have hne : i ≠ j := by
            rintro rfl
            rw [hi] at hj
            cases hj
          have hlt : i < j := lt_of_le_of_ne hij hne
          exact h j k hlt hjk (by omega) ((reached_succ_iff (by omega)).mp hreach).2 hj
        · intro h j k hij hjk hk hreach
          exact h j k (by omega) hjk (by omega) ((reached_succ_iff (by omega)).mpr ⟨hr, hreach⟩)
      | true =>
        have heq : hits retry hit (n + 1) i ≤ 1 ↔ hits retry hit n (i + 1) = 0 := by
          simp only [hits, hr, hi, if_true]
          omega
        rw [heq, hits_eq_zero_iff]
        constructor
        · intro h j k hij hjk hk hreach _
          have hreach' := ((reached_succ_iff (by omega)).mp hreach).2
          exact h k (by omega) (by omega) hreach'
        · intro h k hik hk hreach
          exact h i k le_rfl (by omega) (by omega)
            ((reached_succ_iff (by omega)).mpr ⟨hr, hreach⟩) hi

end Retry
