import Mathlib.Analysis.SpecialFunctions.Pow.Real
import Mathlib.Tactic

/-!
# Newton's method for square roots

One step replaces a guess by the mean of the guess and of the value divided by it.  The deviation of
a guess from the root, `(x - r) / (x + r)`, is squared by every step, so that a number of steps
gives a closed form (`deviation_iterate`), from any positive start.

A guess is accurate to a relative error of the square exactly when its deviation is small enough
(`abs_sq_sub_le_iff`).
-/

namespace NewtonSqrt

/-- One step towards the root of `a`. -/
def step {K : Type*} [Field K] (a x : K) : K := (x + a / x) / 2

/-- How far a guess is from the root, between `-1` and `1`. -/
def deviation {K : Type*} [Field K] (r x : K) : K := (x - r) / (x + r)

/-- The deviation does not depend on the unit. -/
lemma deviation_mul {K : Type*} [Field K] {u : K} (hu : u ≠ 0) (r x : K) :
    deviation (u * r) (u * x) = deviation r x := by
  unfold deviation
  rw [← mul_sub, ← mul_add, mul_div_mul_left _ _ hu]

section Field

variable {K : Type*} [Field K] [LinearOrder K] [IsStrictOrderedRing K] {a r x y ρ : K}

lemma step_pos (ha : 0 < a) (hx : 0 < x) : 0 < step a x := by
  unfold step
  positivity

lemma iterate_pos (ha : 0 < a) (hx : 0 < x) (n : ℕ) : 0 < (step a)^[n] x := by
  induction n with
  | zero => exact hx
  | succ n ih =>
    rw [Function.iterate_succ_apply']
    exact step_pos ha ih

/-- Some steps halve a guess at most once each. -/
lemma div_pow_le_iterate (ha : 0 < a) (hx : 0 < x) (n : ℕ) : x / 2 ^ n ≤ (step a)^[n] x := by
  induction n with
  | zero => simp
  | succ n ih =>
    have hpos := iterate_pos ha hx n
    rw [Function.iterate_succ_apply']
    generalize (step a)^[n] x = y at ih hpos ⊢
    calc x / 2 ^ (n + 1) = x / 2 ^ n / 2 := by rw [pow_succ, div_div]
      _ ≤ y / 2 := by linarith
      _ ≤ step a y := by
        unfold step
        linarith [div_pos ha hpos]

/-- A step squares the deviation. -/
lemma deviation_step (hr : 0 < r) (ha : r ^ 2 = a) (hx : 0 < x) :
    deviation r (step a x) = deviation r x ^ 2 := by
  have hsum : x + r ≠ 0 := (add_pos hx hr).ne'
  have hminus : step a x - r = (x - r) ^ 2 / (2 * x) := by
    unfold step
    rw [← ha]
    field_simp
    ring
  have hplus : step a x + r = (x + r) ^ 2 / (2 * x) := by
    unfold step
    rw [← ha]
    field_simp
    ring
  unfold deviation
  rw [hminus, hplus, div_pow]
  field_simp

/-- Some steps from a positive guess raise the deviation to a power of two. -/
theorem deviation_iterate (hr : 0 < r) (ha : r ^ 2 = a) (hx : 0 < x) (n : ℕ) :
    deviation r ((step a)^[n] x) = deviation r x ^ 2 ^ n := by
  have hpos : 0 < a := ha ▸ pow_pos hr 2
  induction n with
  | zero => rw [Function.iterate_zero_apply, pow_zero, pow_one]
  | succ n ih =>
    rw [Function.iterate_succ_apply', deviation_step hr ha (iterate_pos hpos hx n), ih, ← pow_mul,
      ← pow_succ]

/-- Of two positive guesses the smaller one has the smaller deviation. -/
lemma deviation_le_iff (hr : 0 < r) (hx : 0 < x) (hy : 0 < y) :
    deviation r x ≤ deviation r y ↔ x ≤ y := by
  unfold deviation
  rw [div_le_div_iff₀ (add_pos hx hr) (add_pos hy hr)]
  constructor
  · intro h
    nlinarith
  · intro h
    nlinarith

/-- A guess is not below the root when its deviation is not negative. -/
lemma deviation_nonneg_iff (hr : 0 < r) (hx : 0 < x) : 0 ≤ deviation r x ↔ r ≤ x := by
  unfold deviation
  rw [le_div_iff₀ (add_pos hx hr), zero_mul, sub_nonneg]

/-- The guesses whose deviation has a bound. -/
lemma abs_deviation_le_iff (hr : 0 < r) (hx : 0 < x) (hρ₀ : 0 ≤ ρ) (hρ₁ : ρ < 1) :
    |deviation r x| ≤ ρ ↔ r * ((1 - ρ) / (1 + ρ)) ≤ x ∧ x ≤ r * ((1 + ρ) / (1 - ρ)) := by
  have hsum := add_pos hx hr
  have hplus : 0 < 1 + ρ := by linarith
  have hminus : 0 < 1 - ρ := by linarith
  unfold deviation
  rw [abs_le, le_div_iff₀ hsum, div_le_iff₀ hsum, ← mul_div_assoc, ← mul_div_assoc,
    div_le_iff₀ hplus, le_div_iff₀ hminus]
  constructor
  · rintro ⟨hlower, hupper⟩
    constructor <;> linarith
  · rintro ⟨hlower, hupper⟩
    constructor <;> linarith

end Field

/-! ## Accuracy -/

/-- The square of a guess that is not below the root has a relative error of at most `ε` exactly
when the deviation is at most that of the root of `1 + ε`. -/
lemma abs_sq_sub_le_iff {r x ε : ℝ} (hr : 0 < r) (hx : r ≤ x) (hε : 0 ≤ ε) :
    |x ^ 2 - r ^ 2| ≤ ε * r ^ 2 ↔ deviation r x ≤ deviation 1 √(1 + ε) := by
  have hxpos := hr.trans_le hx
  have hroot : 0 < √(1 + ε) := Real.sqrt_pos.mpr (by linarith)
  have hscaled : deviation 1 √(1 + ε) = deviation r (r * √(1 + ε)) := by
    rw [← deviation_mul hr.ne' 1, mul_one]
  rw [hscaled, deviation_le_iff hr hxpos (mul_pos hr hroot)]
  have hnonneg : 0 ≤ x ^ 2 - r ^ 2 := by nlinarith
  have hsquare : (r * √(1 + ε)) ^ 2 = r ^ 2 + ε * r ^ 2 := by
    rw [mul_pow, Real.sq_sqrt (by linarith)]
    ring
  rw [abs_of_nonneg hnonneg, sub_le_iff_le_add', ← hsquare,
    pow_le_pow_iff_left₀ hxpos.le (mul_pos hr hroot).le two_ne_zero]

end NewtonSqrt
