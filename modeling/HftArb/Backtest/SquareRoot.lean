import HftArb.Backtest.Engine
import HftArb.Foundations.NewtonSqrt

/-!
# The square root of the Sharpe ratio

`decimalSqrt` takes twenty steps of Newton's method from half of the value.  While a guess is far
from the root a step only halves it, so that twenty steps reach the root of a value that is neither
too large nor too small: `decimalSqrt_accurate_iff`.  The range is `[16 / sqrtRange, sqrtRange]`;
it lies around four, where the first guess is the root.
-/

namespace HftArb

open NewtonSqrt

namespace Backtest

/-- The iterations are steps of Newton's method: a guess is never zero. -/
lemma decimalSqrtLoop_eq {value guess : Decimal} (hvalue : 0 < value) (hguess : 0 < guess) (n : ℕ) :
    decimalSqrtLoop value n guess = (step value)^[n] guess := by
  induction n generalizing guess with
  | zero => rfl
  | succ n ih =>
    rw [decimalSqrtLoop, if_neg hguess.ne', Function.iterate_succ_apply]
    exact ih (step_pos hvalue hguess)

/-- The square root of a positive value. -/
lemma decimalSqrt_eq {value : Decimal} (hvalue : 0 < value) (n : ℕ) :
    decimalSqrt value n = (step value)^[n] (value / 2) := by
  rw [decimalSqrt, if_neg (not_le.mpr hvalue), decimalSqrtLoop_eq hvalue (half_pos hvalue)]

/-- The steps over the reals. -/
lemma cast_iterate_step (value guess : ℚ) (n : ℕ) :
    (((step value)^[n] guess : ℚ) : ℝ) = (step (value : ℝ))^[n] guess := by
  induction n with
  | zero => rfl
  | succ n ih =>
    rw [Function.iterate_succ_apply', Function.iterate_succ_apply', ← ih]
    simp [step]

/-- The deviation of a root that is accurate to a millionth. -/
noncomputable def accurateDeviation : ℝ := deviation 1 √(1 + 1 / 10 ^ 6)

/-- The deviation of the first guess from which twenty steps lead to an accurate root. -/
noncomputable def firstDeviation : ℝ := accurateDeviation ^ ((2 ^ sqrtIterations : ℕ) : ℝ)⁻¹

/-- The largest value whose root is accurate. -/
noncomputable def sqrtRange : ℝ := 4 * ((1 + firstDeviation) / (1 - firstDeviation)) ^ 2

lemma sqrtRange_eq : sqrtRange = (2 * ((1 + firstDeviation) / (1 - firstDeviation))) ^ 2 := by
  unfold sqrtRange
  ring

lemma accurateDeviation_mem : 0 < accurateDeviation ∧ accurateDeviation < 1 := by
  have hroot : 1 < √(1 + 1 / 10 ^ 6 : ℝ) := by
    rw [Real.lt_sqrt zero_le_one]
    norm_num
  have hsum : 0 < √(1 + 1 / 10 ^ 6 : ℝ) + 1 := by linarith
  unfold accurateDeviation deviation
  refine ⟨div_pos (by linarith) hsum, ?_⟩
  rw [div_lt_one hsum]
  linarith

lemma firstDeviation_mem : 0 < firstDeviation ∧ firstDeviation < 1 := by
  obtain ⟨hpos, hlt⟩ := accurateDeviation_mem
  refine ⟨Real.rpow_pos_of_pos hpos _, Real.rpow_lt_one hpos.le hlt ?_⟩
  positivity

lemma firstDeviation_pow : firstDeviation ^ 2 ^ sqrtIterations = accurateDeviation :=
  Real.rpow_inv_natCast_pow accurateDeviation_mem.1.le (by positivity)

/-- The first guess is off the root by the factor by which the root is off two. -/
lemma deviation_half {r : ℝ} (hr : 0 < r) : deviation r (r ^ 2 / 2) = deviation 2 r := by
  have hsplit : deviation r (r ^ 2 / 2) = deviation (r / 2 * 2) (r / 2 * r) := by
    congr 1 <;> ring
  rw [hsplit, deviation_mul (half_pos hr).ne']

/-- The root of a positive value is accurate to a millionth exactly when the value is in the
range. -/
theorem decimalSqrt_accurate_iff (v : Decimal) (hv : 0 < v) :
    |decimalSqrt v 20 * decimalSqrt v 20 - v| ≤ 1 / 10 ^ 6 * v ↔
      16 / sqrtRange ≤ v ∧ (v : ℝ) ≤ sqrtRange := by
  obtain ⟨hρ₀, hρ₁⟩ := firstDeviation_mem
  have hvreal : (0 : ℝ) < v := by exact_mod_cast hv
  have hr : 0 < √(v : ℝ) := Real.sqrt_pos.mpr hvreal
  have hsq : √(v : ℝ) ^ 2 = v := Real.sq_sqrt hvreal.le
  have hroot : ((decimalSqrt v 20 : ℚ) : ℝ) = (step (v : ℝ))^[sqrtIterations] ((v : ℝ) / 2) := by
    rw [decimalSqrt_eq hv, cast_iterate_step]
    push_cast
    rfl
  generalize decimalSqrt v 20 = s at hroot ⊢
  have hspos : (0 : ℝ) < s := hroot ▸ iterate_pos hvreal (half_pos hvreal) _
  have hdeviation : deviation √(v : ℝ) s = deviation 2 √(v : ℝ) ^ 2 ^ sqrtIterations := by
    rw [hroot, deviation_iterate hr hsq (half_pos hvreal)]
    congr 1
    rw [← deviation_half hr, hsq]
  have heven : Even (2 ^ sqrtIterations) := (Nat.even_pow' (by decide)).mpr even_two
  have habove : √(v : ℝ) ≤ s := by
    rw [← deviation_nonneg_iff hr hspos, hdeviation]
    exact heven.pow_nonneg _
  have hcast : |s * s - v| ≤ 1 / 10 ^ 6 * v ↔
      |(s : ℝ) ^ 2 - √(v : ℝ) ^ 2| ≤ 1 / 10 ^ 6 * √(v : ℝ) ^ 2 := by
    rw [hsq, sq, ← Rat.cast_le (K := ℝ)]
    push_cast
    rfl
  rw [hcast, abs_sq_sub_le_iff hr habove (by norm_num), hdeviation, ← accurateDeviation,
    ← firstDeviation_pow, ← heven.pow_abs,
    pow_le_pow_iff_left₀ (abs_nonneg _) hρ₀.le (by positivity),
    abs_deviation_le_iff two_pos hr hρ₀.le hρ₁]
  have hplus : 0 < 1 + firstDeviation := by linarith
  have hminus : 0 < 1 - firstDeviation := by linarith
  have hlower : (2 * ((1 - firstDeviation) / (1 + firstDeviation))) ^ 2 = 16 / sqrtRange := by
    rw [sqrtRange_eq]
    field_simp
    norm_num
  rw [← hlower, sqrtRange_eq, Real.le_sqrt' (by positivity), Real.sqrt_le_left (by positivity)]

/-- The range reaches at least from `16 / 10 ^ 10` to `10 ^ 10`. -/
lemma lt_sqrtRange : 10 ^ 10 < sqrtRange := by
  obtain ⟨hρ₀, hρ₁⟩ := firstDeviation_mem
  have haccurate : 1 / 10 ^ 7 < accurateDeviation := by
    have hroot : 1 + 4 / 10 ^ 7 < √(1 + 1 / 10 ^ 6 : ℝ) := by
      rw [Real.lt_sqrt (by norm_num)]
      norm_num
    unfold accurateDeviation deviation
    rw [lt_div_iff₀ (by linarith)]
    linarith
  have hgrows : (3 : ℝ) ≤ (50001 / 49999) ^ 2 ^ 16 := by
    calc (3 : ℝ) ≤ 1 + (2 ^ 16 : ℕ) * (2 / 49999) := by norm_num
      _ ≤ (1 + 2 / 49999) ^ 2 ^ 16 := one_add_mul_le_pow (by norm_num) (2 ^ 16)
      _ = (50001 / 49999) ^ 2 ^ 16 := congrArg (· ^ 2 ^ 16) (by norm_num)
  -- `49999 / 50001` is the first deviation of the value `10 ^ 10`
  have hsmall : (49999 / 50001 : ℝ) ^ 2 ^ sqrtIterations < firstDeviation ^ 2 ^ sqrtIterations := by
    have hexponent : 2 ^ sqrtIterations = 2 ^ 16 * 16 := by norm_num [sqrtIterations]
    calc (49999 / 50001 : ℝ) ^ 2 ^ sqrtIterations = (((50001 / 49999) ^ 2 ^ 16)⁻¹) ^ 16 := by
          rw [hexponent, pow_mul, ← inv_pow, inv_div]
      _ ≤ 3⁻¹ ^ 16 := by gcongr
      _ < 1 / 10 ^ 7 := by norm_num
      _ < firstDeviation ^ 2 ^ sqrtIterations := by rwa [firstDeviation_pow]
  have hfirst := lt_of_pow_lt_pow_left₀ _ hρ₀.le hsmall
  have hratio : 50000 < (1 + firstDeviation) / (1 - firstDeviation) := by
    rw [lt_div_iff₀ (by linarith)]
    linarith
  unfold sqrtRange
  nlinarith

/-- The annual factor is accurate. -/
theorem decimalSqrt_accurate_iff_annual :
    |decimalSqrt 31536000 20 * decimalSqrt 31536000 20 - 31536000| ≤ 1 / 10 ^ 6 * 31536000 := by
  have hrange := lt_sqrtRange
  refine (decimalSqrt_accurate_iff 31536000 (by norm_num)).mpr ⟨?_, ?_⟩
  · rw [div_le_iff₀ (by linarith)]
    push_cast
    linarith
  · push_cast
    linarith

/-- The root of a variance of `10 ^ (-24)` is far too large. -/
theorem decimalSqrt_of_tiny :
    ¬ |decimalSqrt (1 / 10 ^ 24) 20 * decimalSqrt (1 / 10 ^ 24) 20 - 1 / 10 ^ 24| ≤
      1 / 10 ^ 6 * (1 / 10 ^ 24) := by
  have hfirst : (1 : ℚ) ≤ step (1 / 10 ^ 24) (1 / 10 ^ 24 / 2) := by
    norm_num [step]
  have hhalf := div_pow_le_iterate (by norm_num : (0 : ℚ) < 1 / 10 ^ 24)
    (zero_lt_one.trans_le hfirst) 19
  rw [← Function.iterate_succ_apply, ← decimalSqrt_eq (by norm_num)] at hhalf
  have hlarge : (1 / 2 ^ 19 : ℚ) ≤ decimalSqrt (1 / 10 ^ 24) 20 :=
    (div_le_div_of_nonneg_right hfirst (by positivity)).trans hhalf
  generalize decimalSqrt (1 / 10 ^ 24) 20 = s at hlarge ⊢
  have hsquare : (1 / 2 ^ 38 : ℚ) ≤ s * s := by
    have hs : (0 : ℚ) ≤ s := (by positivity : (0 : ℚ) ≤ _).trans hlarge
    calc (1 / 2 ^ 38 : ℚ) = 1 / 2 ^ 19 * (1 / 2 ^ 19) := by norm_num
      _ ≤ s * s := mul_le_mul hlarge hlarge (by positivity) hs
  rw [not_le]
  refine lt_of_lt_of_le ?_ (le_abs_self _)
  refine lt_of_lt_of_le ?_ (sub_le_sub_right hsquare _)
  norm_num

end Backtest

end HftArb
