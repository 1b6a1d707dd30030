import Mathlib.Tactic

/-!
# Scaling by fractions with truncation

A number scaled by a list of fractions, one after the other, with every division rounded down.

The truncated result and what the truncations lose add up to the exact product
(`floorScale_add_scalingLoss`), so the result is never above it, and fractions of at most one never
increase the number (`floorScale_le_self`).
-/

namespace FloorScaling

/-- Scale by fractions, rounding down after each. -/
def floorScale (x : ℕ) : List (ℕ × ℕ) → ℕ
  | [] => x
  | (num, den) :: rest => floorScale (x * num / den) rest

/-- The product of the fractions. -/
def ratio (steps : List (ℕ × ℕ)) : ℚ := (steps.map fun step => (step.1 : ℚ) / step.2).prod

/-- What rounding down loses: the remainder of each division, scaled by the fractions after it. -/
def scalingLoss (x : ℕ) : List (ℕ × ℕ) → ℚ
  | [] => 0
  | (num, den) :: rest =>
    ((x * num % den : ℕ) : ℚ) / den * ratio rest + scalingLoss (x * num / den) rest

@[simp] lemma ratio_nil : ratio [] = 1 := rfl

@[simp] lemma ratio_cons (num den : ℕ) (rest : List (ℕ × ℕ)) :
    ratio ((num, den) :: rest) = (num : ℚ) / den * ratio rest := by
  simp [ratio]

/-- The product of the fractions is not negative. -/
lemma ratio_nonneg (steps : List (ℕ × ℕ)) : 0 ≤ ratio steps := by
  refine List.prod_nonneg ?_
  intro x hx
  obtain ⟨step, -, rfl⟩ := List.mem_map.mp hx
  positivity

/-- A quotient and the fraction that is left over. -/
lemma cast_div_add_mod (m den : ℕ) : ((m / den : ℕ) : ℚ) + ((m % den : ℕ) : ℚ) / den = m / den := by
  rcases Nat.eq_zero_or_pos den with rfl | hden
  · simp
  · have hne : (den : ℚ) ≠ 0 := by exact_mod_cast hden.ne'
    rw [eq_div_iff hne, add_mul, div_mul_cancel₀ _ hne]
    exact_mod_cast Nat.div_add_mod' m den

/-- The truncated result and what was lost are the exact product. -/
theorem floorScale_add_scalingLoss (x : ℕ) (steps : List (ℕ × ℕ)) :
    (floorScale x steps : ℚ) + scalingLoss x steps = x * ratio steps := by
  induction steps generalizing x with
  | nil => simp [floorScale, scalingLoss]
  | cons step rest ih =>
    obtain ⟨num, den⟩ := step
    calc (floorScale x ((num, den) :: rest) : ℚ) + scalingLoss x ((num, den) :: rest)
        = ((x * num % den : ℕ) : ℚ) / den * ratio rest +
            ((floorScale (x * num / den) rest : ℚ) + scalingLoss (x * num / den) rest) := by
          rw [floorScale, scalingLoss]
          ring
      _ = (((x * num / den : ℕ) : ℚ) + ((x * num % den : ℕ) : ℚ) / den) * ratio rest := by
          rw [ih]
          ring
      _ = x * ratio ((num, den) :: rest) := by
          rw [cast_div_add_mod, ratio_cons]
          push_cast
          ring

/-- Rounding down never gains. -/
lemma scalingLoss_nonneg (x : ℕ) (steps : List (ℕ × ℕ)) : 0 ≤ scalingLoss x steps := by
  induction steps generalizing x with
  | nil => exact le_rfl
  | cons step rest ih =>
    have hrest := ratio_nonneg rest
    have hloss := ih (x * step.1 / step.2)
    rw [scalingLoss]
    positivity

/-- The truncated result is at most the exact product. -/
lemma floorScale_le (x : ℕ) (steps : List (ℕ × ℕ)) :
    (floorScale x steps : ℚ) ≤ x * ratio steps := by
  linarith [floorScale_add_scalingLoss x steps, scalingLoss_nonneg x steps]

/-- Fractions of at most one do not increase a number. -/
lemma floorScale_le_self {steps : List (ℕ × ℕ)} (h : ∀ step ∈ steps, step.1 ≤ step.2) (x : ℕ) :
    floorScale x steps ≤ x := by
  induction steps generalizing x with
  | nil => exact le_rfl
  | cons step rest ih =>
    have hstep : step.1 ≤ step.2 := h step List.mem_cons_self
    have hdiv : x * step.1 / step.2 ≤ x := by
      refine Nat.div_le_of_le_mul ?_
      rw [Nat.mul_comm step.2 x]
      exact Nat.mul_le_mul_left x hstep
    rw [floorScale]
    exact (ih (fun step' hmem => h step' (List.mem_cons_of_mem _ hmem)) _).trans hdiv

end FloorScaling
