import HftArb.Capital.BalanceAllocator
import HftArb.Capital.RebalanceMatrix

/-!
# Micro-units over the whole decimal range

A decimal has a mantissa of 96 bits and at most 28 places, and its multiplication panics when the
product is beyond the largest mantissa.  The product with a million is otherwise exact
(`RustDecimal.exists_value_eq_mul_fpScale`), so that a panic is all that separates the conversion
of the program from `decimalToFp`, which is total (`fpOrPanic_eq`).

Both copies of the conversion multiply before they compare the product with the largest word.  They
saturate for amounts up to the largest mantissa divided by a million, and panic beyond
(`decimalToFp_total_iff`).
-/

namespace HftArb

/-- The largest mantissa of a decimal. -/
def maxMantissa : ℕ := 79228162514264337593543950335

lemma maxMantissa_lt : maxMantissa < 2 ^ 96 := by norm_num [maxMantissa]

/-- The product of two decimals; beyond the largest mantissa the multiplication panics, which is
`none`. -/
def mulOrPanic (a b : Decimal) : Option Decimal :=
  if (maxMantissa : ℚ) < |a * b| then none else some (a * b)

namespace BalanceAllocator

/-- `decimal_to_fp` of the allocator; a panic is `none`. -/
def decimalToFp (d : RustDecimal) : Option UInt64 :=
  if d.value < 0 then some 0
  else
    (mulOrPanic d.value 1000000).map fun scaled =>
      if Decimal.ofU64 Saturating.maxWord < scaled then Saturating.maxWord
      else (Decimal.toU64 (Decimal.trunc scaled)).getD 0

end BalanceAllocator

namespace Execution

/-- `decimal_to_fp` of the execution engine; a panic is `none`. -/
def decimalToFp (d : RustDecimal) : Option UInt64 :=
  if d.value < 0 then some 0
  else
    (mulOrPanic d.value 1000000).map fun scaled =>
      if Decimal.ofU64 Saturating.maxWord < scaled then Saturating.maxWord
      else (Decimal.toU64 (Decimal.trunc scaled)).getD 0

end Execution

/-! ## The product with a million -/

namespace RustDecimal

/-- The sign does not count for the absolute value. -/
lemma abs_value (d : RustDecimal) : |d.value| = (d.mantissa : ℕ) / 10 ^ (d.scale : ℕ) := by
  unfold value
  split <;> simp [abs_div]

/-- Up to the largest mantissa the product with a million is itself a decimal: it has six places
less, or a longer mantissa. -/
lemma exists_value_eq_mul_fpScale (d : RustDecimal) (hfit : |d.value * fpScale| ≤ maxMantissa) :
    ∃ product : RustDecimal, product.value = d.value * fpScale := by
  rw [abs_mul, abs_value, abs_of_nonneg (by norm_num [fpScale])] at hfit
  obtain ⟨negative, ⟨places, hplaces⟩, ⟨m, hm⟩⟩ := d
  by_cases hsix : 6 ≤ places
  · refine ⟨⟨negative, ⟨places - 6, by omega⟩, ⟨m, hm⟩⟩, ?_⟩
    obtain ⟨k, rfl⟩ := Nat.exists_eq_add_of_le hsix
    simp only [value, fpScale, Nat.add_sub_cancel_left]
    field_simp
    rw [pow_add]
    ring
  · have hscaled : (m : ℚ) / 10 ^ places * fpScale = (m * 10 ^ (6 - places) : ℕ) := by
      have hpow : (10 : ℚ) ^ places * 10 ^ (6 - places) = fpScale := by
        rw [← pow_add, Nat.add_sub_cancel' (by omega)]
        norm_num [fpScale]
      rw [← hpow]
      push_cast
      field_simp
    have hmantissa : m * 10 ^ (6 - places) < 2 ^ 96 := by
      have hle : m * 10 ^ (6 - places) ≤ maxMantissa := by
        rw [hscaled] at hfit
        exact_mod_cast hfit
      exact lt_of_le_of_lt hle maxMantissa_lt
    refine ⟨⟨negative, ⟨0, by omega⟩, ⟨m * 10 ^ (6 - places), hmantissa⟩⟩, ?_⟩
    simp only [value, pow_zero, div_one]
    rw [← hscaled]
    ring

end RustDecimal

/-! ## Both copies of the conversion -/

/-- The word of a product that fits is that of the total conversion. -/
lemma scaled_word (d : Decimal) (hd : 0 ≤ d) :
    (if Decimal.ofU64 Saturating.maxWord < d * 1000000 then Saturating.maxWord
      else (Decimal.toU64 (Decimal.trunc (d * 1000000))).getD 0) = decimalToFp d := by
  have hscaled : 0 ≤ d * 1000000 := by positivity
  have htrunc : Decimal.toU64 (Decimal.trunc (d * 1000000)) = Decimal.toU64 (d * 1000000) := by
    have hfloor : (0 : ℚ) ≤ ⌊d * 1000000⌋ := by exact_mod_cast Int.floor_nonneg.mpr hscaled
    unfold Decimal.trunc Decimal.toU64
    rw [if_pos hscaled, if_neg (not_lt.mpr hscaled), if_neg (not_lt.mpr hfloor), Int.floor_intCast]
  unfold decimalToFp
  rw [if_neg (not_lt.mpr hd), htrunc]
  rfl

/-- The conversion of the program is the total one, but for the panic of the product. -/
lemma fpOrPanic_eq (d : RustDecimal) :
    BalanceAllocator.decimalToFp d =
      if d.value < 0 ∨ d.value * 1000000 ≤ maxMantissa then some (decimalToFp d.value)
      else none := by
  unfold BalanceAllocator.decimalToFp
  by_cases hneg : d.value < 0
  · have hzero : decimalToFp d.value = 0 := by
      unfold decimalToFp
      rw [if_pos hneg]
    rw [if_pos hneg, if_pos (Or.inl hneg), hzero]
  · have hnonneg := not_lt.mp hneg
    have habs : |d.value * 1000000| = d.value * 1000000 := abs_of_nonneg (by positivity)
    unfold mulOrPanic
    rw [if_neg hneg, habs]
    by_cases hfit : d.value * 1000000 ≤ maxMantissa
    · rw [if_pos (Or.inr hfit), if_neg (not_lt.mpr hfit), Option.map_some, scaled_word _ hnonneg]
    · rw [if_neg (not_or.mpr ⟨hneg, hfit⟩), if_pos (not_le.mp hfit), Option.map_none]

/-- The copies agree. -/
lemma execution_decimalToFp_eq (d : RustDecimal) :
    Execution.decimalToFp d = BalanceAllocator.decimalToFp d := rfl

/-- Both copies give the micro-units up to the largest word, and zero for a negative amount, exactly
when the amount is negative or its product with a million is within the largest mantissa. -/
theorem decimalToFp_total_iff (d : RustDecimal) :
    (∃ fp, BalanceAllocator.decimalToFp d = some fp ∧ Execution.decimalToFp d = some fp ∧
      fp.toNat = if d.value < 0 then 0 else min (2 ^ 64 - 1) ⌊d.value * 1000000⌋.toNat) ↔
    d.value < 0 ∨ d.value * 1000000 ≤ 79228162514264337593543950335 := by
  rw [execution_decimalToFp_eq, fpOrPanic_eq]
  constructor
  · rintro ⟨fp, hfp, -, -⟩
    by_contra hcond
    rw [if_neg (by exact_mod_cast hcond)] at hfp
    cases hfp
  · intro hcond
    refine ⟨decimalToFp d.value, ?_, ?_, ?_⟩
    · rw [if_pos (by exact_mod_cast hcond)]
    · rw [if_pos (by exact_mod_cast hcond)]
    · rw [decimalToFp_toNat]
      split
      · next hneg =>
        have hfloor : ⌊d.value * fpScale⌋ ≤ 0 :=
          Int.floor_nonpos (mul_nonpos_of_nonpos_of_nonneg hneg.le (by norm_num [fpScale]))
        rw [microUnits, Int.toNat_of_nonpos hfloor]
        rfl
      · exact min_comm _ _

lemma zero_lt_scales : 0 < 29 := by decide

/-- The largest decimal. -/
def largestDecimal : RustDecimal :=
  ⟨false, ⟨0, zero_lt_scales⟩, ⟨maxMantissa, maxMantissa_lt⟩⟩

/-- The largest decimal makes the multiplication panic instead of being capped. -/
theorem largestDecimal_panics :
    BalanceAllocator.decimalToFp largestDecimal = none ∧
      Execution.decimalToFp largestDecimal = none := by
  have hnone : BalanceAllocator.decimalToFp largestDecimal = none := by decide +kernel
  exact ⟨hnone, hnone⟩

end HftArb
