import Mathlib.Data.Rat.Floor
import Mathlib.Tactic
import HftArb.Foundations.Saturating

/-!
# Decimals, fixed-point words and signed 64-bit clamping

`Decimal` stands for the decimal numbers of the program, taken as exact rationals: the rounding of
the last of their digits and the end of the program beyond the 96-bit mantissa are not part of a
statement over `Decimal`, unless it says so.  The module of `RustDecimal` has both, for the
statements that depend on them.

The conversions to machine integers keep their truncation and their range check (`Decimal.toU64`,
`Decimal.toI64`), and `decimalToFp` is the conversion of a dollar amount to micro-dollars used by
the execution engine and by the balance allocator, with its two clamps.
-/

namespace HftArb

open Saturating

/-- A decimal number of the program, as an exact rational. -/
abbrev Decimal := ℚ

/-- The largest signed 64-bit integer. -/
def i64Max : ℤ := 9223372036854775807

/-- The smallest signed 64-bit integer. -/
def i64Min : ℤ := -9223372036854775808

/-- Clamp an integer to the signed 64-bit range. -/
def clampI64 (z : ℤ) : ℤ := max i64Min (min z i64Max)

/-- `i64::saturating_sub`. -/
def satSubI64 (a b : ℤ) : ℤ := clampI64 (a - b)

/-- `i64::saturating_add`. -/
def satAddI64 (a b : ℤ) : ℤ := clampI64 (a + b)

/-- The integer part of a decimal, towards zero. -/
def Decimal.trunc (d : Decimal) : ℤ := if 0 ≤ d then ⌊d⌋ else ⌈d⌉

/-- `Decimal::to_u64`: the integer part, or nothing when the value is negative or too large. -/
def Decimal.toU64 (d : Decimal) : Option UInt64 :=
  if d < 0 then none
  else if 2 ^ 64 ≤ ⌊d⌋.toNat then none
  else some (UInt64.ofNat ⌊d⌋.toNat)

/-- `Decimal::to_i64`: the integer part, or nothing when it leaves the signed 64-bit range. -/
def Decimal.toI64 (d : Decimal) : Option ℤ :=
  if i64Min ≤ Decimal.trunc d ∧ Decimal.trunc d ≤ i64Max then some (Decimal.trunc d) else none

/-- `Decimal::round`: to the nearest integer, a tie going to the even neighbour. -/
def Decimal.round (d : Decimal) : ℤ :=
  if d - ⌊d⌋ < 1 / 2 then ⌊d⌋
  else if 1 / 2 < d - ⌊d⌋ then ⌊d⌋ + 1
  else if ⌊d⌋ % 2 = 0 then ⌊d⌋ else ⌊d⌋ + 1

/-- A 64-bit word as a decimal, `Decimal::from`. -/
def Decimal.ofU64 (n : UInt64) : Decimal := (n.toNat : ℚ)

/-- The number of micro-units in one unit, `FP_SCALE`. -/
def fpScale : Decimal := 1000000

/-- `decimal_to_fp`: a dollar amount in micro-dollars, truncated; a negative amount becomes zero and
an amount beyond the word range the largest word.  From about 7.9e22 dollars on the program stops in
the product with a million, where this is still the largest word: `fpOrPanic_eq` relates the two. -/
def decimalToFp (d : Decimal) : UInt64 :=
  if d < 0 then 0
  else if Decimal.ofU64 maxWord < d * fpScale then maxWord
  else (Decimal.toU64 (d * fpScale)).getD 0

/-- `fp_to_decimal`: micro-units back to a decimal. -/
def fpToDecimal (fp : UInt64) : Decimal := Decimal.ofU64 fp / fpScale

/-- A word read as a decimal is not negative. -/
lemma Decimal.ofU64_nonneg (n : UInt64) : 0 ≤ Decimal.ofU64 n := by
  unfold Decimal.ofU64
  positivity

/-- A balance read back from micro-units is not negative. -/
lemma fpToDecimal_nonneg (fp : UInt64) : 0 ≤ fpToDecimal fp :=
  div_nonneg (Decimal.ofU64_nonneg fp) (by norm_num [fpScale])

/-- The integer part of a decimal reaches a positive word exactly when the decimal does and its
integer part is a word. -/
lemma Decimal.le_toU64_iff {d : Decimal} (hd : 0 ≤ d) {w : UInt64} (hw : 0 < w) :
    w ≤ (Decimal.toU64 d).getD 0 ↔ Decimal.ofU64 w ≤ d ∧ d < 2 ^ 64 := by
  have hbig : 2 ^ 64 ≤ ⌊d⌋.toNat ↔ ¬ d < 2 ^ 64 := by
    rw [Int.floor_toNat, Nat.le_floor_iff hd, not_lt]
    push_cast
    rfl
  unfold Decimal.toU64
  rw [if_neg (not_lt.mpr hd)]
  by_cases hfits : 2 ^ 64 ≤ ⌊d⌋.toNat
  · have hzero : ¬ w ≤ 0 := UInt64.not_le.mpr hw
    rw [if_pos hfits]
    exact iff_of_false hzero fun h => hbig.mp hfits h.2
  · rw [if_neg hfits, Option.getD_some, UInt64.le_iff_toNat_le,
      UInt64.toNat_ofNat_of_lt' (not_le.mp hfits), Int.floor_toNat, Nat.le_floor_iff hd]
    exact (and_iff_left (not_not.mp (mt hbig.mpr hfits))).symm

example : decimalToFp (1 / 2) = 500000 := by decide +kernel

example : Decimal.round (-5 / 2) = -2 := by decide +kernel

end HftArb
