import Mathlib.Tactic

/-!
# Decimal numerals in words of bounded width

Numbers read digit by digit with multiplications and additions that are checked against a width.
`numeral` is the number that a list of digits stands for; `readDigits_eq_checked` says that the
checked reading returns it exactly when it fits the word, and `numeral_lt` bounds it by the number
of digits.  `parseU64Text` reads such a number from a text.
-/

namespace Numerals

/-- A number that fits a word of `w` bits. -/
def checked (w n : ℕ) : Option ℕ := if n < 2 ^ w then some n else none

lemma checked_of_lt {w n : ℕ} (h : n < 2 ^ w) : checked w n = some n := if_pos h

/-- The number whose decimal digits follow those of `v`. -/
def numeral : ℕ → List ℕ → ℕ
  | v, [] => v
  | v, d :: ds => numeral (v * 10 + d) ds

/-- Read digits after those of `v`, with every operation checked. -/
def readDigits (w : ℕ) : ℕ → List ℕ → Option ℕ
  | v, [] => some v
  | v, d :: ds =>
    (checked w (v * 10)).bind fun scaled =>
      (checked w (scaled + d)).bind fun next => readDigits w next ds

/-- More digits do not make a number smaller. -/
lemma le_numeral (v : ℕ) (ds : List ℕ) : v ≤ numeral v ds := by
  induction ds generalizing v with
  | nil => exact le_rfl
  | cons d ds ih =>
    have hnext := ih (v * 10 + d)
    rw [numeral]
    omega

/-- The checked reading returns the number when it fits, and nothing when it does not. -/
lemma readDigits_eq_checked {w v : ℕ} {ds : List ℕ} (hv : v < 2 ^ w) :
    readDigits w v ds = checked w (numeral v ds) := by
  induction ds generalizing v with
  | nil => exact (checked_of_lt hv).symm
  | cons d ds ih =>
    have hle := le_numeral (v * 10 + d) ds
    rw [readDigits, numeral]
    by_cases hnext : v * 10 + d < 2 ^ w
    · have hscaled : checked w (v * 10) = some (v * 10) := checked_of_lt (by omega)
      rw [hscaled, Option.bind_some, checked_of_lt hnext, Option.bind_some, ih hnext]
    · -- one of the two checks fails, and more digits do not help
      have hover : checked w (numeral (v * 10 + d) ds) = none := if_neg (by omega)
      have hadd : checked w (v * 10 + d) = none := if_neg hnext
      rw [hover]
      by_cases hscaled : v * 10 < 2 ^ w
      · rw [checked_of_lt hscaled, Option.bind_some, hadd, Option.bind_none]
      · rw [show checked w (v * 10) = none from if_neg hscaled, Option.bind_none]

/-- The checked reading returns every number that fits. -/
lemma readDigits_of_lt {w v : ℕ} {ds : List ℕ} (h : numeral v ds < 2 ^ w) :
    readDigits w v ds = some (numeral v ds) := by
  rw [readDigits_eq_checked ((le_numeral v ds).trans_lt h), checked_of_lt h]

/-- A number is bounded by its number of digits. -/
lemma numeral_lt {v : ℕ} {ds : List ℕ} (h : ∀ d ∈ ds, d < 10) :
    numeral v ds < (v + 1) * 10 ^ ds.length := by
  induction ds generalizing v with
  | nil => simp [numeral]
  | cons d ds ih =>
    obtain ⟨hd, hds⟩ := List.forall_mem_cons.mp h
    have hrest := ih (v := v * 10 + d) hds
    have hle : v * 10 + d + 1 ≤ (v + 1) * 10 := by omega
    calc numeral v (d :: ds) < (v * 10 + d + 1) * 10 ^ ds.length := hrest
      _ ≤ (v + 1) * 10 * 10 ^ ds.length := Nat.mul_le_mul_right _ hle
      _ = (v + 1) * 10 ^ (d :: ds).length := by rw [List.length_cons, pow_succ]; ring

/-! ## Digits -/

lemma zero_lt_ten : 0 < 10 := by decide

lemma one_lt_ten : 1 < 10 := by decide

lemma two_lt_ten : 2 < 10 := by decide

lemma three_lt_ten : 3 < 10 := by decide

lemma five_lt_ten : 5 < 10 := by decide

/-- The value of a digit. -/
def digitOf (c : Char) : ℕ := c.toNat - '0'.toNat

/-- `str::parse::<u64>`: a plus sign may stand before the digits. -/
def parseU64Text (text : List Char) : Option UInt64 :=
  let digits := if text.head? = some '+' then text.tail else text
  if digits = [] ∨ digits.all Char.isDigit = false then none
  else (readDigits 64 0 (digits.map digitOf)).map UInt64.ofNat

/-! ## Printed numbers -/

/-- A number is printed in one way only. -/
lemma toDigits_injective {m n : ℕ} (h : Nat.toDigits 10 m = Nat.toDigits 10 n) : m = n := by
  rw [← Nat.ofDigitChars_ten_toDigits (n := m), h, Nat.ofDigitChars_ten_toDigits]

/-- A printed number consists of digits. -/
lemma notMem_toDigits {c : Char} (hc : c.isDigit = false) (n : ℕ) : c ∉ Nat.toDigits 10 n := by
  intro hmem
  rw [Nat.isDigit_of_mem_toDigits (by decide) (by decide) hmem] at hc
  cases hc

end Numerals
