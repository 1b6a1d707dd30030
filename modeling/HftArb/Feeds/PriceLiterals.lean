import HftArb.Feeds.ReportMessages

/-!
# Prices as number literals

`parseU64SkipDot` on the number literals of JSON, with what may follow them.

A literal without sign and exponent is read up to its end, rounded down to nine decimal places,
unless its digits overflow (`parseU64SkipDot_plain`).  Before an exponent the parser stops as before
any other byte and returns the number to the left of it; `priced_iff` says when that is the price
all the same.
-/

namespace HftArb

open Numerals TickerParser

namespace OrderFeed

/-! ## Plain decimals -/

/-- A decimal is read, rounded down to nine decimal places, up to its end; there is nothing when its
digits do not fit a word, when the rounded price does not, or with more than 28 decimal places. -/
theorem parseU64SkipDot_plain (n : JsonNumber) {rest : List UInt8} (hrest : NumberEnds rest) :
    (n.Readable → ∃ v : UInt64, parseU64SkipDot (n.render ++ rest) = some (v, rest) ∧
      v.toNat = ⌊n.value * 10 ^ 9⌋₊) ∧
    (¬ n.Readable → parseU64SkipDot (n.render ++ rest) = none) := by
  rw [parseU64SkipDot_eq n hrest]
  constructor
  · intro hn
    rw [if_pos hn]
    exact ⟨_, rfl, UInt64.toNat_ofNat_of_lt' hn.nano_lt⟩
  · intro hn
    rw [if_neg hn]

/-- A price of five and a half. -/
def halfPrice : JsonNumber := ⟨[five], [five], five_ne_nil⟩

/-- The price is read before a comma. -/
theorem parseU64SkipDot_plain_half :
    ∃ v : UInt64, parseU64SkipDot (halfPrice.render ++ [comma]) = some (v, [comma]) ∧
      v.toNat = ⌊halfPrice.value * 10 ^ 9⌋₊ :=
  (parseU64SkipDot_plain halfPrice (numberEnds_cons (by decide) (by decide) [])).1
    (by decide +kernel)

/-- The digit 0. -/
def zero : Fin 10 := ⟨0, zero_lt_ten⟩

/-- The digit 2. -/
def two : Fin 10 := ⟨2, two_lt_ten⟩

/-- The digit 3. -/
def three : Fin 10 := ⟨3, three_lt_ten⟩

lemma two_ne_nil : [two] ≠ [] := List.cons_ne_nil _ _

lemma three_ne_nil : [three] ≠ [] := List.cons_ne_nil _ _

/-- Two, with nineteen zeros behind the dot. -/
def longTwo : JsonNumber := ⟨[two], List.replicate 19 zero, two_ne_nil⟩

/-- A price of two with many zeros is not read, although two billion units fit a word. -/
theorem longTwo_not_read :
    ¬ ∀ (n : JsonNumber) (rest : List UInt8), NumberEnds rest → ⌊n.value * 10 ^ 9⌋₊ < 2 ^ 64 →
      ∃ v : UInt64, parseU64SkipDot (n.render ++ rest) = some (v, rest) ∧
        v.toNat = ⌊n.value * 10 ^ 9⌋₊ := by
  intro h
  obtain ⟨v, hv, -⟩ := h longTwo [comma] (numberEnds_cons (by decide) (by decide) [])
    (by decide +kernel)
  have hnone : parseU64SkipDot (longTwo.render ++ [comma]) = none := by decide +kernel
  rw [hnone] at hv
  cases hv

/-! ## Exponents -/

/-- The number that an exponent stands for. -/
def Exponent.value (e : Exponent) : ℤ :=
  (if e.sign = [45] then -1 else 1) * (numeral 0 (e.digits.map Fin.val) : ℕ)

namespace NumberLiteral

/-- The part of a literal between its sign and its exponent. -/
def plain (n : NumberLiteral) : JsonNumber := ⟨n.integer, n.fraction, n.integer_ne⟩

/-- The power of ten that scales a literal. -/
def power (n : NumberLiteral) : ℤ := (n.exponent.map Exponent.value).getD 0

/-- The number that a literal stands for. -/
def value (n : NumberLiteral) : ℚ := (if n.negative then -1 else 1) * (n.plain.value * 10 ^ n.power)

/-- Whatever the parser makes of a literal is its price. -/
def Priced (n : NumberLiteral) (rest : List UInt8) : Prop :=
  ∀ v rest', parseU64SkipDot (n.render ++ rest) = some (v, rest') →
    v.toNat = ⌊n.value * 10 ^ 9⌋₊

/-- The exponent does not change the price: it is zero, or the price is below one unit with it and
without it. -/
def ExponentHarmless (n : NumberLiteral) : Prop :=
  n.power = 0 ∨ n.plain.value * 10 ^ 9 < 1 ∧ n.plain.value * 10 ^ n.power * 10 ^ 9 < 1

/-- A literal without a sign begins with its plain part. -/
lemma render_of_not_negative {n : NumberLiteral} (h : n.negative = false) :
    n.render = n.plain.render ++ (n.exponent.map Exponent.render).getD [] := by
  rw [render, h, suffix, JsonNumber.render, List.append_assoc]
  rfl

/-- An exponent does not go on with the number before it. -/
lemma numberEnds_exponent (n : NumberLiteral) {rest : List UInt8} (hrest : NumberEnds rest) :
    NumberEnds ((n.exponent.map Exponent.render).getD [] ++ rest) := by
  cases n.exponent with
  | none => exact hrest
  | some e =>
    rcases e.mark_eq with hmark | hmark
    · refine numberEnds_cons ?_ ?_ _ <;> rw [hmark] <;> decide
    · refine numberEnds_cons ?_ ?_ _ <;> rw [hmark] <;> decide

/-- A sign is not read. -/
lemma parseU64SkipDot_negative {n : NumberLiteral} (h : n.negative = true) (rest : List UInt8) :
    parseU64SkipDot (n.render ++ rest) = none := by
  have hscan : ∀ bytes, scanNumber false 0 (45 :: bytes) = ([], 0, 45 :: bytes) := by
    intro bytes
    rw [scanNumber, if_neg (by decide), if_neg (by decide)]
  rw [render, if_pos h, List.append_assoc, List.singleton_append, parseU64SkipDot, hscan]
  exact if_pos rfl

/-- The price of the plain part is not negative. -/
lemma plain_value_nonneg (n : NumberLiteral) : 0 ≤ n.plain.value := by
  rw [JsonNumber.value]
  positivity

end NumberLiteral

/-- A positive power of ten moves a number of at least one to another integer part. -/
lemma floor_lt_floor_mul_zpow {x : ℚ} (hx : 1 ≤ x) {e : ℤ} (he : 0 < e) :
    ⌊x⌋₊ < ⌊x * 10 ^ e⌋₊ := by
  have hten : (10 : ℚ) ≤ 10 ^ e := by
    calc (10 : ℚ) = 10 ^ (1 : ℤ) := (zpow_one _).symm
      _ ≤ 10 ^ e := zpow_le_zpow_right₀ (by norm_num) he
  refine Nat.lt_of_succ_le (Nat.le_floor ?_)
  have hfloor : (⌊x⌋₊ : ℚ) ≤ x := Nat.floor_le (by linarith)
  push_cast
  nlinarith

/-- A power of ten leaves the integer part alone exactly when it is zero, or the number is below one
with it and without it. -/
lemma floor_mul_zpow_eq_iff {x : ℚ} (hx : 0 ≤ x) (e : ℤ) :
    ⌊x⌋₊ = ⌊x * 10 ^ e⌋₊ ↔ e = 0 ∨ x < 1 ∧ x * 10 ^ e < 1 := by
  have hscaled : 0 ≤ x * (10 : ℚ) ^ e := by positivity
  constructor
  · intro h
    by_contra hnot
    push Not at hnot
    obtain ⟨he, hlarge⟩ := hnot
    by_cases hone : x < 1
    · have hzero : ⌊x * 10 ^ e⌋₊ = 0 := h ▸ Nat.floor_eq_zero.mpr hone
      exact absurd (Nat.floor_eq_zero.mp hzero) (not_lt.mpr (hlarge hone))
    · rcases lt_or_gt_of_ne he with hneg | hpos
      · -- seen from the scaled number the power is positive
        have hback : x * 10 ^ e * 10 ^ (-e) = x := by
          rw [mul_assoc, ← zpow_add₀ (by norm_num), add_neg_cancel, zpow_zero, mul_one]
        have hscaledOne : 1 ≤ x * 10 ^ e := by
          by_contra hlt
          have hzero : ⌊x⌋₊ = 0 := h.trans (Nat.floor_eq_zero.mpr (not_le.mp hlt))
          exact hone (Nat.floor_eq_zero.mp hzero)
        have hlt := floor_lt_floor_mul_zpow hscaledOne (by omega : 0 < -e)
        rw [hback] at hlt
        omega
      · have hlt := floor_lt_floor_mul_zpow (not_lt.mp hone) hpos
        omega
  · rintro (rfl | ⟨hlt, hscaledLt⟩)
    · rw [zpow_zero, mul_one]
    · rw [Nat.floor_eq_zero.mpr hlt, Nat.floor_eq_zero.mpr hscaledLt]

namespace NumberLiteral

/-- A literal is priced right exactly when it is refused, for its sign or for an overflow of its
digits, or when its exponent does not change the price. -/
theorem priced_iff (n : NumberLiteral) {rest : List UInt8} (hrest : NumberEnds rest) :
    n.Priced rest ↔ n.negative = true ∨ ¬ n.plain.Readable ∨ n.ExponentHarmless := by
  unfold Priced
  cases hsign : n.negative with
  | true =>
    refine iff_of_true ?_ (Or.inl rfl)
    intro v rest' h
    rw [parseU64SkipDot_negative hsign] at h
    cases h
  | false =>
    have hprice : n.value * 10 ^ 9 = n.plain.value * 10 ^ 9 * 10 ^ n.power := by
      rw [value, hsign]
      simp only [Bool.false_eq_true, if_false, one_mul]
      ring
    have hfloor := floor_mul_zpow_eq_iff (mul_nonneg n.plain_value_nonneg
      (by norm_num : (0 : ℚ) ≤ 10 ^ 9)) n.power
    rw [render_of_not_negative hsign, List.append_assoc,
      parseU64SkipDot_eq n.plain (n.numberEnds_exponent hrest), hprice, ExponentHarmless,
      mul_right_comm n.plain.value (10 ^ n.power), ← hfloor]
    by_cases hread : n.plain.Readable
    · have hword : (UInt64.ofNat n.plain.nano).toNat = n.plain.nano :=
        UInt64.toNat_ofNat_of_lt' hread.nano_lt
      rw [if_pos hread]
      constructor
      · intro h
        exact Or.inr (Or.inr (hword.symm.trans (h _ _ rfl)))
      · rintro (hsign | hnot | h) v rest' heq
        · cases hsign
        · exact absurd hread hnot
        · rw [← (Prod.mk.inj (Option.some.inj heq)).1]
          exact hword.trans h
    · rw [if_neg hread]
      refine iff_of_true ?_ (Or.inr (Or.inl hread))
      intro v rest' h
      cases h

/-- Five and a half, without an exponent. -/
def plainHalf : NumberLiteral := ⟨false, [five], [five], none, five_ne_nil, leading_five⟩

/-- A number without an exponent is priced right. -/
theorem priced_iff_half : plainHalf.Priced [comma] :=
  (priced_iff _ (numberEnds_cons (by decide) (by decide) [])).mpr (Or.inr (Or.inr (Or.inl rfl)))

lemma mark_small : (101 : UInt8) = 101 ∨ (101 : UInt8) = 69 := Or.inl rfl

lemma sign_minus : ([45] : List UInt8) = [] ∨ [45] = ([43] : List UInt8) ∨
    [45] = ([45] : List UInt8) :=
  Or.inr (Or.inr rfl)

lemma leading_one : ∀ ds : List (Fin 10), [one] = 0 :: ds → ds = [] := by
  intro ds h
  exact absurd (List.cons.inj h).1 (by decide)

/-- One and a half thousandth, with an exponent. -/
def scientific : NumberLiteral where
  negative := false
  integer := [one]
  fraction := [five]
  exponent := some ⟨101, [45], [three], mark_small, sign_minus, three_ne_nil⟩
  integer_ne := one_ne_nil
  leading := leading_one

/-- A price in scientific notation is read a thousand times too large. -/
theorem scientific_not_priced :
    ¬ ∀ (n : NumberLiteral) (rest : List UInt8), 0 ≤ n.value → NumberEnds rest →
      n.Priced rest := by
  intro h
  have hread : parseU64SkipDot (scientific.render ++ [comma]) =
      some (1500000000, [101, 45, 51, comma]) := by
    decide +kernel
  have hprice := h scientific [comma] (by decide +kernel)
    (numberEnds_cons (by decide) (by decide) []) _ _ hread
  exact absurd hprice (by decide +kernel)

end NumberLiteral

end OrderFeed

end HftArb
