import HftArb.Decimal

/-!
# Decimals as they are stored

A `RustDecimal` has a sign, at most 28 decimal places and a mantissa of 96 bits.  An operation whose
exact result is such a decimal gives it (`Representable`), and otherwise the result is rounded half
to even at the most places with which it fits (`stored`); when it does not fit with any, the program
stops.

Most modules take decimals as exact rationals.  A module whose statements depend on the last digit
takes the operations as a parameter, `DecimalOps`, with `DecimalOps.RoundsHalfEven` for what is
documented of them; `DecimalOps.halfEven` behaves so.
-/

namespace HftArb

/-- A decimal as it is stored: sign, number of decimal places and 96-bit mantissa. -/
structure RustDecimal where
  negative : Bool
  scale : Fin 29
  mantissa : Fin (2 ^ 96)

/-- The number that is stored. -/
def RustDecimal.value (d : RustDecimal) : Decimal :=
  (if d.negative then -1 else 1) * (d.mantissa : ℕ) / 10 ^ (d.scale : ℕ)

/-! ## Rounding to an integer -/

namespace Decimal

/-- An integer is nearest to what is rounded to it, and even when another one is as near. -/
lemma round_spec (y : ℚ) :
    (Decimal.round y - 1 / 2 < y ∨ y = Decimal.round y - 1 / 2 ∧ Even (Decimal.round y)) ∧
      (y < Decimal.round y + 1 / 2 ∨ y = Decimal.round y + 1 / 2 ∧ Even (Decimal.round y)) := by
  have hle := Int.floor_le y
  have hlt := Int.lt_floor_add_one y
  unfold Decimal.round
  split_ifs with hbelow habove heven
  · exact ⟨Or.inl (by linarith), Or.inl (by linarith)⟩
  · push_cast
    exact ⟨Or.inl (by linarith), Or.inl (by linarith)⟩
  · exact ⟨Or.inl (by linarith), Or.inr ⟨by linarith, Int.even_iff.mpr heven⟩⟩
  · have hnext : Even (⌊y⌋ + 1) := by
      rw [Int.even_add_one, Int.even_iff]
      exact heven
    push_cast
    exact ⟨Or.inr ⟨by linarith, hnext⟩, Or.inl (by linarith)⟩

/-- What is rounded to an integer or above: what is less than half below it, and what is just half
below it when it is even. -/
lemma le_round_iff {n : ℤ} {y : ℚ} :
    n ≤ Decimal.round y ↔ n - 1 / 2 < y ∨ y = n - 1 / 2 ∧ Even n := by
  obtain ⟨hlower, hupper⟩ := round_spec y
  constructor
  · intro h
    rcases h.lt_or_eq with hlt | rfl
    · have hn : (n : ℚ) + 1 ≤ Decimal.round y := by exact_mod_cast hlt
      rcases hlower with hlower | ⟨hlower, -⟩ <;> exact Or.inl (by linarith)
    · exact hlower
  · intro h
    by_contra hlt
    have hn : (Decimal.round y : ℚ) + 1 ≤ n := by exact_mod_cast not_le.mp hlt
    rcases h with h | ⟨h, heven⟩
    · rcases hupper with hupper | ⟨hupper, -⟩ <;> linarith
    · rcases hupper with hupper | ⟨hupper, hround⟩
      · linarith
      · -- The number lies between two neighbours, which would both be even.
        have heq : (n : ℚ) = Decimal.round y + 1 := by linarith
        have heq : n = Decimal.round y + 1 := by exact_mod_cast heq
        rw [heq, Int.even_add_one] at heven
        exact heven hround

lemma le_round {n : ℤ} {y : ℚ} (h : n ≤ y) : n ≤ Decimal.round y :=
  le_round_iff.mpr (Or.inl (by linarith))

lemma round_le {n : ℤ} {y : ℚ} (h : y ≤ n) : Decimal.round y ≤ n := by
  by_contra hlt
  have hle : n + 1 ≤ Decimal.round y := by omega
  rcases le_round_iff.mp hle with hhalf | ⟨heq, -⟩
  · push_cast at hhalf
    linarith
  · push_cast at heq
    linarith

@[simp] lemma round_intCast (n : ℤ) : Decimal.round n = n :=
  le_antisymm (round_le le_rfl) (le_round le_rfl)

end Decimal

namespace RustDecimal

/-! ## What fits -/

/-- The number is stored by some decimal. -/
def Representable (x : ℚ) : Prop := ∃ d : RustDecimal, d.value = x

/-- The bound of a mantissa of 96 bits. -/
def mantissaLimit : ℤ := 79228162514264337593543950336

/-- The most places of a decimal, `Decimal::MAX_SCALE`. -/
def maxScale : ℕ := 28

/-- The numbers that are stored, with the sign in the mantissa. -/
lemma representable_iff {x : ℚ} :
    Representable x ↔ ∃ (m : ℤ) (e : ℕ), |m| < mantissaLimit ∧ e ≤ maxScale ∧ x = m / 10 ^ e := by
  constructor
  · rintro ⟨⟨negative, ⟨e, he⟩, ⟨m, hm⟩⟩, rfl⟩
    refine ⟨if negative then -m else m, e, ?_, Nat.le_of_lt_succ he, ?_⟩
    · unfold mantissaLimit
      split_ifs <;> simp <;> omega
    · unfold RustDecimal.value
      split_ifs <;> push_cast <;> ring
  · rintro ⟨m, e, hm, he, rfl⟩
    have hlt : m.natAbs < 2 ^ 96 := by
      rw [Int.abs_eq_natAbs, mantissaLimit] at hm
      omega
    refine ⟨⟨decide (m < 0), ⟨e, Nat.lt_succ_of_le he⟩, ⟨m.natAbs, hlt⟩⟩, ?_⟩
    unfold RustDecimal.value
    by_cases hneg : m < 0
    · have habs : (m.natAbs : ℚ) = -m := by
        rw [Nat.cast_natAbs, abs_of_neg hneg, Int.cast_neg]
      simp [hneg, habs]
    · have habs : (m.natAbs : ℚ) = m := by
        rw [Nat.cast_natAbs, abs_of_nonneg (not_lt.mp hneg)]
      simp [hneg, habs]

/-- The mantissa of a number with the given places. -/
def mantissaAt (x : ℚ) (e : ℕ) : ℤ := Decimal.round (x * 10 ^ e)

/-- With the given places, the mantissa of a number has 96 bits. -/
def FitsAt (x : ℚ) (e : ℕ) : Prop := |mantissaAt x e| < mantissaLimit

instance (x : ℚ) : DecidablePred (FitsAt x) :=
  fun e => inferInstanceAs (Decidable (|mantissaAt x e| < mantissaLimit))

/-- The most places with which a number fits. -/
def places (x : ℚ) : ℕ := Nat.findGreatest (FitsAt x) maxScale

/-- The decimal that is nearest to a number with the most places with which it fits. -/
def nearest (x : ℚ) : Decimal := mantissaAt x (places x) / 10 ^ places x

/-- The decimal kept of an exact result, none when it overflows. -/
def stored (x : ℚ) : Option Decimal := if FitsAt x 0 then some (nearest x) else none

/-- The exact result is beyond the largest decimal or its negative. -/
def Overflows (x : ℚ) : Prop := ¬ FitsAt x 0

instance : DecidablePred Overflows := fun x => inferInstanceAs (Decidable (¬ FitsAt x 0))

lemma stored_of_overflows {x : ℚ} (h : Overflows x) : stored x = none := if_neg h

lemma stored_of_fits {x : ℚ} (h : FitsAt x 0) : stored x = some (nearest x) := if_pos h

lemma fitsAt_places {x : ℚ} (h : FitsAt x 0) : FitsAt x (places x) :=
  Nat.findGreatest_spec (Nat.zero_le _) h

lemma places_le (x : ℚ) : places x ≤ maxScale := Nat.findGreatest_le _

lemma representable_nearest {x : ℚ} (h : FitsAt x 0) : Representable (nearest x) :=
  representable_iff.mpr ⟨_, _, fitsAt_places h, places_le x, rfl⟩

/-- An integer of 96 bits is a decimal. -/
lemma representable_intCast {n : ℤ} (h : |n| < mantissaLimit) : Representable n :=
  representable_iff.mpr ⟨n, 0, h, Nat.zero_le _, by simp⟩

/-- A decimal lies between the largest one and its negative. -/
lemma Representable.abs_le {x : ℚ} (h : Representable x) : |x| ≤ mantissaLimit - 1 := by
  obtain ⟨m, e, hm, -, rfl⟩ := representable_iff.mp h
  have hpow : (1 : ℚ) ≤ 10 ^ e := one_le_pow₀ (by norm_num)
  have hm : (|m| : ℚ) ≤ mantissaLimit - 1 := by exact_mod_cast Int.le_sub_one_of_lt hm
  rw [abs_div, abs_of_pos (zero_lt_one.trans_le hpow)]
  exact (div_le_self (abs_nonneg _) hpow).trans hm

/-- What lies between the largest decimal and its negative does not overflow. -/
lemma fitsAt_zero_of_abs_le {x : ℚ} (h : |x| ≤ mantissaLimit - 1) : FitsAt x 0 := by
  obtain ⟨hlower, hupper⟩ := abs_le.mp h
  have hle : mantissaAt x 0 ≤ mantissaLimit - 1 := by
    refine Decimal.round_le ?_
    push_cast
    rwa [pow_zero, mul_one]
  have hge : -(mantissaLimit - 1) ≤ mantissaAt x 0 := by
    refine Decimal.le_round ?_
    push_cast
    rwa [pow_zero, mul_one]
  rw [FitsAt, abs_lt]
  omega

/-- A decimal of a given number of places is an integer at that many places or more. -/
lemma mul_ten_pow_of_le {m : ℤ} {k e : ℕ} (h : k ≤ e) :
    (m / 10 ^ k : ℚ) * 10 ^ e = ((m * 10 ^ (e - k) : ℤ) : ℚ) := by
  have hpow : (10 : ℚ) ^ e = 10 ^ k * 10 ^ (e - k) := by rw [← pow_add, Nat.add_sub_cancel' h]
  have hk : (10 : ℚ) ^ k ≠ 0 := by positivity
  push_cast
  rw [hpow, ← mul_assoc, div_mul_cancel₀ _ hk]

/-- A decimal is kept as it is, and nothing else is. -/
lemma stored_eq_self_iff {x : ℚ} : stored x = some x ↔ Representable x := by
  constructor
  · intro h
    by_cases hfits : FitsAt x 0
    · rw [stored_of_fits hfits] at h
      exact Option.some.inj h ▸ representable_nearest hfits
    · rw [stored_of_overflows hfits] at h
      cases h
  · intro hx
    rw [stored_of_fits (fitsAt_zero_of_abs_le hx.abs_le)]
    obtain ⟨m, k, hm, hk, rfl⟩ := representable_iff.mp hx
    have hat : ∀ e, k ≤ e → mantissaAt (m / 10 ^ k) e = m * 10 ^ (e - k) := by
      intro e he
      rw [mantissaAt, mul_ten_pow_of_le he, Decimal.round_intCast]
    have hfitsAt : FitsAt (m / 10 ^ k) k := by
      rw [FitsAt, hat k le_rfl, Nat.sub_self, pow_zero, mul_one]
      exact hm
    have hle : k ≤ places (m / 10 ^ k) := Nat.le_findGreatest hk hfitsAt
    rw [nearest, hat _ hle, ← mul_ten_pow_of_le hle, mul_div_cancel_right₀ _ (by positivity)]

/-- A result that is not below a decimal is not rounded below it. -/
lemma le_nearest {x z : ℚ} (hz : Representable z) (hpos : 0 ≤ z) (hle : z ≤ x) :
    z ≤ nearest x := by
  have hten : ∀ e : ℕ, (0 : ℚ) < 10 ^ e := fun e => by positivity
  obtain ⟨m, k, hm, hk, rfl⟩ := representable_iff.mp hz
  rw [nearest, le_div_iff₀ (hten _)]
  rcases le_or_gt k (places x) with hplaces | hplaces
  · -- The decimal has no more places than the result keeps.
    rw [mul_ten_pow_of_le hplaces]
    refine Int.cast_le.mpr (Decimal.le_round ?_)
    rw [← mul_ten_pow_of_le hplaces]
    exact mul_le_mul_of_nonneg_right hle (hten _).le
  · -- With one place more the result does not fit, while the decimal does.
    have hnofit : ¬ FitsAt x (places x + 1) :=
      Nat.findGreatest_is_greatest (Nat.lt_succ_self _) (by omega)
    have hxpos : 0 ≤ x := hpos.trans hle
    have hround : 0 ≤ mantissaAt x (places x + 1) := by
      refine Decimal.le_round ?_
      have := hten (places x + 1)
      push_cast
      positivity
    rw [FitsAt, abs_of_nonneg hround, not_lt] at hnofit
    have hbig : (mantissaLimit : ℚ) - 1 / 2 ≤ x * 10 ^ (places x + 1) := by
      rcases Decimal.le_round_iff.mp hnofit with h | ⟨h, -⟩
      · exact h.le
      · exact h.ge
    have hnext : (7922816251426433759354395034 : ℤ) ≤ mantissaAt x (places x) := by
      refine Decimal.le_round_iff.mpr (Or.inl ?_)
      rw [pow_succ] at hbig
      norm_num [mantissaLimit] at hbig ⊢
      linarith
    have hsmall : (m / 10 ^ k : ℚ) * 10 ^ places x ≤ 7922816251426433759354395034 := by
      have hm : (m : ℚ) < mantissaLimit := by exact_mod_cast (le_abs_self m).trans_lt hm
      have hpow : (10 : ℚ) ^ (places x + 1) ≤ 10 ^ k := pow_le_pow_right₀ (by norm_num) hplaces
      have hmul : (m / 10 ^ k : ℚ) * 10 ^ (places x + 1) ≤ m :=
        (mul_le_mul_of_nonneg_left hpow hpos).trans_eq (div_mul_cancel₀ _ (hten k).ne')
      rw [pow_succ] at hmul
      norm_num [mantissaLimit] at hm
      linarith
    exact hsmall.trans (by exact_mod_cast hnext)

/-- When a number is not rounded below an integer. -/
lemma intCast_le_nearest_iff {n : ℤ} {x : ℚ} :
    (n : ℚ) ≤ nearest x ↔ (n - x) * 10 ^ places x < 1 / 2 ∨
      (n - x) * 10 ^ places x = 1 / 2 ∧ Even (n * 10 ^ places x) := by
  have hten : (0 : ℚ) < 10 ^ places x := by positivity
  have hcast : (n : ℚ) * 10 ^ places x = ((n * 10 ^ places x : ℤ) : ℚ) := by push_cast; rfl
  rw [nearest, le_div_iff₀ hten, hcast, Int.cast_le, mantissaAt, Decimal.le_round_iff, ← hcast,
    sub_mul]
  constructor
  · rintro (h | ⟨h, heven⟩)
    · exact Or.inl (by linarith)
    · exact Or.inr ⟨by linarith, heven⟩
  · rintro (h | ⟨h, heven⟩)
    · exact Or.inl (by linarith)
    · exact Or.inr ⟨by linarith, heven⟩

/-- A number is not rounded below its integer part. -/
lemma floor_le_nearest (x : ℚ) : (⌊x⌋ : ℚ) ≤ nearest x := by
  refine intCast_le_nearest_iff.mpr (Or.inl ?_)
  have hten : (0 : ℚ) < 10 ^ places x := by positivity
  have hle := mul_nonpos_of_nonpos_of_nonneg (sub_nonpos.mpr (Int.floor_le x)) hten.le
  linarith

/-- A number is not rounded above the integer that follows its integer part. -/
lemma nearest_le_floor_add_one (x : ℚ) : nearest x ≤ ⌊x⌋ + 1 := by
  have hten : (0 : ℚ) < 10 ^ places x := by positivity
  rw [nearest, div_le_iff₀ hten]
  have hround : mantissaAt x (places x) ≤ (⌊x⌋ + 1) * 10 ^ places x := by
    refine Decimal.round_le ?_
    push_cast
    exact mul_le_mul_of_nonneg_right (Int.lt_floor_add_one x).le hten.le
  exact_mod_cast hround

end RustDecimal

/-! ## The operations -/

open RustDecimal

/-- The operations of the decimals that round; none is the end of the program. -/
structure DecimalOps where
  div : Decimal → Decimal → Option Decimal
  mul : Decimal → Decimal → Option Decimal

/-- What is documented of the operations: the exact result is stored. -/
structure DecimalOps.RoundsHalfEven (ops : DecimalOps) : Prop where
  div_eq : ∀ {a b : Decimal}, Representable a → Representable b → b ≠ 0 →
    ops.div a b = stored (a / b)
  mul_eq : ∀ {a b : Decimal}, Representable a → Representable b → ops.mul a b = stored (a * b)

/-- The operations on rationals followed by the rounding. -/
def DecimalOps.halfEven : DecimalOps where
  div a b := if b = 0 then none else stored (a / b)
  mul a b := stored (a * b)

lemma DecimalOps.halfEven_roundsHalfEven : DecimalOps.halfEven.RoundsHalfEven where
  div_eq _ _ hb := if_neg hb
  mul_eq _ _ := rfl

end HftArb
