import Mathlib.Tactic

/-!
# Saturating 64-bit counters

Unsigned 64-bit words with saturating addition and subtraction, and what happens to a counter that
is reserved `k` times and released `k` times by the same amount.

`satAdd` and `satSub` are read through `UInt64.toNat`, where they are `min` and truncated
subtraction (`satAdd_toNat`, `satSub_toNat`).  The two facts the clients of a counter need are
`reserve_eq_self_iff` (when does a run of reservations leave the counter where it was) and
`release_reserve_eq_self_iff` (when do as many releases bring it back): the second fails exactly
when the run has saturated a counter that was not zero.
-/

namespace Saturating

/-- The largest 64-bit word. -/
def maxWord : UInt64 := 18446744073709551615

/-- The largest 64-bit word as a natural number. -/
@[simp] lemma maxWord_toNat : maxWord.toNat = 2 ^ 64 - 1 := rfl

/-- Addition that stops at the largest word. -/
def satAdd (a b : UInt64) : UInt64 :=
  if a.toNat + b.toNat < 2 ^ 64 then a + b else maxWord

/-- Subtraction that stops at zero. -/
def satSub (a b : UInt64) : UInt64 :=
  if b ≤ a then a - b else 0

/-- Multiplication that stops at the largest word. -/
def satMul (a b : UInt64) : UInt64 :=
  if a.toNat * b.toNat < 2 ^ 64 then a * b else maxWord

/-- Saturating addition is addition capped at the largest word. -/
lemma satAdd_toNat (a b : UInt64) : (satAdd a b).toNat = min (a.toNat + b.toNat) (2 ^ 64 - 1) := by
  unfold satAdd
  split_ifs with h
  · rw [UInt64.toNat_add, Nat.mod_eq_of_lt h]
    omega
  · rw [maxWord_toNat]
    omega

/-- Saturating subtraction is truncated subtraction. -/
lemma satSub_toNat (a b : UInt64) : (satSub a b).toNat = a.toNat - b.toNat := by
  unfold satSub
  split_ifs with h
  · exact UInt64.toNat_sub_of_le a b h
  · have hlt : a.toNat < b.toNat := UInt64.lt_iff_toNat_lt.mp (UInt64.not_le.mp h)
    rw [Nat.sub_eq_zero_of_le hlt.le]
    rfl

/-- Saturating multiplication is multiplication capped at the largest word. -/
lemma satMul_toNat (a b : UInt64) : (satMul a b).toNat = min (a.toNat * b.toNat) (2 ^ 64 - 1) := by
  unfold satMul
  split_ifs with h
  · rw [UInt64.toNat_mul, Nat.mod_eq_of_lt h]
    omega
  · rw [maxWord_toNat]
    omega

/-! ## Runs of reservations and releases -/

/-- Reserve the amount `s` on the counter `k` times. -/
def reserve (s : UInt64) : ℕ → UInt64 → UInt64
  | 0, x => x
  | k + 1, x => reserve s k (satAdd x s)

/-- Release the amount `s` from the counter `k` times. -/
def release (s : UInt64) : ℕ → UInt64 → UInt64
  | 0, x => x
  | k + 1, x => release s k (satSub x s)

/-- A run of reservations adds their total, capped at the largest word. -/
lemma reserve_toNat (s : UInt64) (k : ℕ) (x : UInt64) :
    (reserve s k x).toNat = min (x.toNat + k * s.toNat) (2 ^ 64 - 1) := by
  induction k generalizing x with
  | zero =>
    have hx := x.toNat_lt
    simp only [reserve, Nat.zero_mul]
    omega
  | succ k ih =>
    rw [reserve, ih, satAdd_toNat, Nat.succ_mul]
    omega

/-- A run of releases subtracts their total, down to zero. -/
lemma release_toNat (s : UInt64) (k : ℕ) (x : UInt64) :
    (release s k x).toNat = x.toNat - k * s.toNat := by
  induction k generalizing x with
  | zero => simp [release]
  | succ k ih =>
    rw [release, ih, satSub_toNat, Nat.succ_mul]
    omega

/-- A non-empty run of reservations leaves the counter where it was exactly when the amount is zero
or the counter is already full. -/
lemma reserve_eq_self_iff (s x : UInt64) (k : ℕ) :
    reserve s (k + 1) x = x ↔ s = 0 ∨ x = maxWord := by
  have hx := x.toNat_lt
  have hs : s = 0 ↔ s.toNat = 0 := by rw [← UInt64.toNat_inj]; rfl
  have hm : x = maxWord ↔ x.toNat = 2 ^ 64 - 1 := by rw [← UInt64.toNat_inj, maxWord_toNat]
  rw [← UInt64.toNat_inj, reserve_toNat, hs, hm, Nat.succ_mul]
  constructor
  · intro h
    rcases Nat.eq_zero_or_pos s.toNat with h0 | h0
    · exact Or.inl h0
    · exact Or.inr (by omega)
  · rintro (h | h)
    · rw [h]
      omega
    · omega

/-- Releasing as often as was reserved restores the counter exactly when the amount is zero, the
counter was zero, or the reservations did not saturate it. -/
lemma release_reserve_eq_self_iff (s x : UInt64) (k : ℕ) :
    release s (k + 1) (reserve s (k + 1) x) = x ↔
      s = 0 ∨ x = 0 ∨ x.toNat + (k + 1) * s.toNat < 2 ^ 64 := by
  have hx := x.toNat_lt
  have hs : s = 0 ↔ s.toNat = 0 := by rw [← UInt64.toNat_inj]; rfl
  have h0 : x = 0 ↔ x.toNat = 0 := by rw [← UInt64.toNat_inj]; rfl
  have hpos : s.toNat ≠ 0 → s.toNat ≤ (k + 1) * s.toNat := fun _ =>
    Nat.le_mul_of_pos_left _ (Nat.succ_pos k)
  rw [← UInt64.toNat_inj, release_toNat, reserve_toNat, hs, h0]
  constructor
  · intro h
    by_contra hcon
    push Not at hcon
    have := hpos hcon.1
    omega
  · rintro (h | h | h)
    · rw [h, Nat.mul_zero]
      omega
    · omega
    · omega

end Saturating
