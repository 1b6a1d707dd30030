import HftArb.Decimal

/-!
# The size slicer

`SizeSlicer.sliceOrder` cuts an order into slices of at most a maximal notional.  Every slice but
the last has a least notional too: a smaller one is merged into the next.

The quantity of a slice is the whole quantity divided by the number of slices.  Over exact rationals
nothing remains after the division, so that the remainder the loop distributes is zero.
`sliceOrder_spec` says that an order is cut into positive slices that add up to it.
-/

namespace HftArb

/-- A slice of an order. -/
structure OrderSlice where
  index : ℕ
  quantity : Decimal
  price : Decimal
  notional : Decimal
  totalSlices : ℕ
  deriving DecidableEq

/-- The largest and the least notional of a slice. -/
structure SizeSlicer where
  maxSliceUsd : Decimal
  minSliceUsd : Decimal

namespace SizeSlicer

/-- The default slicer: at most 1000 and at least 5 dollars. -/
def new : SizeSlicer := ⟨1000, 5⟩

/-- A slicer with its own limits. -/
def withLimits (maxSliceUsd minSliceUsd : Decimal) : Except String SizeSlicer :=
  if maxSliceUsd ≤ 0 then
    .error "size_slicer: max_slice_usd must be positive (division by zero guard)"
  else if minSliceUsd < 0 then .error "size_slicer: min_slice_usd must be non-negative"
  else .ok ⟨maxSliceUsd, minSliceUsd⟩

/-- What slice `i` of `n` gets of the remainder of the division. -/
def extraQty (remainder : Decimal) (n i : ℕ) : Decimal :=
  let whole := (Decimal.toU64 remainder).getD 0
  if i < whole.toNat then 1
  else if i = n - 1 then remainder - Decimal.ofU64 whole
  else 0

/-- One turn of the loop, on the slices so far and the quantity merged into the next one. -/
def sliceStep (s : SizeSlicer) (price baseQty remainder : Decimal) (n : ℕ)
    (st : List OrderSlice × Decimal) (i : ℕ) : List OrderSlice × Decimal :=
  let sliceQty := baseQty + extraQty remainder n i + st.2
  let sliceNotional := sliceQty * price
  if sliceNotional < s.minSliceUsd ∧ i < n - 1 then (st.1, sliceQty)
  else (st.1 ++ [⟨st.1.length, sliceQty, price, sliceNotional, 0⟩], 0)

/-- The loop after `k` turns. -/
def sliceLoop (s : SizeSlicer) (price baseQty remainder : Decimal) (n k : ℕ) :
    List OrderSlice × Decimal :=
  (List.range k).foldl (s.sliceStep price baseQty remainder n) ([], 0)

/-- The number of slices of an order, one when it does not fit a word. -/
def numSlices (s : SizeSlicer) (totalNotional : Decimal) : ℕ :=
  max ((Decimal.toU64 ⌈totalNotional / s.maxSliceUsd⌉).map UInt64.toNat |>.getD 1) 1

/-- Cut an order into slices. -/
def sliceOrder (s : SizeSlicer) (quantity price : Decimal) : List OrderSlice :=
  if quantity ≤ 0 ∨ price ≤ 0 then []
  else if s.maxSliceUsd = 0 then []
  else
    let totalNotional := quantity * price
    if totalNotional ≤ s.maxSliceUsd then [⟨0, quantity, price, totalNotional, 1⟩]
    else
      let n := s.numSlices totalNotional
      let baseQty := quantity / n
      let remainder := quantity - baseQty * n
      let slices := (s.sliceLoop price baseQty remainder n n).1
      if slices = [] then [⟨0, quantity, price, totalNotional, 1⟩]
      else slices.map fun sl => { sl with totalSlices := slices.length }

/-! ## What the loop computes -/

/-- Without a remainder no slice gets more than its share. -/
lemma extraQty_zero (n i : ℕ) : extraQty 0 n i = 0 := by
  have hwhole : (Decimal.toU64 0).getD 0 = 0 := by decide +kernel
  unfold extraQty
  rw [hwhole]
  simp [Decimal.ofU64]

variable (s : SizeSlicer) (price : Decimal) {baseQty : Decimal} (n : ℕ)

lemma sliceLoop_succ (k : ℕ) :
    s.sliceLoop price baseQty 0 n (k + 1) =
      s.sliceStep price baseQty 0 n (s.sliceLoop price baseQty 0 n k) k := by
  unfold sliceLoop
  rw [List.range_succ, List.foldl_append]
  rfl

/-- After `k` turns the slices are positive, at the price of the order, and together with the merged
quantity they make up `k` shares; after the last turn nothing is left to merge. -/
lemma sliceLoop_spec (hbase : 0 < baseQty) (k : ℕ) :
    (∀ sl ∈ (s.sliceLoop price baseQty 0 n k).1, 0 < sl.quantity ∧ sl.price = price ∧
      sl.notional = sl.quantity * price) ∧
    0 ≤ (s.sliceLoop price baseQty 0 n k).2 ∧
    ((s.sliceLoop price baseQty 0 n k).1.map OrderSlice.quantity).sum +
      (s.sliceLoop price baseQty 0 n k).2 = k * baseQty ∧
    (0 < k → k = n → (s.sliceLoop price baseQty 0 n k).2 = 0 ∧
      (s.sliceLoop price baseQty 0 n k).1 ≠ []) := by
  induction k with
  | zero =>
    refine ⟨?_, ?_, ?_, ?_⟩
    · intro sl hsl
      simp [sliceLoop] at hsl
    · simp [sliceLoop]
    · simp [sliceLoop]
    · intro h
      exact absurd h (lt_irrefl 0)
  | succ k ih =>
    obtain ⟨hslices, hmerged, hsum, -⟩ := ih
    rw [sliceLoop_succ]
    generalize s.sliceLoop price baseQty 0 n k = st at hslices hmerged hsum ⊢
    have hqty : 0 < baseQty + 0 + st.2 := by linarith
    unfold sliceStep
    rw [extraQty_zero]
    dsimp only
    split
    · next hsmall =>
      refine ⟨hslices, hqty.le, ?_, ?_⟩
      · push_cast
        linarith
      · intro _ hk
        omega
    · refine ⟨?_, le_rfl, ?_, ?_⟩
      · intro sl hsl
        rcases List.mem_append.mp hsl with hsl | hsl
        · exact hslices sl hsl
        · rw [List.mem_singleton] at hsl
          rw [hsl]
          exact ⟨hqty, rfl, rfl⟩
      · rw [List.map_append, List.sum_append]
        push_cast
        simp only [List.map_cons, List.map_nil, List.sum_cons, List.sum_nil]
        linarith
      · intro _ _
        exact ⟨rfl, by simp⟩

/-- Where a share is not below the least notional, every slice is one share. -/
lemma sliceLoop_no_merge (hmin : s.minSliceUsd ≤ baseQty * price) (k : ℕ) :
    (s.sliceLoop price baseQty 0 n k).2 = 0 ∧
      ∀ sl ∈ (s.sliceLoop price baseQty 0 n k).1, sl.quantity = baseQty := by
  induction k with
  | zero => simp [sliceLoop]
  | succ k ih =>
    obtain ⟨hmerged, hslices⟩ := ih
    rw [sliceLoop_succ]
    generalize s.sliceLoop price baseQty 0 n k = st at hmerged hslices ⊢
    unfold sliceStep
    rw [extraQty_zero, hmerged, add_zero, add_zero]
    have hnot : ¬ (baseQty * price < s.minSliceUsd ∧ k < n - 1) := by
      rintro ⟨hlt, -⟩
      exact absurd hlt (not_lt.mpr hmin)
    rw [if_neg hnot]
    refine ⟨rfl, ?_⟩
    intro sl hsl
    rcases List.mem_append.mp hsl with hsl | hsl
    · exact hslices sl hsl
    · rw [List.mem_singleton] at hsl
      rw [hsl]

/-! ## What the slicer returns -/

lemma numSlices_pos (totalNotional : Decimal) : 0 < s.numSlices totalNotional :=
  lt_of_lt_of_le Nat.zero_lt_one (le_max_right _ _)

/-- As long as it fits a word, the number of slices is the rounded-up quotient. -/
lemma numSlices_eq (totalNotional : Decimal) (hpos : 0 < totalNotional / s.maxSliceUsd)
    (hfit : ⌈totalNotional / s.maxSliceUsd⌉ < 2 ^ 64) :
    (s.numSlices totalNotional : ℤ) = ⌈totalNotional / s.maxSliceUsd⌉ := by
  unfold numSlices
  generalize totalNotional / s.maxSliceUsd = t at hpos hfit ⊢
  have hone : 1 ≤ ⌈t⌉ := Int.one_le_ceil_iff.mpr hpos
  have hu64 : Decimal.toU64 (⌈t⌉ : ℚ) = some (UInt64.ofNat ⌈t⌉.toNat) := by
    unfold Decimal.toU64
    rw [Int.floor_intCast, if_neg, if_neg]
    · omega
    · rw [not_lt]
      exact_mod_cast (by omega : (0 : ℤ) ≤ ⌈t⌉)
  rw [hu64]
  have hnat : (UInt64.ofNat ⌈t⌉.toNat).toNat = ⌈t⌉.toNat := by
    rw [UInt64.toNat_ofNat']
    exact Nat.mod_eq_of_lt (by omega)
  rw [Option.map_some, Option.getD_some, hnat]
  omega

/-- A number of slices beyond a word is replaced by one. -/
lemma numSlices_eq_one (totalNotional : Decimal) (hbig : 2 ^ 64 ≤ ⌈totalNotional / s.maxSliceUsd⌉) :
    s.numSlices totalNotional = 1 := by
  unfold numSlices
  generalize totalNotional / s.maxSliceUsd = t at hbig ⊢
  have hnone : Decimal.toU64 (⌈t⌉ : ℚ) = none := by
    unfold Decimal.toU64
    rw [Int.floor_intCast, if_neg, if_pos]
    · omega
    · rw [not_lt]
      exact_mod_cast (by omega : (0 : ℤ) ≤ ⌈t⌉)
  rw [hnone]
  rfl

/-- An order within the cap is one slice. -/
lemma sliceOrder_of_le {s : SizeSlicer} (hmax : 0 < s.maxSliceUsd) {quantity price : Decimal}
    (hq : 0 < quantity) (hp : 0 < price) (hle : quantity * price ≤ s.maxSliceUsd) :
    s.sliceOrder quantity price = [⟨0, quantity, price, quantity * price, 1⟩] := by
  have hsign : ¬ (quantity ≤ 0 ∨ price ≤ 0) := by
    rw [not_or]
    exact ⟨not_le.mpr hq, not_le.mpr hp⟩
  unfold sliceOrder
  rw [if_neg hsign, if_neg hmax.ne']
  dsimp only
  rw [if_pos hle]

/-- A larger order is what the loop cuts from it, without a remainder and with the number of slices
filled in. -/
lemma sliceOrder_of_lt {s : SizeSlicer} (hmax : 0 < s.maxSliceUsd) {quantity price : Decimal}
    (hq : 0 < quantity) (hp : 0 < price) (hlt : s.maxSliceUsd < quantity * price) {n : ℕ}
    (hn : s.numSlices (quantity * price) = n) :
    s.sliceOrder quantity price =
      (s.sliceLoop price (quantity / n) 0 n n).1.map fun sl =>
        { sl with totalSlices := (s.sliceLoop price (quantity / n) 0 n n).1.length } := by
  have hsign : ¬ (quantity ≤ 0 ∨ price ≤ 0) := by
    rw [not_or]
    exact ⟨not_le.mpr hq, not_le.mpr hp⟩
  have hpos : 0 < n := by
    rw [← hn]
    exact s.numSlices_pos _
  have hpos' : (0 : ℚ) < n := by exact_mod_cast hpos
  have hrem : quantity - quantity / n * n = 0 := by
    field_simp
    ring
  obtain ⟨-, -, -, hlast⟩ := s.sliceLoop_spec price n (div_pos hq hpos') n
  unfold sliceOrder
  rw [if_neg hsign, if_neg hmax.ne']
  dsimp only
  rw [if_neg (not_le.mpr hlt), hn, hrem, if_neg (hlast hpos rfl).2]

/-- A positive order is cut into positive slices at its price that add up to it. -/
lemma sliceOrder_spec (hmax : 0 < s.maxSliceUsd) {quantity price : Decimal} (hq : 0 < quantity)
    (hp : 0 < price) :
    s.sliceOrder quantity price ≠ [] ∧
    (∀ sl ∈ s.sliceOrder quantity price, 0 < sl.quantity) ∧
    ((s.sliceOrder quantity price).map OrderSlice.quantity).sum = quantity := by
  by_cases hle : quantity * price ≤ s.maxSliceUsd
  · rw [sliceOrder_of_le hmax hq hp hle]
    refine ⟨by simp, ?_, by simp⟩
    intro sl hsl
    rw [List.mem_singleton] at hsl
    rw [hsl]
    exact hq
  · have hn : 0 < s.numSlices (quantity * price) := s.numSlices_pos _
    rw [sliceOrder_of_lt hmax hq hp (not_le.mp hle) rfl]
    generalize s.numSlices (quantity * price) = n at hn ⊢
    have hn' : (n : ℚ) ≠ 0 := by exact_mod_cast hn.ne'
    have hbase : 0 < quantity / n := div_pos hq (by exact_mod_cast hn)
    obtain ⟨hslices, -, hsum, hlast⟩ := s.sliceLoop_spec price n hbase n
    obtain ⟨hmerged, hne⟩ := hlast hn rfl
    refine ⟨by simpa using hne, ?_, ?_⟩
    · intro sl hsl
      obtain ⟨sl', hsl', rfl⟩ := List.mem_map.mp hsl
      exact (hslices sl' hsl').1
    · rw [hmerged, add_zero] at hsum
      rw [List.map_map]
      calc ((s.sliceLoop price (quantity / n) 0 n n).1.map OrderSlice.quantity).sum
          = n * (quantity / n) := hsum
        _ = quantity := by field_simp

end SizeSlicer

end HftArb
