import HftArb.SignalLoop.SizeSlicer

/-!
# Numbering, least notional and cap of the slices

`sliceOrder_conserves` is the whole of what slicing keeps: the quantity, the numbering from zero,
the number of slices that every slice carries, and the least notional of all slices but the last.

The cap is kept by an order that needs no merging (`sliceOrder_capped_iff`).  A share of an order
beyond the cap is more than half of it, so that two merged shares leave it.
-/

namespace HftArb

namespace SizeSlicer

variable (s : SizeSlicer) (price : Decimal) {baseQty : Decimal} (n : ℕ)

/-! ## Numbering and the least notional -/

/-- The slices are numbered in the order in which they are pushed. -/
lemma sliceLoop_index (k : ℕ) :
    (s.sliceLoop price baseQty 0 n k).1.map OrderSlice.index =
      List.range (s.sliceLoop price baseQty 0 n k).1.length := by
  induction k with
  | zero => simp [sliceLoop]
  | succ k ih =>
    rw [sliceLoop_succ]
    generalize s.sliceLoop price baseQty 0 n k = st at ih ⊢
    unfold sliceStep
    dsimp only
    split
    · exact ih
    · simp only [List.map_append, List.map_cons, List.map_nil, List.length_append,
        List.length_cons, List.length_nil]
      rw [ih, List.range_succ]

/-- Before the last turn only slices of the least notional are pushed. -/
lemma sliceLoop_min {k : ℕ} (hk : k ≤ n - 1) :
    ∀ sl ∈ (s.sliceLoop price baseQty 0 n k).1, s.minSliceUsd ≤ sl.notional := by
  induction k with
  | zero => simp [sliceLoop]
  | succ k ih =>
    have hslices := ih (by omega)
    rw [sliceLoop_succ]
    generalize s.sliceLoop price baseQty 0 n k = st at hslices ⊢
    unfold sliceStep
    dsimp only
    split
    · exact hslices
    · next hbig =>
      intro sl hsl
      rcases List.mem_append.mp hsl with hsl | hsl
      · exact hslices sl hsl
      · rw [List.mem_singleton] at hsl
        rw [hsl]
        exact not_lt.mp fun hsmall => hbig ⟨hsmall, by omega⟩

/-- The last turn pushes a slice. -/
lemma sliceLoop_last (baseQty : Decimal) (hn : 0 < n) :
    ∃ last, (s.sliceLoop price baseQty 0 n n).1 =
      (s.sliceLoop price baseQty 0 n (n - 1)).1 ++ [last] := by
  obtain ⟨k, rfl⟩ : ∃ k, n = k + 1 := ⟨n - 1, by omega⟩
  rw [Nat.add_sub_cancel, sliceLoop_succ]
  unfold sliceStep
  dsimp only
  rw [if_neg fun h => lt_irrefl k (by simpa using h.2)]
  exact ⟨_, rfl⟩

/-- An accepted slicer has a positive cap. -/
lemma withLimits_max_pos {s : SizeSlicer} {maxSliceUsd minSliceUsd : Decimal}
    (hs : withLimits maxSliceUsd minSliceUsd = .ok s) : 0 < s.maxSliceUsd := by
  unfold withLimits at hs
  split at hs
  · cases hs
  · next hmax =>
    split at hs
    · cases hs
    · cases hs
      exact not_le.mp hmax

/-- Slicing conserves the order.  The slices of an accepted slicer add up to the quantity and are
numbered from zero, each knows their number and its own value, and all but the last have the least
notional. -/
theorem sliceOrder_conserves {s : SizeSlicer} {maxSliceUsd minSliceUsd : Decimal}
    (hs : withLimits maxSliceUsd minSliceUsd = .ok s) {quantity price : Decimal}
    (hq : 0 < quantity) (hp : 0 < price) :
    s.sliceOrder quantity price ≠ [] ∧
    ((s.sliceOrder quantity price).map OrderSlice.quantity).sum = quantity ∧
    (s.sliceOrder quantity price).map OrderSlice.index =
      List.range (s.sliceOrder quantity price).length ∧
    (∀ sl ∈ s.sliceOrder quantity price, sl.totalSlices = (s.sliceOrder quantity price).length ∧
      sl.price = price ∧ sl.notional = sl.quantity * price) ∧
    ∀ sl ∈ (s.sliceOrder quantity price).dropLast, s.minSliceUsd ≤ sl.notional := by
  have hmax := withLimits_max_pos hs
  obtain ⟨hne, -, hsum⟩ := s.sliceOrder_spec hmax hq hp
  refine ⟨hne, hsum, ?_⟩
  by_cases hle : quantity * price ≤ s.maxSliceUsd
  · rw [sliceOrder_of_le hmax hq hp hle]
    simp
  · have hn : 0 < s.numSlices (quantity * price) := s.numSlices_pos _
    rw [sliceOrder_of_lt hmax hq hp (not_le.mp hle) rfl]
    generalize s.numSlices (quantity * price) = n at hn ⊢
    have hbase : 0 < quantity / n := div_pos hq (by exact_mod_cast hn)
    obtain ⟨hslices, -, -, -⟩ := s.sliceLoop_spec price n hbase n
    refine ⟨?_, ?_, ?_⟩
    · rw [List.map_map, List.length_map]
      exact s.sliceLoop_index price n n
    · intro sl hsl
      obtain ⟨sl', hsl', rfl⟩ := List.mem_map.mp hsl
      obtain ⟨-, hprice, hnotional⟩ := hslices sl' hsl'
      exact ⟨(List.length_map _).symm, hprice, hnotional⟩
    · obtain ⟨last, hlast⟩ := s.sliceLoop_last price n (quantity / n) hn
      rw [hlast, List.map_append, List.map_singleton, List.dropLast_concat]
      intro sl hsl
      obtain ⟨sl', hsl', rfl⟩ := List.mem_map.mp hsl
      exact s.sliceLoop_min price n le_rfl sl' hsl'

/-- An order of 1100 dollars with a cap of 1000 and a least notional of 600 is one merged slice. -/
theorem sliceOrder_conserves_merged :
    ((SizeSlicer.mk 1000 600).sliceOrder 11 100).map OrderSlice.quantity = [11] ∧
    ((SizeSlicer.mk 1000 600).sliceOrder 11 100 ≠ [] ∧
    (((SizeSlicer.mk 1000 600).sliceOrder 11 100).map OrderSlice.quantity).sum = 11 ∧
    ((SizeSlicer.mk 1000 600).sliceOrder 11 100).map OrderSlice.index =
      List.range ((SizeSlicer.mk 1000 600).sliceOrder 11 100).length ∧
    (∀ sl ∈ (SizeSlicer.mk 1000 600).sliceOrder 11 100,
      sl.totalSlices = ((SizeSlicer.mk 1000 600).sliceOrder 11 100).length ∧
      sl.price = 100 ∧ sl.notional = sl.quantity * 100) ∧
    ∀ sl ∈ ((SizeSlicer.mk 1000 600).sliceOrder 11 100).dropLast,
      (SizeSlicer.mk 1000 600).minSliceUsd ≤ sl.notional) := by
  refine ⟨by decide +kernel, ?_⟩
  have hs : withLimits 1000 600 = .ok ⟨1000, 600⟩ := by
    unfold withLimits
    rw [if_neg (by norm_num), if_neg (by norm_num)]
  exact sliceOrder_conserves hs (by norm_num) (by norm_num)

/-! ## The cap -/

/-- What is pushed stays. -/
lemma sliceLoop_prefix {j k : ℕ} (hjk : j ≤ k) :
    (s.sliceLoop price baseQty 0 n j).1 <+: (s.sliceLoop price baseQty 0 n k).1 := by
  induction k, hjk using Nat.le_induction with
  | base => exact List.prefix_refl _
  | succ k _ ih =>
    rw [sliceLoop_succ]
    refine ih.trans ?_
    generalize s.sliceLoop price baseQty 0 n k = st
    unfold sliceStep
    dsimp only
    split
    · exact List.prefix_refl _
    · exact List.prefix_append _ _

/-- Where one share is too small and two are not, the first two shares are one slice. -/
lemma exists_two_shares (hn : 2 ≤ n) (hone : baseQty * price < s.minSliceUsd)
    (htwo : s.minSliceUsd ≤ 2 * baseQty * price) :
    ∃ sl ∈ (s.sliceLoop price baseQty 0 n n).1, sl.notional = 2 * baseQty * price := by
  have hfirst : s.sliceLoop price baseQty 0 n 1 = ([], baseQty) := by
    rw [sliceLoop_succ]
    unfold sliceStep
    rw [extraQty_zero]
    simp only [sliceLoop, List.range_zero, List.foldl_nil, add_zero]
    rw [if_pos ⟨hone, by omega⟩]
  have hsecond : s.sliceLoop price baseQty 0 n 2 =
      ([⟨0, baseQty + baseQty, price, (baseQty + baseQty) * price, 0⟩], 0) := by
    rw [sliceLoop_succ, hfirst]
    unfold sliceStep
    rw [extraQty_zero]
    simp only [add_zero, List.length_nil, List.nil_append]
    rw [if_neg]
    rintro ⟨hsmall, -⟩
    linarith
  have hmem := List.mem_singleton_self (OrderSlice.mk 0 (baseQty + baseQty) price
    ((baseQty + baseQty) * price) 0)
  refine ⟨_, (s.sliceLoop_prefix price n hn).subset (by rwa [hsecond]), ?_⟩
  ring

/-- One turn pushes the whole order. -/
lemma sliceLoop_one :
    (s.sliceLoop price baseQty 0 1 1).1 = [⟨0, baseQty, price, baseQty * price, 0⟩] := by
  rw [sliceLoop_succ]
  unfold sliceStep
  rw [extraQty_zero, if_neg fun h => Nat.not_lt_zero 0 h.2]
  simp [sliceLoop]

/-- An order needs no merging where it is within the cap, or the number of its shares fits a word
and a share has the least notional. -/
def Unmerged (s : SizeSlicer) (totalNotional : Decimal) : Prop :=
  totalNotional ≤ s.maxSliceUsd ∨
    (⌈totalNotional / s.maxSliceUsd⌉ < 2 ^ 64 ∧
      s.minSliceUsd ≤ totalNotional / ⌈totalNotional / s.maxSliceUsd⌉)

/-- Shares that are not merged stay within the cap. -/
lemma notional_le_of_unmerged {s : SizeSlicer} (hmax : 0 < s.maxSliceUsd)
    {quantity price : Decimal} (hq : 0 < quantity) (hp : 0 < price)
    (hcond : s.Unmerged (quantity * price)) :
    ∀ sl ∈ s.sliceOrder quantity price, sl.notional ≤ s.maxSliceUsd := by
  by_cases hle : quantity * price ≤ s.maxSliceUsd
  · rw [sliceOrder_of_le hmax hq hp hle]
    intro sl hsl
    rw [List.mem_singleton] at hsl
    rw [hsl]
    exact hle
  · obtain ⟨hfit, hmin⟩ := hcond.resolve_left hle
    have htotal : 0 < quantity * price / s.maxSliceUsd := div_pos (mul_pos hq hp) hmax
    have hceil := s.numSlices_eq (quantity * price) htotal hfit
    have hn := s.numSlices_pos (quantity * price)
    rw [sliceOrder_of_lt hmax hq hp (not_le.mp hle) rfl]
    rw [← hceil] at hmin
    have hupper : quantity * price / s.maxSliceUsd ≤ s.numSlices (quantity * price) := by
      have hle := Int.le_ceil (quantity * price / s.maxSliceUsd)
      rw [← hceil] at hle
      exact_mod_cast hle
    generalize s.numSlices (quantity * price) = n at hn hmin hupper ⊢
    have hpos : (0 : ℚ) < n := by exact_mod_cast hn
    have hshare : quantity / n * price = quantity * price / n := by ring
    have hnomerge : s.minSliceUsd ≤ quantity / n * price := by
      rw [hshare]
      exact_mod_cast hmin
    have hcap : quantity / n * price ≤ s.maxSliceUsd := by
      rw [div_le_iff₀ hmax] at hupper
      rw [hshare, div_le_iff₀ hpos]
      linarith
    obtain ⟨-, hone⟩ := s.sliceLoop_no_merge price n hnomerge n
    obtain ⟨hslices, -, -, -⟩ := s.sliceLoop_spec price n (div_pos hq hpos) n
    intro sl hsl
    obtain ⟨sl', hsl', rfl⟩ := List.mem_map.mp hsl
    have hnotional := (hslices sl' hsl').2.2
    rw [hone sl' hsl'] at hnotional
    exact hnotional.trans_le hcap

/-- A share of an order beyond the cap is more than half of it, so that two merged shares leave
it. -/
lemma exists_over_cap {s : SizeSlicer} (hmax : 0 < s.maxSliceUsd)
    (hlimits : s.minSliceUsd ≤ s.maxSliceUsd) {quantity price : Decimal}
    (hbig : s.maxSliceUsd < quantity * price)
    (hfit : ⌈quantity * price / s.maxSliceUsd⌉ < 2 ^ 64)
    (hsmall : quantity * price / ⌈quantity * price / s.maxSliceUsd⌉ < s.minSliceUsd) {n : ℕ}
    (hn : s.numSlices (quantity * price) = n) :
    ∃ sl ∈ (s.sliceLoop price (quantity / n) 0 n n).1, s.maxSliceUsd < sl.notional := by
  have hquot : 1 < quantity * price / s.maxSliceUsd := (one_lt_div hmax).mpr hbig
  have hceil := s.numSlices_eq (quantity * price) (by linarith) hfit
  rw [hn] at hceil
  rw [← hceil] at hsmall
  have htwo : (2 : ℤ) ≤ n := by
    rw [hceil]
    exact Int.add_one_le_iff.mpr (Int.lt_ceil.mpr (by exact_mod_cast hquot))
  have hupper : (n : ℚ) < quantity * price / s.maxSliceUsd + 1 := by
    have hlt := Int.ceil_lt_add_one (quantity * price / s.maxSliceUsd)
    rw [← hceil] at hlt
    exact_mod_cast hlt
  have htwo' : (2 : ℚ) ≤ n := by exact_mod_cast htwo
  have hpos : (0 : ℚ) < n := by linarith
  have hone : quantity / n * price < s.minSliceUsd := by
    rw [div_mul_eq_mul_div]
    exact_mod_cast hsmall
  have hhalf : s.maxSliceUsd < 2 * (quantity / n) * price := by
    have hshare : 2 * (quantity / n) * price = 2 * (quantity * price) / n := by ring
    rw [← sub_lt_iff_lt_add, lt_div_iff₀ hmax] at hupper
    rw [hshare, lt_div_iff₀ hpos]
    nlinarith
  obtain ⟨sl, hsl, hnotional⟩ := s.exists_two_shares price n (by omega) hone
    (hlimits.trans hhalf.le)
  exact ⟨sl, hsl, hnotional ▸ hhalf⟩

/-- The slices respect the cap exactly when no share has to be merged. -/
theorem sliceOrder_capped_iff {s : SizeSlicer} {maxSliceUsd minSliceUsd : Decimal}
    (hs : withLimits maxSliceUsd minSliceUsd = .ok s) (hlimits : s.minSliceUsd ≤ s.maxSliceUsd)
    {quantity price : Decimal} (hq : 0 < quantity) (hp : 0 < price) :
    (∀ sl ∈ s.sliceOrder quantity price, sl.notional ≤ s.maxSliceUsd) ↔
      s.Unmerged (quantity * price) := by
  have hmax := withLimits_max_pos hs
  refine ⟨?_, notional_le_of_unmerged hmax hq hp⟩
  intro hcap
  by_contra hcond
  obtain ⟨hbig, hmerge⟩ := not_or.mp hcond
  rw [not_le] at hbig
  rw [sliceOrder_of_lt hmax hq hp hbig rfl] at hcap
  by_cases hfit : ⌈quantity * price / s.maxSliceUsd⌉ < 2 ^ 64
  · have hsmall := not_le.mp fun h => hmerge ⟨hfit, h⟩
    obtain ⟨sl, hsl, hover⟩ := exists_over_cap hmax hlimits hbig hfit hsmall rfl
    exact absurd (hcap _ (List.mem_map.mpr ⟨sl, hsl, rfl⟩)) (not_le.mpr hover)
  · -- the number of slices does not fit a word, and one slice is the whole order
    have hone := s.numSlices_eq_one (quantity * price) (not_lt.mp hfit)
    rw [hone] at hcap
    rw [s.sliceLoop_one price] at hcap
    have hle := hcap _ (List.mem_map.mpr ⟨_, List.mem_singleton_self _, rfl⟩)
    rw [Nat.cast_one, div_one] at hle
    exact absurd hle (not_le.mpr hbig)

/-- The default slicer keeps its cap on an order of 5000 dollars. -/
theorem sliceOrder_capped_iff_default :
    (∀ sl ∈ new.sliceOrder 50 100, sl.notional ≤ 1000) ∧
    ((∀ sl ∈ new.sliceOrder 50 100, sl.notional ≤ new.maxSliceUsd) ↔ new.Unmerged (50 * 100)) := by
  refine ⟨by decide +kernel, ?_⟩
  have hs : withLimits 1000 5 = .ok new := by
    unfold withLimits
    rw [if_neg (by norm_num), if_neg (by norm_num)]
    rfl
  exact sliceOrder_capped_iff hs (by norm_num [new]) (by norm_num) (by norm_num)

/-- An order of 1100 dollars with a cap of 1000 and a least notional of 600 is one slice of 1100. -/
theorem cap_exceeded :
    ¬ ∀ (s : SizeSlicer) (maxSliceUsd minSliceUsd quantity price : Decimal),
      withLimits maxSliceUsd minSliceUsd = .ok s → s.minSliceUsd ≤ s.maxSliceUsd →
      0 < quantity → 0 < price →
      ∀ sl ∈ s.sliceOrder quantity price, sl.notional ≤ s.maxSliceUsd := by
  intro hclaim
  have hs : withLimits 1000 600 = .ok ⟨1000, 600⟩ := by
    unfold withLimits
    rw [if_neg (by norm_num), if_neg (by norm_num)]
  have hcap := hclaim _ 1000 600 11 100 hs (by norm_num) (by norm_num) (by norm_num)
  have hfails : ¬ ∀ sl ∈ (SizeSlicer.mk 1000 600).sliceOrder 11 100, sl.notional ≤ 1000 := by
    decide +kernel
  exact hfails hcap

end SizeSlicer

end HftArb
