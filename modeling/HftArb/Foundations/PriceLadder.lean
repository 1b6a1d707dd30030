import Mathlib.Algebra.Order.Field.Basic
import Mathlib.Algebra.Order.Floor.Ring
import Mathlib.Order.Bounds.Basic
import Mathlib.Tactic

/-!
# Price ladders

A ladder is a list of levels, each with a price and a quantity.  `cost` is what a quantity costs
from the first level on, and `bought` the quantity that an amount buys.  The two are inverse to each
other in the sense of `cost_le_iff`: a quantity that the ladder holds costs at most an amount
exactly when the amount buys it.  That `bought` is the greatest quantity within an amount, and that
it grows with the amount, follows from this alone; on a ladder with ascending prices the average
price lies between those of the first and of the last level touched.
-/

namespace PriceLadder

/-- A level of a ladder. -/
structure Level (K : Type*) [Field K] [LinearOrder K] where
  price : K
  quantity : K
  price_pos : 0 < price
  quantity_pos : 0 < quantity

section Ladder

variable {K : Type*} [Field K] [LinearOrder K]

/-- The quantity of all levels. -/
def depth (ladder : List (Level K)) : K := (ladder.map Level.quantity).sum

/-- What a quantity costs. -/
def cost : List (Level K) → K → K
  | [], _ => 0
  | l :: ladder, q =>
    if q ≤ l.quantity then q * l.price
    else l.quantity * l.price + cost ladder (q - l.quantity)

/-- The quantity that an amount buys. -/
def bought : List (Level K) → K → K
  | [], _ => 0
  | l :: ladder, s =>
    if s ≤ l.price * l.quantity then s / l.price
    else l.quantity + bought ladder (s - l.price * l.quantity)

/-- The levels from which a quantity takes something. -/
def touched : List (Level K) → K → List (Level K)
  | [], _ => []
  | l :: ladder, q => if q ≤ 0 then [] else l :: touched ladder (q - l.quantity)

variable {ladder : List (Level K)} {q s : K}

@[simp] lemma depth_nil : depth ([] : List (Level K)) = 0 := rfl

@[simp] lemma depth_cons (l : Level K) : depth (l :: ladder) = l.quantity + depth ladder := by
  rw [depth, List.map_cons, List.sum_cons, depth]

/-- A quantity touches the first levels of the ladder. -/
lemma touched_prefix (ladder : List (Level K)) (q : K) : touched ladder q <+: ladder := by
  induction ladder generalizing q with
  | nil => exact List.prefix_refl _
  | cons l ladder ih =>
    rw [touched]
    split_ifs
    · exact List.nil_prefix
    · exact List.cons_prefix_cons.mpr ⟨rfl, ih _⟩

lemma touched_of_nonpos (ladder : List (Level K)) (hq : q ≤ 0) : touched ladder q = [] := by
  cases ladder with
  | nil => rfl
  | cons l ladder => exact if_pos hq

@[simp] lemma cost_zero (ladder : List (Level K)) : cost ladder 0 = 0 := by
  cases ladder with
  | nil => rfl
  | cons l ladder => rw [cost, if_pos l.quantity_pos.le, zero_mul]

variable [IsStrictOrderedRing K]

lemma cost_nonneg (hq : 0 ≤ q) : 0 ≤ cost ladder q := by
  induction ladder generalizing q with
  | nil => exact le_rfl
  | cons l ladder ih =>
    rw [cost]
    split_ifs with hle
    · exact mul_nonneg hq l.price_pos.le
    · have hrest : 0 ≤ q - l.quantity := sub_nonneg.mpr (not_le.mp hle).le
      exact add_nonneg (mul_nonneg l.quantity_pos.le l.price_pos.le) (ih hrest)

/-- A quantity that the ladder holds is not free. -/
lemma cost_pos (hq : 0 < q) (hdepth : q ≤ depth ladder) : 0 < cost ladder q := by
  cases ladder with
  | nil => exact absurd hdepth (not_le.mpr hq)
  | cons l ladder =>
    rw [cost]
    split_ifs with hle
    · exact mul_pos hq l.price_pos
    · have hrest : 0 ≤ q - l.quantity := sub_nonneg.mpr (not_le.mp hle).le
      exact add_pos_of_pos_of_nonneg (mul_pos l.quantity_pos l.price_pos) (cost_nonneg hrest)

lemma bought_nonneg (hs : 0 ≤ s) : 0 ≤ bought ladder s := by
  induction ladder generalizing s with
  | nil => exact le_rfl
  | cons l ladder ih =>
    rw [bought]
    split_ifs with hle
    · exact div_nonneg hs l.price_pos.le
    · exact add_nonneg l.quantity_pos.le (ih (sub_nonneg.mpr (not_le.mp hle).le))

@[simp] lemma bought_zero (ladder : List (Level K)) : bought ladder 0 = 0 := by
  cases ladder with
  | nil => rfl
  | cons l ladder =>
    rw [bought, if_pos (mul_nonneg l.price_pos.le l.quantity_pos.le), zero_div]

lemma depth_nonneg (ladder : List (Level K)) : 0 ≤ depth ladder := by
  refine List.sum_nonneg ?_
  rw [List.forall_mem_map]
  exact fun l _ => l.quantity_pos.le

lemma bought_le_depth (ladder : List (Level K)) (s : K) : bought ladder s ≤ depth ladder := by
  induction ladder generalizing s with
  | nil => exact le_rfl
  | cons l ladder ih =>
    rw [bought, depth_cons]
    split_ifs with hle
    · have hquantity : s / l.price ≤ l.quantity := by
        rw [div_le_iff₀ l.price_pos, mul_comm]
        exact hle
      exact hquantity.trans (le_add_of_nonneg_right (depth_nonneg ladder))
    · exact add_le_add_right (ih _) _

/-- A quantity that the ladder holds costs at most an amount exactly when the amount buys it. -/
lemma cost_le_iff (hq : 0 ≤ q) (hdepth : q ≤ depth ladder) (hs : 0 ≤ s) :
    cost ladder q ≤ s ↔ q ≤ bought ladder s := by
  induction ladder generalizing q s with
  | nil => exact iff_of_true hs (hdepth.trans le_rfl)
  | cons l ladder ih =>
    rw [depth_cons] at hdepth
    rw [cost, bought]
    by_cases hlevel : q ≤ l.quantity
    · rw [if_pos hlevel]
      by_cases hspent : s ≤ l.price * l.quantity
      · rw [if_pos hspent, le_div_iff₀ l.price_pos]
      · rw [if_neg hspent]
        -- the first level alone holds the quantity, and the amount pays for all of it
        have hrest : 0 ≤ bought ladder (s - l.price * l.quantity) :=
          bought_nonneg (sub_nonneg.mpr (not_le.mp hspent).le)
        refine iff_of_true ?_ (hlevel.trans (le_add_of_nonneg_right hrest))
        have hprice := mul_le_mul_of_nonneg_right hlevel l.price_pos.le
        linarith [not_le.mp hspent, mul_comm l.price l.quantity]
    · rw [if_neg hlevel]
      have hmore : 0 < q - l.quantity := sub_pos.mpr (not_le.mp hlevel)
      by_cases hspent : s ≤ l.price * l.quantity
      · rw [if_pos hspent]
        have hrest := cost_pos hmore (by linarith : q - l.quantity ≤ depth ladder)
        refine iff_of_false (not_le.mpr ?_) (not_le.mpr ?_)
        · linarith [mul_comm l.price l.quantity]
        · rw [div_lt_iff₀ l.price_pos]
          have hprice := mul_lt_mul_of_pos_right (not_le.mp hlevel) l.price_pos
          linarith [mul_comm l.price l.quantity]
      · rw [if_neg hspent]
        have hrest := ih hmore.le (by linarith : q - l.quantity ≤ depth ladder)
          (sub_nonneg.mpr (not_le.mp hspent).le)
        rw [← sub_le_iff_le_add', ← hrest, mul_comm l.price, le_sub_iff_add_le']

/-- An amount buys the greatest quantity that costs no more. -/
lemma bought_isGreatest (ladder : List (Level K)) (hs : 0 ≤ s) :
    IsGreatest {q | 0 ≤ q ∧ q ≤ depth ladder ∧ cost ladder q ≤ s} (bought ladder s) := by
  have hdepth := bought_le_depth ladder s
  refine ⟨⟨bought_nonneg hs, hdepth, ?_⟩, fun q hq => (cost_le_iff hq.1 hq.2.1 hs).mp hq.2.2⟩
  exact (cost_le_iff (bought_nonneg hs) hdepth hs).mpr le_rfl

/-- More buys more. -/
lemma bought_mono {s' : K} (hs : 0 ≤ s) (hle : s ≤ s') : bought ladder s ≤ bought ladder s' := by
  obtain ⟨⟨hq, hdepth, hcost⟩, -⟩ := bought_isGreatest ladder hs
  exact (cost_le_iff hq hdepth (hs.trans hle)).mp (hcost.trans hle)

/-- On a ladder with ascending prices a quantity costs at least the first price and at most that of
the last level touched. -/
lemma cost_between (hasc : ladder.Pairwise fun l l' => l.price ≤ l'.price) (hq : 0 < q)
    (hdepth : q ≤ depth ladder) :
    ∃ best worst, (touched ladder q).head? = some best ∧ (touched ladder q).getLast? = some worst ∧
      q * best.price ≤ cost ladder q ∧ cost ladder q ≤ q * worst.price := by
  induction ladder generalizing q with
  | nil => exact absurd hdepth (not_le.mpr hq)
  | cons l ladder ih =>
    obtain ⟨hfirst, hasc⟩ := List.pairwise_cons.mp hasc
    rw [touched, if_neg (not_le.mpr hq), cost]
    by_cases hlevel : q ≤ l.quantity
    · rw [if_pos hlevel, touched_of_nonpos ladder (sub_nonpos.mpr hlevel)]
      exact ⟨l, l, rfl, rfl, le_rfl, le_rfl⟩
    · rw [if_neg hlevel]
      have hmore : 0 < q - l.quantity := sub_pos.mpr (not_le.mp hlevel)
      rw [depth_cons] at hdepth
      obtain ⟨best, worst, hbest, hworst, hlower, hupper⟩ := ih hasc hmore (by linarith)
      have htouched := touched_prefix ladder (q - l.quantity)
      have hmem_best := hfirst best (htouched.subset (List.mem_of_head? hbest))
      have hmem_worst := hfirst worst (htouched.subset (List.mem_of_getLast? hworst))
      refine ⟨l, worst, rfl, ?_, ?_, ?_⟩
      · rw [List.getLast?_cons, hworst, Option.getD_some]
      · have hprice := mul_le_mul_of_nonneg_left hmem_best hmore.le
        linarith
      · have hprice := mul_le_mul_of_nonneg_left hmem_worst l.quantity_pos.le
        linarith

end Ladder

/-! ## Lots -/

section Lots

variable {K : Type*} [Field K] [LinearOrder K] [IsStrictOrderedRing K] [FloorRing K]

/-- A quantity rounded down to a multiple of the lot. -/
def wholeLots (lot q : K) : K := (⌊q / lot⌋ : ℤ) * lot

variable {lot q q' : K}

/-- Rounding down gives the greatest multiple of the lot. -/
lemma wholeLots_isGreatest (hlot : 0 < lot) (q : K) :
    IsGreatest {x | (∃ n : ℤ, x = n * lot) ∧ x ≤ q} (wholeLots lot q) := by
  refine ⟨⟨⟨_, rfl⟩, ?_⟩, ?_⟩
  · rw [wholeLots, ← le_div_iff₀ hlot]
    exact Int.floor_le _
  · rintro x ⟨⟨n, rfl⟩, hx⟩
    rw [wholeLots]
    refine mul_le_mul_of_nonneg_right ?_ hlot.le
    exact_mod_cast Int.le_floor.mpr ((le_div_iff₀ hlot).mpr hx)

lemma wholeLots_le (hlot : 0 < lot) (q : K) : wholeLots lot q ≤ q :=
  (wholeLots_isGreatest hlot q).1.2

lemma wholeLots_nonneg (hlot : 0 < lot) (hq : 0 ≤ q) : 0 ≤ wholeLots lot q :=
  (wholeLots_isGreatest hlot q).2 ⟨⟨0, by simp⟩, hq⟩

lemma wholeLots_mono (hlot : 0 < lot) (hle : q ≤ q') : wholeLots lot q ≤ wholeLots lot q' :=
  (wholeLots_isGreatest hlot q').2 ⟨⟨_, rfl⟩, (wholeLots_le hlot q).trans hle⟩

/-- The lots of a quantity are within a smaller one exactly when both have as many. -/
lemma wholeLots_le_iff (hlot : 0 < lot) (hle : q' ≤ q) :
    wholeLots lot q ≤ q' ↔ ⌊q' / lot⌋ = ⌊q / lot⌋ := by
  constructor
  · intro h
    refine le_antisymm (Int.floor_le_floor (div_le_div_of_nonneg_right hle hlot.le)) ?_
    exact Int.le_floor.mpr ((le_div_iff₀ hlot).mpr h)
  · intro h
    rw [wholeLots, ← h]
    exact wholeLots_le hlot q'

end Lots

end PriceLadder
