import HftArb.Foundations.PriceLadder
import HftArb.SignalLoop.Shields

/-!
# The discrete slippage estimate

`process_discrete_buy_slippage` walks the asks of a book twice: once with an amount to spend, for
the quantity that it buys, and, after this quantity has been rounded down to whole lots, once more
for what these cost.  The two walks agree, because the quantity of an amount and the cost of a
quantity on a ladder of prices are inverse to each other (`processDiscreteBuySlippage_exact`).

The taker fee of the shield is not applied: the estimate is affordable with the fee exactly when
the fee does not cost a whole lot (`affordable_iff`).
-/

namespace HftArb

open PriceLadder

namespace DiscreteSlippage

/-- `MATRIX_BOOK_DEPTH`. -/
def matrixBookDepth : ℕ := 4

/-- `FP_SCALE`: nine decimals. -/
def fpScale : Decimal := 1000000000

/-- A layer of the book. -/
structure OrderBookLayer where
  priceFp : UInt64
  quantityFp : UInt64

namespace OrderBookLayer

/-- The price as a decimal. -/
def price (l : OrderBookLayer) : Decimal := Decimal.ofU64 l.priceFp / fpScale

/-- The quantity as a decimal. -/
def quantity (l : OrderBookLayer) : Decimal := Decimal.ofU64 l.quantityFp / fpScale

/-- The layer has no price or no quantity. -/
def IsEmpty (l : OrderBookLayer) : Prop := l.quantityFp = 0 ∨ l.priceFp = 0

instance (l : OrderBookLayer) : Decidable l.IsEmpty := inferInstanceAs (Decidable (_ ∨ _))

end OrderBookLayer

/-- The asks of a book of fixed size. -/
structure FastOrderBook where
  asks : List OrderBookLayer
  length_asks : asks.length = matrixBookDepth

/-- The shield with its fee and the lot step of its rules. -/
structure SlippageShield extends ProductionRiskShield where
  totalTakerFee : Decimal
  lotStepSize : Decimal

/-! ## The walks -/

/-- The walk with an amount: what remains of it, and the quantity and the cost so far. -/
def buyWalk : List OrderBookLayer → Decimal → Decimal → Decimal → Decimal × Decimal × Decimal
  | [], remaining, totalQty, totalCost => (remaining, totalQty, totalCost)
  | layer :: layers, remaining, totalQty, totalCost =>
    if layer.IsEmpty ∨ remaining ≤ 0 then (remaining, totalQty, totalCost)
    else
      let levelCost := layer.price * layer.quantity
      if levelCost ≤ remaining then
        buyWalk layers (remaining - levelCost) (totalQty + layer.quantity) (totalCost + levelCost)
      else buyWalk layers 0 (totalQty + remaining / layer.price) (totalCost + remaining)

/-- The walk with a quantity, and the cost so far. -/
def costWalk : List OrderBookLayer → Decimal → Decimal → Decimal
  | [], _, exactCost => exactCost
  | layer :: layers, remainingQty, exactCost =>
    if layer.IsEmpty ∨ remainingQty ≤ 0 then exactCost
    else if remainingQty ≤ layer.quantity then exactCost + remainingQty * layer.price
    else costWalk layers (remainingQty - layer.quantity) (exactCost + layer.quantity * layer.price)

/-- `truncate_lot_step`. -/
def truncateLotStep (s : SlippageShield) (qty : Decimal) : Decimal :=
  if 0 < s.lotStepSize then (⌊qty / s.lotStepSize⌋ : ℤ) * s.lotStepSize else qty

/-- `process_discrete_buy_slippage`. -/
def processDiscreteBuySlippage (s : SlippageShield) (book : FastOrderBook)
    (spendAmount : Decimal) : Decimal × Decimal :=
  let totalQty := (buyWalk book.asks spendAmount 0 0).2.1
  let truncatedQty := truncateLotStep s totalQty
  let exactCost := costWalk book.asks truncatedQty 0
  let vwap := if 0 < truncatedQty then exactCost / truncatedQty else 0
  (truncatedQty, vwap)

/-! ## The ladder of the asks -/

lemma pos_of_ne_zero {n : UInt64} (h : n ≠ 0) : 0 < Decimal.ofU64 n / fpScale := by
  have hpos : 0 < n.toNat := Nat.pos_of_ne_zero fun hzero => h (UInt64.toNat_inj.mp hzero)
  have hcast : (0 : ℚ) < n.toNat := by exact_mod_cast hpos
  exact div_pos hcast (by norm_num [fpScale])

namespace OrderBookLayer

variable {l : OrderBookLayer}

lemma price_pos (h : ¬ l.IsEmpty) : 0 < l.price := pos_of_ne_zero fun hp => h (Or.inr hp)

lemma quantity_pos (h : ¬ l.IsEmpty) : 0 < l.quantity := pos_of_ne_zero fun hq => h (Or.inl hq)

/-- A layer that is not empty is a level of a ladder. -/
def level? (l : OrderBookLayer) : Option (Level ℚ) :=
  if h : l.IsEmpty then none else some ⟨l.price, l.quantity, price_pos h, quantity_pos h⟩

end OrderBookLayer

/-- The levels of the layers before the first empty one. -/
def ladderOf : List OrderBookLayer → List (Level ℚ)
  | [] => []
  | layer :: layers =>
    match layer.level? with
    | none => []
    | some level => level :: ladderOf layers

lemma ladderOf_of_isEmpty {layer : OrderBookLayer} (h : layer.IsEmpty)
    (layers : List OrderBookLayer) : ladderOf (layer :: layers) = [] := by
  rw [ladderOf, OrderBookLayer.level?, dif_pos h]

lemma ladderOf_of_not_isEmpty {layer : OrderBookLayer} (h : ¬ layer.IsEmpty)
    (layers : List OrderBookLayer) :
    ladderOf (layer :: layers) =
      ⟨layer.price, layer.quantity, layer.price_pos h, layer.quantity_pos h⟩ ::
        ladderOf layers := by
  rw [ladderOf, OrderBookLayer.level?, dif_neg h]

/-- The first walk ends with the quantity that the amount buys. -/
lemma buyWalk_eq (layers : List OrderBookLayer) {remaining : Decimal} (hremaining : 0 ≤ remaining)
    (totalQty totalCost : Decimal) :
    (buyWalk layers remaining totalQty totalCost).2.1 =
      totalQty + bought (ladderOf layers) remaining := by
  induction layers generalizing remaining totalQty totalCost with
  | nil => exact (add_zero totalQty).symm
  | cons layer layers ih =>
    rw [buyWalk]
    by_cases hempty : layer.IsEmpty
    · rw [if_pos (Or.inl hempty), ladderOf_of_isEmpty hempty]
      exact (add_zero totalQty).symm
    · rw [ladderOf_of_not_isEmpty hempty]
      rcases hremaining.eq_or_lt with rfl | hpos
      · rw [if_pos (Or.inr le_rfl), bought_zero, add_zero]
      · rw [if_neg (by simp [hempty, hpos]), bought]
        dsimp only
        rcases lt_trichotomy (layer.price * layer.quantity) remaining with hlt | heq | hgt
        · rw [if_pos hlt.le, if_neg (not_le.mpr hlt), ih (sub_pos.mpr hlt).le, add_assoc]
        · -- the amount pays for exactly this level
          rw [if_pos heq.le, if_pos heq.ge, ih (sub_nonneg.mpr heq.le), heq, sub_self, bought_zero,
            add_zero, ← heq, mul_div_cancel_left₀ _ (layer.price_pos hempty).ne']
        · rw [if_neg (not_le.mpr hgt), if_pos hgt.le, ih le_rfl, bought_zero, add_zero]

/-- The second walk ends with the cost of the quantity. -/
lemma costWalk_eq (layers : List OrderBookLayer) {qty : Decimal} (hqty : 0 ≤ qty)
    (exactCost : Decimal) :
    costWalk layers qty exactCost = exactCost + cost (ladderOf layers) qty := by
  induction layers generalizing qty exactCost with
  | nil => exact (add_zero exactCost).symm
  | cons layer layers ih =>
    rw [costWalk]
    by_cases hempty : layer.IsEmpty
    · rw [if_pos (Or.inl hempty), ladderOf_of_isEmpty hempty]
      exact (add_zero exactCost).symm
    · rw [ladderOf_of_not_isEmpty hempty]
      rcases hqty.eq_or_lt with rfl | hpos
      · rw [if_pos (Or.inr le_rfl), cost_zero, add_zero]
      · rw [if_neg (by simp [hempty, hpos]), cost]
        dsimp only
        by_cases hlevel : qty ≤ layer.quantity
        · rw [if_pos hlevel, if_pos hlevel]
        · rw [if_neg hlevel, if_neg hlevel, ih (sub_pos.mpr (not_le.mp hlevel)).le, add_assoc]

/-! ## The estimate -/

section Estimate

variable {s : SlippageShield} (book : FastOrderBook) {spend : Decimal}

/-- The quantity is that of the amount in whole lots. -/
lemma processDiscreteBuySlippage_fst (hspend : 0 ≤ spend) (hlot : 0 < s.lotStepSize) :
    (processDiscreteBuySlippage s book spend).1 =
      wholeLots s.lotStepSize (bought (ladderOf book.asks) spend) := by
  have hwalk := buyWalk_eq book.asks hspend 0 0
  rw [zero_add] at hwalk
  rw [processDiscreteBuySlippage, hwalk, truncateLotStep, if_pos hlot]
  rfl

/-- The quantity is within the quantity that the amount buys, and within the book. -/
lemma processDiscreteBuySlippage_fst_mem (hspend : 0 ≤ spend) (hlot : 0 < s.lotStepSize) :
    0 ≤ (processDiscreteBuySlippage s book spend).1 ∧
      (processDiscreteBuySlippage s book spend).1 ≤ bought (ladderOf book.asks) spend ∧
      (processDiscreteBuySlippage s book spend).1 ≤ depth (ladderOf book.asks) := by
  rw [processDiscreteBuySlippage_fst book hspend hlot]
  have hle := wholeLots_le hlot (bought (ladderOf book.asks) spend)
  exact ⟨wholeLots_nonneg hlot (bought_nonneg hspend), hle, hle.trans (bought_le_depth _ _)⟩

/-- The two results multiply to the cost of the quantity. -/
lemma processDiscreteBuySlippage_mul (hspend : 0 ≤ spend) (hlot : 0 < s.lotStepSize) :
    (processDiscreteBuySlippage s book spend).1 * (processDiscreteBuySlippage s book spend).2 =
      cost (ladderOf book.asks) (processDiscreteBuySlippage s book spend).1 := by
  obtain ⟨hnonneg, -, -⟩ := processDiscreteBuySlippage_fst_mem book hspend hlot
  have hsnd : (processDiscreteBuySlippage s book spend).2 =
      if 0 < (processDiscreteBuySlippage s book spend).1 then
        costWalk book.asks (processDiscreteBuySlippage s book spend).1 0 /
          (processDiscreteBuySlippage s book spend).1
      else 0 := rfl
  rcases hnonneg.eq_or_lt with hzero | hpos
  · rw [← hzero, zero_mul, cost_zero]
  · rw [hsnd, if_pos hpos, mul_div_cancel₀ _ hpos.ne', costWalk_eq _ hnonneg, zero_add]

end Estimate

/-- The layers that are not empty come first, with ascending prices. -/
structure FastOrderBook.Ascending (book : FastOrderBook) : Prop where
  empty_last : book.asks.Pairwise fun l l' => l.IsEmpty → l'.IsEmpty
  price_le : book.asks.Pairwise fun l l' => ¬ l.IsEmpty → ¬ l'.IsEmpty → l.price ≤ l'.price

/-- The levels of the asks that are not empty. -/
def FastOrderBook.levels (book : FastOrderBook) : List (Level ℚ) :=
  book.asks.filterMap OrderBookLayer.level?

/-- When the empty layers are last, no level is behind one of them. -/
lemma ladderOf_eq_filterMap {layers : List OrderBookLayer}
    (h : layers.Pairwise fun l l' => l.IsEmpty → l'.IsEmpty) :
    ladderOf layers = layers.filterMap OrderBookLayer.level? := by
  induction layers with
  | nil => rfl
  | cons layer layers ih =>
    obtain ⟨hfirst, hrest⟩ := List.pairwise_cons.mp h
    rw [ladderOf]
    cases hlevel : layer.level? with
    | none =>
      have hempty : layer.IsEmpty := by
        by_contra hne
        rw [OrderBookLayer.level?, dif_neg hne] at hlevel
        cases hlevel
      have hnone : layers.filterMap OrderBookLayer.level? = [] :=
        List.filterMap_eq_nil_iff.mpr fun layer' hmem => dif_pos (hfirst layer' hmem hempty)
      rw [List.filterMap_cons_none hlevel, hnone]
    | some level => rw [List.filterMap_cons_some hlevel, ih hrest]

/-- A level comes from a layer with its price. -/
lemma price_of_level?_eq_some {layer : OrderBookLayer} {level : Level ℚ}
    (h : layer.level? = some level) : ¬ layer.IsEmpty ∧ level.price = layer.price := by
  unfold OrderBookLayer.level? at h
  split at h
  · cases h
  · next hne =>
    cases h
    exact ⟨hne, rfl⟩

lemma FastOrderBook.Ascending.levels_ascending {book : FastOrderBook} (hbook : book.Ascending) :
    book.levels.Pairwise fun l l' => l.price ≤ l'.price := by
  rw [FastOrderBook.levels, List.pairwise_filterMap]
  refine hbook.price_le.imp fun hle level hlevel level' hlevel' => ?_
  obtain ⟨hne, hprice⟩ := price_of_level?_eq_some hlevel
  obtain ⟨hne', hprice'⟩ := price_of_level?_eq_some hlevel'
  rw [hprice, hprice']
  exact hle hne hne'

/-- On an ascending book the estimate is exact: its quantity is the greatest number of whole lots
that the amount buys, its price the average price of this quantity. -/
theorem processDiscreteBuySlippage_exact {s : SlippageShield} {book : FastOrderBook}
    (hbook : book.Ascending) {spend : Decimal} (hspend : 0 ≤ spend) (hlot : 0 < s.lotStepSize) :
    IsGreatest {q | 0 ≤ q ∧ q ≤ depth book.levels ∧ cost book.levels q ≤ spend}
      (bought book.levels spend) ∧
    IsGreatest {q | (∃ n : ℤ, q = n * s.lotStepSize) ∧ q ≤ bought book.levels spend}
      (processDiscreteBuySlippage s book spend).1 ∧
    (processDiscreteBuySlippage s book spend).1 * (processDiscreteBuySlippage s book spend).2 =
      cost book.levels (processDiscreteBuySlippage s book spend).1 ∧
    (processDiscreteBuySlippage s book spend).1 * (processDiscreteBuySlippage s book spend).2 ≤
      spend ∧
    (0 < (processDiscreteBuySlippage s book spend).1 → ∃ best worst,
      (touched book.levels (processDiscreteBuySlippage s book spend).1).head? = some best ∧
      (touched book.levels (processDiscreteBuySlippage s book spend).1).getLast? = some worst ∧
      best.price ≤ (processDiscreteBuySlippage s book spend).2 ∧
      (processDiscreteBuySlippage s book spend).2 ≤ worst.price) ∧
    ∀ spend', spend ≤ spend' →
      (processDiscreteBuySlippage s book spend).1 ≤
        (processDiscreteBuySlippage s book spend').1 := by
  have hlevels : ladderOf book.asks = book.levels := ladderOf_eq_filterMap hbook.empty_last
  obtain ⟨hnonneg, hbought, hdepth⟩ := processDiscreteBuySlippage_fst_mem book hspend hlot
  have hmul := processDiscreteBuySlippage_mul book hspend hlot
  rw [hlevels] at hbought hdepth hmul
  refine ⟨bought_isGreatest _ hspend, ?_, hmul, ?_, fun hpos => ?_, fun spend' hle => ?_⟩
  · rw [processDiscreteBuySlippage_fst book hspend hlot, hlevels]
    exact wholeLots_isGreatest hlot _
  · rw [hmul, cost_le_iff hnonneg hdepth hspend]
    exact hbought
  · obtain ⟨best, worst, hbest, hworst, hlower, hupper⟩ :=
      cost_between hbook.levels_ascending hpos hdepth
    rw [← hmul] at hlower hupper
    exact ⟨best, worst, hbest, hworst, le_of_mul_le_mul_left hlower hpos,
      le_of_mul_le_mul_left hupper hpos⟩
  · rw [processDiscreteBuySlippage_fst book hspend hlot,
      processDiscreteBuySlippage_fst book (hspend.trans hle) hlot]
    exact wholeLots_mono hlot (bought_mono hspend hle)

/-- With its fee the estimate is within the amount exactly when the fee does not cost a whole lot:
the amount and what is left of it for the price buy as many lots. -/
theorem affordable_iff {s : SlippageShield} (book : FastOrderBook) {spend : Decimal}
    (hfee : 0 ≤ s.totalTakerFee) (hlot : 0 < s.lotStepSize) (hspend : 0 ≤ spend) :
    (processDiscreteBuySlippage s book spend).1 * (processDiscreteBuySlippage s book spend).2 *
        (1 + s.totalTakerFee) ≤ spend ↔
      ⌊bought (ladderOf book.asks) (spend / (1 + s.totalTakerFee)) / s.lotStepSize⌋ =
        ⌊bought (ladderOf book.asks) spend / s.lotStepSize⌋ := by
  obtain ⟨hnonneg, hbought, hdepth⟩ := processDiscreteBuySlippage_fst_mem book hspend hlot
  have hfactor : 0 < 1 + s.totalTakerFee := by linarith
  have hless : spend / (1 + s.totalTakerFee) ≤ spend := div_le_self hspend (by linarith)
  have hnet : 0 ≤ spend / (1 + s.totalTakerFee) := div_nonneg hspend hfactor.le
  rw [processDiscreteBuySlippage_mul book hspend hlot, ← le_div_iff₀ hfactor,
    cost_le_iff hnonneg hdepth hnet, processDiscreteBuySlippage_fst book hspend hlot,
    wholeLots_le_iff hlot (bought_mono hnet hless)]

/-! ## A book of two levels -/

/-- Ten units at a price of a hundred, and twenty at a hundred and one. -/
def twoLevelBook : FastOrderBook where
  asks := [⟨100000000000, 10000000000⟩, ⟨101000000000, 20000000000⟩, ⟨0, 0⟩, ⟨0, 0⟩]
  length_asks := rfl

/-- A shield with a fee and a step of lots. -/
def shieldOf (fee lot : Decimal) : SlippageShield :=
  ⟨ProductionRiskShield.withDefaults, fee, lot⟩

lemma twoLevelBook_ascending : twoLevelBook.Ascending where
  empty_last := by decide
  price_le := by decide +kernel

/-- An amount of 2050 takes the first level and a part of the second one: twenty whole lots of one
unit. -/
theorem processDiscreteBuySlippage_exact_twoLevels :
    processDiscreteBuySlippage (shieldOf (2 / 1000) 1) twoLevelBook 2050 = (20, 201 / 2) ∧
      20 * (201 / 2) = cost twoLevelBook.levels 20 ∧
      (20 : ℚ) ≤ (processDiscreteBuySlippage (shieldOf (2 / 1000) 1) twoLevelBook 2051).1 := by
  have heval : processDiscreteBuySlippage (shieldOf (2 / 1000) 1) twoLevelBook 2050 =
      (20, 201 / 2) := by
    decide +kernel
  have hlot : 0 < (shieldOf (2 / 1000) 1).lotStepSize := by norm_num [shieldOf]
  obtain ⟨-, -, hcost, -, -, hmono⟩ := processDiscreteBuySlippage_exact twoLevelBook_ascending
    (by norm_num : (0 : ℚ) ≤ 2050) hlot
  have hmono := hmono 2051 (by norm_num)
  rw [heval] at hcost hmono
  exact ⟨heval, hcost, hmono⟩

/-- The fee of these twenty lots is within the amount. -/
theorem affordable_iff_twoLevels :
    (processDiscreteBuySlippage (shieldOf (2 / 1000) 1) twoLevelBook 2050).1 *
        (processDiscreteBuySlippage (shieldOf (2 / 1000) 1) twoLevelBook 2050).2 *
      (1 + 2 / 1000) ≤ 2050 :=
  (affordable_iff twoLevelBook (by norm_num [shieldOf]) (by norm_num [shieldOf])
    (by norm_num)).mpr (by decide +kernel)

/-- An amount of 500 is spent on five units, and the fee comes on top. -/
theorem fee_not_applied :
    500 < (processDiscreteBuySlippage (shieldOf (2 / 1000) (1 / 1000)) twoLevelBook 500).1 *
        (processDiscreteBuySlippage (shieldOf (2 / 1000) (1 / 1000)) twoLevelBook 500).2 *
      (1 + 2 / 1000) := by
  decide +kernel

end DiscreteSlippage

end HftArb
