import HftArb.Decimal

/-!
# The shields of the signal loop

Two checks stand between a signal and its orders.  `ProductionRiskShield.validateExecutionSafety`
looks at a cross-exchange signal, `RiskShield.verifyTriangularLoop` simulates a triangular one on
the tickers of its three tokens.  `verifyTriangularLoop_margin` is the inequality between the
prices that a passed simulation stands for.
-/

namespace HftArb

/-! ## Cross-exchange signals -/

/-- The check of the expected profit and the notional of a cross-exchange signal; its least notional
is the one field of the execution rules it reads. -/
structure ProductionRiskShield where
  netProfitFloor : Decimal
  minimumNotional : Decimal

/-- The shield the signal loop is built with. -/
def ProductionRiskShield.withDefaults : ProductionRiskShield := ⟨12 / 100, 5⟩

/-- The expected profit is positive and above the floor, and the notional above its least value. -/
def ProductionRiskShield.validateExecutionSafety (s : ProductionRiskShield)
    (notional expectedProfitPct : Decimal) : Bool :=
  if expectedProfitPct ≤ 0 then false
  else if notional < s.minimumNotional then false
  else if expectedProfitPct < s.netProfitFloor then false
  else true

/-! ## Triangular signals -/

/-- Best ask and bid of a token with their quantities. -/
structure MarketTicker where
  askPrice : Decimal
  askQty : Decimal
  bidPrice : Decimal
  bidQty : Decimal

/-- The simulation of a triangular loop; the standard fee is not read by it. -/
structure RiskShield where
  minCapitalRequirement : Decimal
  executionSafetyBuffer : Decimal

/-- The shield the signal loop is built with. -/
def RiskShield.signalLoop : RiskShield := ⟨10, 1 / 1000⟩

/-- The least capital of a loop, `MIN_ORDER_NOTIONAL`. -/
def minOrderNotional : Decimal := 10

/-- The least depth of a leg, `MIN_LEG_LIQUIDITY`. -/
def minLegLiquidity : Decimal := 1

/-- An amount less its fee. -/
def afterFee (amount feeRate : Decimal) : Decimal := amount - amount * feeRate

/-- Leg 1 buys with the capital. -/
def leg1Qty (capital : Decimal) (leg1 : MarketTicker) (feeRate : Decimal) : Decimal :=
  afterFee (capital / leg1.askPrice) feeRate

/-- Leg 2 buys with the quantity of leg 1. -/
def leg2Qty (capital : Decimal) (leg1 leg2 : MarketTicker) (feeRate : Decimal) : Decimal :=
  afterFee (leg1Qty capital leg1 feeRate / leg2.askPrice) feeRate

/-- Leg 3 sells the quantity of leg 2. -/
def leg3Proceeds (capital : Decimal) (leg1 leg2 leg3 : MarketTicker) (feeRate : Decimal) :
    Decimal :=
  afterFee (leg2Qty capital leg1 leg2 feeRate * leg3.bidPrice) feeRate

/-- The profit of a triangular loop after fees, if it is safe and profitable. -/
def RiskShield.verifyTriangularLoop (s : RiskShield) (capital : Decimal)
    (leg1 leg2 leg3 : MarketTicker) (feeRate : Decimal) : Option Decimal :=
  if feeRate < 0 ∨ 1 ≤ feeRate then none
  else if capital < minOrderNotional then none
  else if capital < s.minCapitalRequirement then none
  else if leg1.askPrice ≤ 0 ∨ leg2.askPrice ≤ 0 ∨ leg3.bidPrice ≤ 0 then none
  else if leg1.askQty < minLegLiquidity ∨ leg2.askQty < minLegLiquidity
      ∨ leg3.bidQty < minLegLiquidity then none
  else if leg1Qty capital leg1 feeRate ≤ 0 then none
  else if leg1.askQty < capital / leg1.askPrice then none
  else if leg2Qty capital leg1 leg2 feeRate ≤ 0 then none
  else if leg2.askQty < leg1Qty capital leg1 feeRate / leg2.askPrice then none
  else if leg3.bidQty < leg2Qty capital leg1 leg2 feeRate then none
  else if leg3Proceeds capital leg1 leg2 leg3 feeRate / capital ≤ 1 + s.executionSafetyBuffer then
    none
  else if leg3Proceeds capital leg1 leg2 leg3 feeRate - capital ≤ 0 then none
  else some (leg3Proceeds capital leg1 leg2 leg3 feeRate - capital)

/-- A passed simulation has passed its guards; these are the ones on the fee, the prices, the depth
of the second leg and the profit. -/
lemma RiskShield.verifyTriangularLoop_guards {s : RiskShield} {capital : Decimal}
    {leg1 leg2 leg3 : MarketTicker} {feeRate profit : Decimal}
    (h : s.verifyTriangularLoop capital leg1 leg2 leg3 feeRate = some profit) :
    (0 ≤ feeRate ∧ feeRate < 1) ∧
    (0 < leg1.askPrice ∧ 0 < leg2.askPrice ∧ 0 < leg3.bidPrice) ∧
    leg1Qty capital leg1 feeRate / leg2.askPrice ≤ leg2.askQty ∧
    capital < leg3Proceeds capital leg1 leg2 leg3 feeRate := by
  rw [verifyTriangularLoop] at h
  iterate 12 rw [Option.ite_none_left_eq_some] at h
  obtain ⟨hfee, -, -, hprices, -, -, -, -, hdepth, -, -, hprofit, -⟩ := h
  rw [not_or, not_lt, not_le] at hfee
  simp only [not_or, not_le] at hprices
  rw [not_le, sub_pos] at hprofit
  exact ⟨hfee, hprices, not_lt.mp hdepth, hprofit⟩

/-- What a passed simulation on one unit of the first token tells about the prices: the second token
costs at least the share of a unit that the fee leaves, and what the fees leave of the third token's
bid exceeds the product of the two asks. -/
lemma RiskShield.verifyTriangularLoop_margin {s : RiskShield} {leg1 leg2 leg3 : MarketTicker}
    {feeRate profit : Decimal} (hqty : leg2.askQty = 1)
    (h : s.verifyTriangularLoop leg1.askPrice leg1 leg2 leg3 feeRate = some profit) :
    1 - feeRate ≤ leg2.askPrice ∧
      leg1.askPrice * leg2.askPrice < (1 - feeRate) ^ 3 * leg3.bidPrice := by
  obtain ⟨-, ⟨h1, h2, -⟩, hdepth, hprofit⟩ := verifyTriangularLoop_guards h
  have hleg1 : leg1Qty leg1.askPrice leg1 feeRate = 1 - feeRate := by
    rw [leg1Qty, div_self h1.ne', afterFee, one_mul]
  have hproceeds : leg3Proceeds leg1.askPrice leg1 leg2 leg3 feeRate =
      (1 - feeRate) ^ 3 * leg3.bidPrice / leg2.askPrice := by
    rw [leg3Proceeds, leg2Qty, hleg1]
    simp only [afterFee]
    ring
  rw [hleg1, hqty, div_le_one h2] at hdepth
  rw [hproceeds, lt_div_iff₀ h2] at hprofit
  exact ⟨hdepth, hprofit⟩

end HftArb
