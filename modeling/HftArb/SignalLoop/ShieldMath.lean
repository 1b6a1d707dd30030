import HftArb.SignalLoop.Shields

/-!
# The closed forms of the risk shields

`RiskShield` has two checks of a triangular loop: a simulation of three trades on the tickers, and
the product of the rates and the fees.  `verifyTriangularLoop_iff_math` says that they agree up to
the depth of the tickers, which the simulation checks before the fee of each trade.

`CrossExchangeRiskShield.evaluateWindow` sizes and prices a purchase on one exchange with a sale on
another.  The capital limits the purchase before its fee; `evaluateWindow_spec` says what follows
for the outlay.
-/

namespace HftArb

/-! ## Triangular loops -/

namespace RiskShield

/-- The product of the rates and of what the fees leave exceeds one by the safety buffer. -/
def verifyTriangularMath (s : RiskShield) (rate1 rate2 rate3 f1 f2 f3 : Decimal) : Bool :=
  if rate1 ≤ 0 ∨ rate2 ≤ 0 ∨ rate3 ≤ 0 then false
  else if f1 < 0 ∨ 1 ≤ f1 ∨ f2 < 0 ∨ 1 ≤ f2 ∨ f3 < 0 ∨ 1 ≤ f3 then false
  else
    decide (1 + s.executionSafetyBuffer <
      (1 - f1) * (1 - f2) * (1 - f3) * (rate1 * rate2 * rate3))

variable {s : RiskShield} {capital feeRate : Decimal} {leg1 leg2 leg3 : MarketTicker}

/-- What a fee leaves of an amount. -/
lemma afterFee_eq (amount feeRate : Decimal) :
    afterFee amount feeRate = amount * (1 - feeRate) := by
  rw [afterFee]
  ring

/-- The quantity bought with the second leg. -/
lemma leg2Qty_eq (capital : Decimal) (leg1 leg2 : MarketTicker) (feeRate : Decimal) :
    leg2Qty capital leg1 leg2 feeRate =
      capital * (1 - feeRate) ^ 2 / (leg1.askPrice * leg2.askPrice) := by
  rw [leg2Qty, leg1Qty, afterFee_eq, afterFee_eq]
  field_simp

/-- The proceeds of the three legs. -/
lemma leg3Proceeds_eq (capital : Decimal) (leg1 leg2 leg3 : MarketTicker) (feeRate : Decimal) :
    leg3Proceeds capital leg1 leg2 leg3 feeRate =
      capital * ((1 - feeRate) ^ 3 * leg3.bidPrice / (leg1.askPrice * leg2.askPrice)) := by
  rw [leg3Proceeds, leg2Qty_eq, afterFee_eq]
  ring

/-- With positive prices and a sensible fee the closed form is the comparison of the products. -/
lemma verifyTriangularMath_eq (hfee : 0 ≤ feeRate) (hone : feeRate < 1) (h1 : 0 < leg1.askPrice)
    (h2 : 0 < leg2.askPrice) (h3 : 0 < leg3.bidPrice) :
    s.verifyTriangularMath (1 / leg1.askPrice) (1 / leg2.askPrice) leg3.bidPrice feeRate feeRate
        feeRate = true ↔
      1 + s.executionSafetyBuffer <
        (1 - feeRate) ^ 3 * leg3.bidPrice / (leg1.askPrice * leg2.askPrice) := by
  have hrate1 : 0 < 1 / leg1.askPrice := one_div_pos.mpr h1
  have hrate2 : 0 < 1 / leg2.askPrice := one_div_pos.mpr h2
  have hproduct : (1 - feeRate) * (1 - feeRate) * (1 - feeRate) *
      (1 / leg1.askPrice * (1 / leg2.askPrice) * leg3.bidPrice) =
        (1 - feeRate) ^ 3 * leg3.bidPrice / (leg1.askPrice * leg2.askPrice) := by
    field_simp
  rw [verifyTriangularMath, if_neg (by push Not; exact ⟨hrate1, hrate2, h3⟩),
    if_neg (by push Not; exact ⟨hfee, hone, hfee, hone, hfee, hone⟩), decide_eq_true_iff, hproduct]

/-- Each trade of a loop finds its whole amount before the fee in the ticker, and each ticker the
least depth. -/
structure DeepEnough (capital : Decimal) (leg1 leg2 leg3 : MarketTicker) (feeRate : Decimal) :
    Prop where
  least : 1 ≤ leg1.askQty ∧ 1 ≤ leg2.askQty ∧ 1 ≤ leg3.bidQty
  first : capital / leg1.askPrice ≤ leg1.askQty
  second : capital * (1 - feeRate) / (leg1.askPrice * leg2.askPrice) ≤ leg2.askQty
  third : capital * (1 - feeRate) ^ 2 / (leg1.askPrice * leg2.askPrice) ≤ leg3.bidQty

/-- The simulation of a loop that starts with enough capital and sensible prices, guard by guard. -/
lemma verifyTriangularLoop_eq_some_iff (hcapital : max 10 s.minCapitalRequirement ≤ capital)
    (hfee : 0 ≤ feeRate) (hone : feeRate < 1) (h1 : 0 < leg1.askPrice) (h2 : 0 < leg2.askPrice)
    (h3 : 0 < leg3.bidPrice) (hbuffer : 0 ≤ s.executionSafetyBuffer) {p : Decimal} :
    s.verifyTriangularLoop capital leg1 leg2 leg3 feeRate = some p ↔
      1 + s.executionSafetyBuffer <
          (1 - feeRate) ^ 3 * leg3.bidPrice / (leg1.askPrice * leg2.askPrice) ∧
        DeepEnough capital leg1 leg2 leg3 feeRate ∧
        p = capital *
          ((1 - feeRate) ^ 3 * leg3.bidPrice / (leg1.askPrice * leg2.askPrice) - 1) := by
  obtain ⟨hten, hmin⟩ := max_le_iff.mp hcapital
  have hnotional : ¬ capital < minOrderNotional := not_lt.mpr hten
  have hpos : 0 < capital := by linarith
  have hleft : 0 < 1 - feeRate := by linarith
  have hqty1 : 0 < leg1Qty capital leg1 feeRate := by
    rw [leg1Qty, afterFee_eq]
    positivity
  have hqty2 : 0 < leg2Qty capital leg1 leg2 feeRate := by
    rw [leg2Qty_eq]
    positivity
  have hsecond : leg1Qty capital leg1 feeRate / leg2.askPrice =
      capital * (1 - feeRate) / (leg1.askPrice * leg2.askPrice) := by
    rw [leg1Qty, afterFee_eq]
    field_simp
  obtain ⟨net, hnet⟩ : ∃ net,
      net = (1 - feeRate) ^ 3 * leg3.bidPrice / (leg1.askPrice * leg2.askPrice) := ⟨_, rfl⟩
  have hproceeds : leg3Proceeds capital leg1 leg2 leg3 feeRate = capital * net := by
    rw [leg3Proceeds_eq, hnet]
  rw [verifyTriangularLoop, if_neg (by push Not; exact ⟨hfee, hone⟩),
    if_neg hnotional, if_neg (not_lt.mpr hmin), if_neg (by push Not; exact ⟨h1, h2, h3⟩),
    hproceeds, mul_div_cancel_left₀ _ hpos.ne', hsecond, ← hnet, ← mul_sub_one]
  iterate 8 rw [Option.ite_none_left_eq_some]
  rw [Option.some.injEq, leg2Qty_eq]
  simp only [minLegLiquidity, not_or, not_lt, not_le]
  constructor
  · rintro ⟨hleast, -, hfirst, -, hsecond, hthird, hprofit, -, rfl⟩
    exact ⟨hprofit, ⟨hleast, hfirst, hsecond, hthird⟩, rfl⟩
  · rintro ⟨hprofit, hdeep, rfl⟩
    have hgain : 0 < capital * (net - 1) := mul_pos hpos (by linarith)
    rw [leg2Qty_eq] at hqty2
    exact ⟨hdeep.least, hqty1, hdeep.first, hqty2, hdeep.second, hdeep.third, hprofit, hgain, rfl⟩

/-- The simulation passes exactly when the product of rates and fees passes and the tickers are deep
enough for each trade; its profit is then the closed form, and positive. -/
theorem verifyTriangularLoop_iff_math (s : RiskShield) (capital feeRate : Decimal)
    (leg1 leg2 leg3 : MarketTicker)
    (hcapital : max 10 s.minCapitalRequirement ≤ capital) (hfee : 0 ≤ feeRate) (hone : feeRate < 1)
    (h1 : 0 < leg1.askPrice) (h2 : 0 < leg2.askPrice) (h3 : 0 < leg3.bidPrice)
    (hbuffer : 0 ≤ s.executionSafetyBuffer) :
    ((∃ p, s.verifyTriangularLoop capital leg1 leg2 leg3 feeRate = some p) ↔
      s.verifyTriangularMath (1 / leg1.askPrice) (1 / leg2.askPrice) leg3.bidPrice feeRate feeRate
          feeRate = true ∧ DeepEnough capital leg1 leg2 leg3 feeRate) ∧
    ∀ p, s.verifyTriangularLoop capital leg1 leg2 leg3 feeRate = some p →
      p = capital * ((1 - feeRate) ^ 3 * leg3.bidPrice / (leg1.askPrice * leg2.askPrice) - 1) ∧
        0 < p := by
  have hiff := @verifyTriangularLoop_eq_some_iff s capital feeRate leg1 leg2 leg3 hcapital hfee hone
    h1 h2 h3 hbuffer
  constructor
  · rw [verifyTriangularMath_eq hfee hone h1 h2 h3]
    constructor
    · rintro ⟨p, hp⟩
      obtain ⟨hprofit, hdeep, -⟩ := hiff.mp hp
      exact ⟨hprofit, hdeep⟩
    · rintro ⟨hprofit, hdeep⟩
      exact ⟨_, hiff.mpr ⟨hprofit, hdeep, rfl⟩⟩
  · intro p hp
    obtain ⟨hprofit, -, rfl⟩ := hiff.mp hp
    have hpos : 0 < capital := by linarith [(max_le_iff.mp hcapital).1]
    exact ⟨rfl, mul_pos hpos (by linarith)⟩

/-- A dollar buys a unit, that one buys a unit of the third token, and it sells for eleven
tenths. -/
def deepTicker (price : Decimal) : MarketTicker := ⟨price, 1000, price, 1000⟩

/-- The simulation of a loop with a gross gain of a tenth passes, with the profit of the closed
form. -/
theorem verifyTriangularLoop_deepTicker :
    RiskShield.signalLoop.verifyTriangularLoop 100 (deepTicker 1) (deepTicker 1)
      (deepTicker (11 / 10)) (1 / 1000) = some (100 * ((999 / 1000) ^ 3 * (11 / 10) - 1)) := by
  have hloop := verifyTriangularLoop_iff_math RiskShield.signalLoop 100 (1 / 1000) (deepTicker 1)
    (deepTicker 1) (deepTicker (11 / 10)) (by decide +kernel) (by norm_num) (by norm_num)
    (by decide +kernel) (by decide +kernel) (by decide +kernel) (by decide +kernel)
  obtain ⟨p, hp⟩ := hloop.1.mpr ⟨by decide +kernel, ⟨by decide +kernel, by decide +kernel,
    by decide +kernel, by decide +kernel⟩⟩
  rw [hp, (hloop.2 p hp).1, Option.some.injEq]
  norm_num [deepTicker]

end RiskShield

/-! ## Cross-exchange windows -/

/-- The check of a purchase on exchange Y with a sale on exchange X. -/
structure CrossExchangeRiskShield where
  minTradeNotional : Decimal
  exchangeXTakerFee : Decimal
  exchangeYTakerFee : Decimal
  exchangeXMakerFee : Option Decimal
  exchangeYMakerFee : Option Decimal
  absoluteProfitFloor : Decimal

namespace CrossExchangeRiskShield

/-- The fee of the sale: the maker fee where there is one. -/
def sellFee (s : CrossExchangeRiskShield) : Decimal := s.exchangeXMakerFee.getD s.exchangeXTakerFee

/-- The fee of the purchase: the maker fee where there is one. -/
def buyFee (s : CrossExchangeRiskShield) : Decimal := s.exchangeYMakerFee.getD s.exchangeYTakerFee

/-- No fee rate is negative. -/
structure FeesNonneg (s : CrossExchangeRiskShield) : Prop where
  xTaker : 0 ≤ s.exchangeXTakerFee
  yTaker : 0 ≤ s.exchangeYTakerFee
  xMaker : ∀ fee ∈ s.exchangeXMakerFee, 0 ≤ fee
  yMaker : ∀ fee ∈ s.exchangeYMakerFee, 0 ≤ fee

/-- The fee of the purchase is not negative. -/
lemma FeesNonneg.buyFee {s : CrossExchangeRiskShield} (h : s.FeesNonneg) : 0 ≤ s.buyFee := by
  unfold CrossExchangeRiskShield.buyFee
  cases hmaker : s.exchangeYMakerFee with
  | none => exact h.yTaker
  | some fee => exact h.yMaker fee hmaker

/-- The quantity of a window: what the capital buys, or the smaller depth. -/
def windowQty (askY bidDepthX askDepthY capital : Decimal) : Decimal :=
  if capital / askY ≤ bidDepthX ∧ capital / askY ≤ askDepthY then capital / askY
  else min bidDepthX askDepthY

/-- The revenue of a window after its fee less its cost with its fee. -/
def windowProfit (s : CrossExchangeRiskShield) (bidX askY qty : Decimal) : Decimal :=
  qty * bidX - qty * bidX * s.sellFee - (qty * askY + qty * askY * s.buyFee)

/-- The quantity and the profit of a window, if it is profitable and safe. -/
def evaluateWindow (s : CrossExchangeRiskShield) (bidX askY bidDepthX askDepthY capital : Decimal) :
    Option (Decimal × Decimal) :=
  let maxQty := windowQty askY bidDepthX askDepthY capital
  if bidX ≤ 0 ∨ askY ≤ 0 then none
  else if bidX ≤ askY then none
  else if (bidX - askY) / askY - (s.sellFee + s.buyFee) ≤ 0 then none
  else if maxQty * askY < s.minTradeNotional then none
  else if s.windowProfit bidX askY maxQty < s.absoluteProfitFloor then none
  else if s.windowProfit bidX askY maxQty ≤ 0 then none
  else some (maxQty, s.windowProfit bidX askY maxQty)

variable {s : CrossExchangeRiskShield} {bidX askY bidDepthX askDepthY capital : Decimal}

/-- The quantity is the least of what the capital buys and the two depths. -/
lemma windowQty_eq (askY bidDepthX askDepthY capital : Decimal) :
    windowQty askY bidDepthX askDepthY capital =
      min (capital / askY) (min bidDepthX askDepthY) := by
  unfold windowQty
  split_ifs with h
  · exact (min_eq_left (le_min h.1 h.2)).symm
  · refine (min_eq_right ?_).symm
    rw [not_and_or, not_le, not_le] at h
    rcases h with hbid | hask
    · exact (min_le_left _ _).trans hbid.le
    · exact (min_le_right _ _).trans hask.le

/-- A window that is accepted has passed its guards. -/
lemma evaluateWindow_guards {qty profit : Decimal}
    (h : s.evaluateWindow bidX askY bidDepthX askDepthY capital = some (qty, profit)) :
    (0 < bidX ∧ 0 < askY) ∧ qty = min (capital / askY) (min bidDepthX askDepthY) ∧
      profit = s.windowProfit bidX askY qty ∧ s.absoluteProfitFloor ≤ profit ∧ 0 < profit := by
  simp only [evaluateWindow, windowQty_eq] at h
  iterate 6 rw [Option.ite_none_left_eq_some] at h
  obtain ⟨hprices, -, -, -, hfloor, hpos, h⟩ := h
  obtain ⟨rfl, rfl⟩ := Prod.mk.inj (Option.some.inj h)
  rw [not_or, not_le, not_le] at hprices
  exact ⟨hprices, rfl, rfl, not_lt.mp hfloor, not_le.mp hpos⟩

/-- A quantity that earns something is positive. -/
lemma qty_pos_of_windowProfit {qty : Decimal} (hqty : 0 ≤ qty)
    (h : 0 < s.windowProfit bidX askY qty) : 0 < qty := by
  refine hqty.lt_of_ne ?_
  rintro rfl
  simp [windowProfit] at h

/-- An accepted window buys the least of what the capital buys and the two depths, at the profit of
the two prices with their fees.  The purchase is within the capital, and so is the outlay with its
fee exactly when there is no fee or the depth leaves room for it. -/
theorem evaluateWindow_spec (hfees : s.FeesNonneg) (hbid : 0 ≤ bidDepthX)
    (hask : 0 ≤ askDepthY) (hcapital : 0 ≤ capital) {qty profit : Decimal}
    (h : s.evaluateWindow bidX askY bidDepthX askDepthY capital = some (qty, profit)) :
    qty = min (capital / askY) (min bidDepthX askDepthY) ∧
      qty * askY ≤ capital ∧
      (qty * askY * (1 + s.buyFee) ≤ capital ↔
        s.buyFee = 0 ∨ min bidDepthX askDepthY * askY * (1 + s.buyFee) ≤ capital) ∧
      profit = qty * (bidX * (1 - s.sellFee) - askY * (1 + s.buyFee)) ∧
      0 < profit ∧ s.absoluteProfitFloor ≤ profit := by
  obtain ⟨⟨-, hasky⟩, hqty, hprofit, hfloor, hpos⟩ := evaluateWindow_guards h
  have hbuy : 0 ≤ s.buyFee := hfees.buyFee
  have hnonneg : 0 ≤ qty := by
    rw [hqty]
    exact le_min (div_nonneg hcapital hasky.le) (le_min hbid hask)
  have hqtypos : 0 < qty := qty_pos_of_windowProfit hnonneg (hprofit ▸ hpos)
  have hafford : qty * askY ≤ capital := by
    rw [← le_div_iff₀ hasky, hqty]
    exact min_le_left _ _
  refine ⟨hqty, hafford, ?_, ?_, hpos, hfloor⟩
  · constructor
    · intro houtlay
      rcases min_choice (capital / askY) (min bidDepthX askDepthY) with hcap | hdepth
      · -- the capital is spent on the purchase alone
        have hspent : qty * askY = capital := by
          rw [hqty, hcap, div_mul_cancel₀ _ hasky.ne']
        have hzero : qty * askY * s.buyFee ≤ 0 := by linarith
        have hcost : 0 < qty * askY := mul_pos hqtypos hasky
        exact Or.inl (le_antisymm (by nlinarith) hbuy)
      · rw [hqty, hdepth] at houtlay
        exact Or.inr houtlay
    · rintro (hzero | hroom)
      · rw [hzero, add_zero, mul_one]
        exact hafford
      · have hle : qty ≤ min bidDepthX askDepthY := hqty ▸ min_le_right _ _
        calc qty * askY * (1 + s.buyFee)
            ≤ min bidDepthX askDepthY * askY * (1 + s.buyFee) := by gcongr
          _ ≤ capital := hroom
  · rw [hprofit, windowProfit]
    ring

/-- The shield with fees of ten basis points on both exchanges. -/
def tenBps : CrossExchangeRiskShield := ⟨5, 1 / 1000, 1 / 1000, none, none, 1 / 100⟩

lemma feesNonneg_tenBps : tenBps.FeesNonneg :=
  ⟨by decide +kernel, by decide +kernel, by simp [tenBps], by simp [tenBps]⟩

/-- With capital beyond the depth the outlay is within the capital. -/
theorem evaluateWindow_spec_room :
    tenBps.evaluateWindow 50200 50000 1 1 60000 = some (1, 499 / 5) ∧
      1 * 50000 * (1 + tenBps.buyFee) ≤ 60000 := by
  have hwindow : tenBps.evaluateWindow 50200 50000 1 1 60000 = some (1, 499 / 5) := by
    decide +kernel
  have hspec := evaluateWindow_spec feesNonneg_tenBps (by norm_num) (by norm_num) (by norm_num)
    hwindow
  exact ⟨hwindow, hspec.2.2.1.mpr (Or.inr (by decide +kernel))⟩

/-- With the capital spent on the purchase its fee is not covered. -/
theorem outlay_exceeds_capital :
    ¬ ∀ (s : CrossExchangeRiskShield) (bidX askY bidDepthX askDepthY capital qty profit : Decimal),
      s.FeesNonneg → 0 ≤ bidDepthX → 0 ≤ askDepthY → 0 ≤ capital →
      s.evaluateWindow bidX askY bidDepthX askDepthY capital = some (qty, profit) →
      qty * askY * (1 + s.buyFee) ≤ capital := by
  intro h
  have houtlay := h tenBps 50200 50000 1 1 50000 1 (499 / 5) feesNonneg_tenBps (by norm_num)
    (by norm_num) (by norm_num) (by decide +kernel)
  exact absurd houtlay (by decide +kernel)

end CrossExchangeRiskShield

end HftArb
