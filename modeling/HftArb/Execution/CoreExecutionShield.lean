import HftArb.Feeds.DepthAverages
import HftArb.Protections.EngineCircuitBreaker

/-!
# The core execution shield

The shield stands before every order: it asks the circuit breaker, walks through the depth of the
book, deducts the fees of both legs and compares the net profit with a threshold in basis points.

A smaller purchase through ascending asks has the better average price, so an approval carries over
to less capital and to a higher exit price (`evaluateBuy_monotone`).  This needs an exit price that
is not negative: below zero each unit acquired costs, and a threshold under a total loss approves a
large purchase and not a small one.
-/

namespace HftArb

/-- Why the shield rejects an execution. -/
inductive ShieldRejection
  | insufficientDepth (error : DepthError)
  | acquiredZero
  | zeroProceeds
  | profitBelowMinimum (netProfitBps minNetProfitBps : Decimal)
  deriving DecidableEq

/-- The text of a rejection, given how decimals are printed whole and with a number of places. -/
def ShieldRejection.message (display : Decimal → String) (fmt : ℕ → Decimal → String) :
    ShieldRejection → String
  | .insufficientDepth error => "Insufficient depth: " ++ error.message fmt
  | .acquiredZero => "Acquired zero quantity from depth"
  | .zeroProceeds => "Zero proceeds from sell"
  | .profitBelowMinimum netProfitBps minNetProfitBps =>
    "Net profit " ++ display netProfitBps ++ " bps below minimum " ++ display minNetProfitBps ++
      " bps"

/-- What the shield finds out about an execution. -/
structure ShieldedExecutionResult where
  approved : Bool
  estimatedAcquired : Decimal
  estimatedTotalCost : Decimal
  estimatedNetProfit : Decimal
  slippageBps : Decimal
  feeCost : Decimal
  rejectionReason : Option ShieldRejection
  deriving DecidableEq

/-- The result of an execution that is rejected before its profit is known. -/
def ShieldedExecutionResult.rejected (cost : Decimal) (reason : ShieldRejection) :
    ShieldedExecutionResult where
  approved := false
  estimatedAcquired := 0
  estimatedTotalCost := cost
  estimatedNetProfit := 0
  slippageBps := 0
  feeCost := 0
  rejectionReason := some reason

/-- The shield. -/
structure CoreExecutionShield where
  breaker : EngineCircuitBreaker
  feeRate : Decimal
  minNetProfitBps : Decimal

namespace CoreExecutionShield

/-- A distance between two prices in basis points of the intended one. -/
def slippageBps (price intendedPrice : Decimal) : Decimal :=
  if 0 < intendedPrice then |price - intendedPrice| / intendedPrice * 10000 else 0

/-- A profit in basis points of its cost. -/
def profitBps (netProfit cost : Decimal) : Decimal :=
  if 0 < cost then netProfit / cost * 10000 else 0

/-- Compare a net profit with the threshold. -/
def judge (s : CoreExecutionShield) (acquired cost netProfit slippage feeCost : Decimal) :
    ShieldedExecutionResult where
  approved := decide (s.minNetProfitBps ≤ profitBps netProfit cost)
  estimatedAcquired := acquired
  estimatedTotalCost := cost
  estimatedNetProfit := netProfit
  slippageBps := slippage
  feeCost := feeCost
  rejectionReason :=
    if s.minNetProfitBps ≤ profitBps netProfit cost then none
    else some (.profitBelowMinimum (profitBps netProfit cost) s.minNetProfitBps)

/-- What a purchase costs with its fee. -/
def totalCost (s : CoreExecutionShield) (allocatedCapital : Decimal) : Decimal :=
  allocatedCapital + allocatedCapital * s.feeRate

/-- What remains of the exit after both fees and the capital. -/
def buyNetProfit (s : CoreExecutionShield) (allocatedCapital acquired expectedSellPrice : Decimal) :
    Decimal :=
  acquired * expectedSellPrice - acquired * expectedSellPrice * s.feeRate -
    s.totalCost allocatedCapital

/-- A purchase, once the breaker lets it pass. -/
def buyResult (s : CoreExecutionShield) (allocatedCapital intendedPrice : Decimal)
    (depth : MarketDepth) (expectedSellPrice : Decimal) : ShieldedExecutionResult :=
  match calculateSlippageBuy depth allocatedCapital with
  | .error error => .rejected allocatedCapital (.insufficientDepth error)
  | .ok acquired =>
    if acquired ≤ 0 then .rejected allocatedCapital .acquiredZero
    else
      s.judge acquired (s.totalCost allocatedCapital)
        (s.buyNetProfit allocatedCapital acquired expectedSellPrice)
        (slippageBps (allocatedCapital / acquired) intendedPrice) (allocatedCapital * s.feeRate)

/-- A sale, once the breaker lets it pass. -/
def sellResult (s : CoreExecutionShield) (assetQuantity intendedPrice : Decimal)
    (depth : MarketDepth) (entryCost : Decimal) : ShieldedExecutionResult :=
  match calculateSlippageSell depth assetQuantity with
  | .error error => .rejected entryCost (.insufficientDepth error)
  | .ok proceeds =>
    if proceeds ≤ 0 then .rejected entryCost .zeroProceeds
    else
      s.judge assetQuantity entryCost (proceeds - proceeds * s.feeRate - entryCost)
        (slippageBps (if 0 < assetQuantity then proceeds / assetQuantity else 0) intendedPrice)
        (proceeds * s.feeRate)

/-- Ask the breaker, and go on with an evaluation. -/
def guarded (s : CoreExecutionShield) (now : UInt64) (result : ShieldedExecutionResult) :
    Except SystemFrozen ShieldedExecutionResult × CoreExecutionShield :=
  let check := s.breaker.checkAndReject now
  (check.1.map fun _ => result, { s with breaker := check.2 })

/-- Evaluate a purchase at a time of the clock. -/
def evaluateBuy (s : CoreExecutionShield) (now : UInt64) (allocatedCapital intendedPrice : Decimal)
    (depth : MarketDepth) (expectedSellPrice : Decimal) :
    Except SystemFrozen ShieldedExecutionResult × CoreExecutionShield :=
  s.guarded now (s.buyResult allocatedCapital intendedPrice depth expectedSellPrice)

/-- Evaluate a sale at a time of the clock. -/
def evaluateSell (s : CoreExecutionShield) (now : UInt64) (assetQuantity intendedPrice : Decimal)
    (depth : MarketDepth) (entryCost : Decimal) :
    Except SystemFrozen ShieldedExecutionResult × CoreExecutionShield :=
  s.guarded now (s.sellResult assetQuantity intendedPrice depth entryCost)

/-! ## Approvals -/

/-- The evaluation of a purchase succeeds with the result, which approves it. -/
def ApprovesBuy (s : CoreExecutionShield) (now : UInt64) (allocatedCapital intendedPrice : Decimal)
    (depth : MarketDepth) (expectedSellPrice : Decimal) (result : ShieldedExecutionResult) : Prop :=
  (s.evaluateBuy now allocatedCapital intendedPrice depth expectedSellPrice).1 = .ok result ∧
    result.approved = true

/-- A breaker that is not frozen passes everything. -/
lemma evaluateBuy_of_not_frozen {s : CoreExecutionShield} (h : s.breaker.systemFrozen = false)
    (now : UInt64) (allocatedCapital intendedPrice : Decimal) (depth : MarketDepth)
    (expectedSellPrice : Decimal) :
    s.evaluateBuy now allocatedCapital intendedPrice depth expectedSellPrice =
      (.ok (s.buyResult allocatedCapital intendedPrice depth expectedSellPrice), s) := by
  have hcheck : s.breaker.checkAndReject now = (.ok (), s.breaker) := by
    rw [EngineCircuitBreaker.checkAndReject, if_neg (by simp [h])]
  rw [evaluateBuy, guarded, hcheck]
  rfl

/-- A profit is above a threshold in basis points when it is above that share of its cost. -/
lemma le_profitBps_iff {threshold netProfit cost : Decimal} (hcost : 0 < cost) :
    threshold ≤ profitBps netProfit cost ↔ threshold / 10000 * cost ≤ netProfit := by
  rw [profitBps, if_pos hcost, ← div_le_iff₀ (by norm_num : (0 : Decimal) < 10000),
    le_div_iff₀ hcost]

/-- A purchase with fees costs something. -/
lemma totalCost_pos {s : CoreExecutionShield} (hfee : 0 ≤ s.feeRate) {capital : Decimal}
    (hcapital : 0 < capital) : 0 < s.totalCost capital :=
  add_pos_of_pos_of_nonneg hcapital (mul_nonneg hcapital.le hfee)

/-- An approved purchase fills from the asks, with a net profit of at least the threshold. -/
lemma buyResult_approved_iff {s : CoreExecutionShield} (hfee : 0 ≤ s.feeRate) {depth : MarketDepth}
    (hasks : PositiveLevels depth.asks) {capital : Decimal} (intendedPrice sellPrice : Decimal) :
    (s.buyResult capital intendedPrice depth sellPrice).approved = true ↔
      ∃ acquired, calculateSlippageBuy depth capital = .ok acquired ∧
        s.minNetProfitBps / 10000 * s.totalCost capital ≤
          s.buyNetProfit capital acquired sellPrice := by
  unfold buyResult
  cases hbuy : calculateSlippageBuy depth capital with
  | error error => simp [ShieldedExecutionResult.rejected]
  | ok acquired =>
    obtain ⟨hacquired, hcapital⟩ := (fills_of_calculateSlippageBuy hasks.prices hbuy).pos hasks
    simp only [if_neg (not_le.mpr hacquired), judge, decide_eq_true_eq,
      le_profitBps_iff (totalCost_pos hfee hcapital), Except.ok.injEq, exists_eq_left']

/-- The threshold on the net profit, with the exit on one side and the capital on the other. -/
lemma le_buyNetProfit_iff (s : CoreExecutionShield) (capital acquired sellPrice : Decimal) :
    s.minNetProfitBps / 10000 * s.totalCost capital ≤ s.buyNetProfit capital acquired sellPrice ↔
      (1 + s.minNetProfitBps / 10000) * (1 + s.feeRate) * capital ≤
        acquired * (sellPrice * (1 - s.feeRate)) := by
  unfold buyNetProfit totalCost
  constructor <;> intro h <;> linarith

/-- Less capital is still enough for the threshold when it acquires at least its share. -/
lemma threshold_of_share {threshold exit capital capital' acquired acquired' : Decimal}
    (hcapital : 0 < capital) (hcapital' : 0 ≤ capital') (hexit : 0 ≤ exit)
    (hshare : capital' * acquired ≤ capital * acquired')
    (h : threshold * capital ≤ acquired * exit) : threshold * capital' ≤ acquired' * exit := by
  refine le_of_mul_le_mul_left ?_ hcapital
  calc capital * (threshold * capital') = capital' * (threshold * capital) := by ring
    _ ≤ capital' * (acquired * exit) := mul_le_mul_of_nonneg_left h hcapital'
    _ = capital' * acquired * exit := by ring
    _ ≤ capital * acquired' * exit := mul_le_mul_of_nonneg_right hshare hexit
    _ = capital * (acquired' * exit) := by ring

/-- Less capital fills as well, and acquires at least its share. -/
lemma exists_acquired_of_le {depth : MarketDepth} (hasks : PositiveLevels depth.asks)
    (hsorted : AscendingPrices depth.asks) {capital capital' acquired : Decimal}
    (hbuy : calculateSlippageBuy depth capital = .ok acquired) (hcapital' : 0 < capital')
    (hle : capital' ≤ capital) :
    ∃ acquired', calculateSlippageBuy depth capital' = .ok acquired' ∧
      capital' * acquired ≤ capital * acquired' := by
  have hfill := fills_of_calculateSlippageBuy hasks.prices hbuy
  have hcapital := (hfill.pos hasks).2
  cases hbuy' : calculateSlippageBuy depth capital' with
  | error error =>
    -- The asks are worth the larger capital, so the smaller one cannot run out of depth.
    have hshort := (calculateSlippageBuy_error_iff hasks hcapital').mp ⟨error, hbuy'⟩
    obtain ⟨error', herror'⟩ :=
      (calculateSlippageBuy_error_iff hasks hcapital).mpr (hshort.trans_le hle)
    rw [hbuy] at herror'
    cases herror'
  | ok acquired' =>
    have hfill' := fills_of_calculateSlippageBuy hasks.prices hbuy'
    exact ⟨acquired', rfl, hfill'.average_le hfill hasks.nonneg hsorted
      (hfill'.quantity_le hfill hasks hle)⟩

/-- An approval carries over to less capital and to a higher exit price, unless the capital changes
and that price is negative; and an approved purchase has the net profit that the threshold asks of
its cost. -/
theorem evaluateBuy_monotone (s : CoreExecutionShield) (hfrozen : s.breaker.systemFrozen = false)
    (hfee : 0 ≤ s.feeRate) (hfee' : s.feeRate < 1) (depth : MarketDepth)
    (hsorted : AscendingPrices depth.asks) (hasks : PositiveLevels depth.asks) (now : UInt64)
    (c intendedPrice p : Decimal) (result : ShieldedExecutionResult)
    (happroved : s.ApprovesBuy now c intendedPrice depth p result) :
    (∀ (now' : UInt64) (c' intendedPrice' p' : Decimal), 0 < c' → c' ≤ c → p ≤ p' →
      (0 ≤ p' ∨ c' = c) → ∃ result', s.ApprovesBuy now' c' intendedPrice' depth p' result') ∧
    s.minNetProfitBps / 10000 * result.estimatedTotalCost ≤ result.estimatedNetProfit := by
  unfold ApprovesBuy at happroved
  rw [evaluateBuy_of_not_frozen hfrozen] at happroved
  obtain ⟨hresult, happroved⟩ := happroved
  cases hresult
  obtain ⟨acquired, hbuy, hprofit⟩ := (buyResult_approved_iff hfee hasks _ _).mp happroved
  obtain ⟨hacquired, hcapital⟩ := (fills_of_calculateSlippageBuy hasks.prices hbuy).pos hasks
  constructor
  · intro now' c' intendedPrice' p' hc' hle hprice hside
    refine ⟨s.buyResult c' intendedPrice' depth p', ?_, ?_⟩
    · rw [evaluateBuy_of_not_frozen hfrozen]
    rw [buyResult_approved_iff hfee hasks]
    -- The higher price is enough at the same capital.
    have hexit : acquired * (p * (1 - s.feeRate)) ≤ acquired * (p' * (1 - s.feeRate)) :=
      mul_le_mul_of_nonneg_left (mul_le_mul_of_nonneg_right hprice (by linarith)) hacquired.le
    have hsame := ((le_buyNetProfit_iff s c acquired p).mp hprofit).trans hexit
    rcases hside with hp' | rfl
    · obtain ⟨acquired', hbuy', hshare⟩ := exists_acquired_of_le hasks hsorted hbuy hc' hle
      refine ⟨acquired', hbuy', (le_buyNetProfit_iff s c' acquired' p').mpr ?_⟩
      exact threshold_of_share hcapital hc'.le (mul_nonneg hp' (by linarith)) hshare hsame
    · exact ⟨acquired, hbuy, (le_buyNetProfit_iff s c' acquired p').mpr hsame⟩
  · have hjudged : s.buyResult c intendedPrice depth p =
        s.judge acquired (s.totalCost c) (s.buyNetProfit c acquired p)
          (slippageBps (c / acquired) intendedPrice) (c * s.feeRate) := by
      simp only [buyResult, hbuy, if_neg (not_le.mpr hacquired)]
    rw [hjudged]
    exact hprofit

/-- A shield with a fee of 0.1 % and a threshold of 5 basis points. -/
def testShield : CoreExecutionShield := ⟨.new, 1 / 1000, 5⟩

/-- Three asks of one unit each. -/
def testAsks : MarketDepth := ⟨[⟨50000, 1⟩, ⟨50010, 1⟩, ⟨50020, 1⟩], []⟩

/-- Spending 100000 on the asks is approved at an exit price of 50200, and so is spending 50000. -/
theorem evaluateBuy_monotone_testAsks :
    (testShield.buyResult 100000 50000 testAsks 50200).approved = true ∧
      ∃ result, testShield.ApprovesBuy 0 50000 50000 testAsks 50200 result := by
  have happroved : (testShield.buyResult 100000 50000 testAsks 50200).approved = true := by
    decide +kernel
  have hsorted : AscendingPrices testAsks.asks := by
    norm_num [AscendingPrices, testAsks]
  have hasks : PositiveLevels testAsks.asks := by
    norm_num [PositiveLevels, testAsks]
  refine ⟨happroved, ?_⟩
  have hmonotone := evaluateBuy_monotone testShield rfl (by decide +kernel) (by decide +kernel)
    testAsks hsorted hasks 0 100000 50000 50200 _ ⟨rfl, happroved⟩
  exact hmonotone.1 0 50000 50000 50200 (by norm_num) (by norm_num) le_rfl (Or.inl (by norm_num))

/-- A shield without fees that approves losses of up to 160 %. -/
def lossShield : CoreExecutionShield := ⟨.new, 0, -16000⟩

/-- A cheap ask and expensive ones behind it. -/
def steepAsks : MarketDepth := ⟨[⟨1, 1⟩, ⟨3, 10⟩], []⟩

/-- At an exit price of -1 a capital of 4 loses 150 % and is approved, a capital of 1 loses 200 %
and is not. -/
theorem evaluateBuy_negative_price_not_monotone :
    lossShield.breaker.systemFrozen = false ∧ (0 ≤ lossShield.feeRate ∧ lossShield.feeRate < 1) ∧
      AscendingPrices steepAsks.asks ∧ PositiveLevels steepAsks.asks ∧
      (∃ result, lossShield.ApprovesBuy 0 4 1 steepAsks (-1) result) ∧
      ¬ ∃ result, lossShield.ApprovesBuy 0 1 1 steepAsks (-1) result := by
  refine ⟨rfl, ⟨by decide +kernel, by decide +kernel⟩, ?_, ?_, ?_, ?_⟩
  · norm_num [AscendingPrices, steepAsks]
  · norm_num [PositiveLevels, steepAsks]
  · exact ⟨lossShield.buyResult 4 1 steepAsks (-1), rfl, by decide +kernel⟩
  · rintro ⟨result, hresult, happroved⟩
    have hrejected : (lossShield.buyResult 1 1 steepAsks (-1)).approved = false := by
      decide +kernel
    rw [evaluateBuy_of_not_frozen rfl] at hresult
    cases hresult
    rw [hrejected] at happroved
    cases happroved

end CoreExecutionShield

end HftArb
