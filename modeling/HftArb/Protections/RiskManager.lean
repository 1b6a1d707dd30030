import HftArb.Decimal

/-!
# The risk gatekeeper

`RiskManager` is the state behind the pre-trade gate: the flags and counters its layers read, and
the integer thresholds computed from the configuration when it is built (`RiskManager.new`).

`preTradeCheck` runs the layers in their order.  It is cut where the exposure reservation of
layer 7 happens: `layersBeforeReserve` are the layers 0 to 6, which only read, `tryReserveExposure`
is layer 7, the one layer that writes, and `layersAfterReserve` are the layers 8 to 14.  The clock
is read by three layers; their readings are the fields of a `GateClock`.

The compare-and-swap loops of `try_reserve_exposure` and `release_exposure` are the single
read-modify-write they perform when nobody else touches the counter.
-/

namespace HftArb

open Saturating

/-! ## Rejections -/

/-- The reasons for which the gate turns a trade away, one per layer. -/
inductive TradeRejection where
  | killSwitchActive
  | systemFrozen
  | profitBelowThreshold
  | equityStale
  | hardLossCapBreached
  | pctLossCapBreached
  | maxDrawdownBreached
  | exposureLimitBreached
  | positionSizeLimitBreached
  | exchangePaused (exchangeId : UInt16)
  | depegActive
  | memecoinExposureLimit
  | altcoinConcentrationLimit
  | majorAssetFloorBreached
  | networkLatencyStale
  deriving DecidableEq, Repr

/-- The text of a rejection. -/
def TradeRejection.message : TradeRejection → String
  | .killSwitchActive => "kill switch is active"
  | .systemFrozen => "system is frozen"
  | .profitBelowThreshold => "profit below minimum threshold"
  | .equityStale => "equity data is stale"
  | .hardLossCapBreached => "absolute hard-loss cap breached"
  | .pctLossCapBreached => "percentage hard-loss cap breached"
  | .maxDrawdownBreached => "maximum drawdown breached"
  | .exposureLimitBreached => "total exposure limit breached"
  | .positionSizeLimitBreached => "single-position size limit breached"
  | .exchangePaused e => "exchange " ++ toString e ++ " is paused"
  | .depegActive => "stablecoin depeg detected"
  | .memecoinExposureLimit => "memecoin exposure limit breached"
  | .altcoinConcentrationLimit => "altcoin concentration limit breached"
  | .majorAssetFloorBreached => "major-asset floor breached"
  | .networkLatencyStale => "network-latency data stale"

/-! ## Drawdown and exchange health -/

/-- Peak and current equity in micro-dollars. -/
structure DrawdownTracker where
  /-- The highest equity seen. -/
  peakEquity : UInt64
  /-- The last equity reported. -/
  currentEquity : UInt64

/-- The basis-point scale of the gate, `BPS_SCALE`. -/
def bpsScale : ℕ := 10000

/-- The current drawdown in basis points, zero while there is no peak. -/
def DrawdownTracker.drawdownBps (t : DrawdownTracker) : UInt64 :=
  if t.peakEquity = 0 then 0
  else UInt64.ofNat
    ((satSub t.peakEquity t.currentEquity).toNat * bpsScale / t.peakEquity.toNat)

/-- Record an equity value, raising the peak when it is a new high. -/
def DrawdownTracker.update (t : DrawdownTracker) (equityFp : UInt64) : DrawdownTracker where
  peakEquity := if equityFp ≤ t.peakEquity then t.peakEquity else equityFp
  currentEquity := equityFp

/-- Consecutive failures and pause expiry of every exchange slot. -/
structure ExchangeHealthTracker where
  /-- Consecutive failures of a slot. -/
  failureCounts : Fin 256 → UInt32
  /-- The time, in Unix milliseconds, at which the pause of a slot ends. -/
  pauseUntil : Fin 256 → ℤ

/-- The health slot of an exchange id. -/
def ExchangeHealthTracker.idx (exchangeId : UInt16) : Fin 256 := Fin.ofNat 256 exchangeId.toNat

/-- Whether an exchange is paused at the time `now`. -/
def ExchangeHealthTracker.isPaused (t : ExchangeHealthTracker) (now : ℤ) (exchangeId : UInt16) :
    Bool :=
  now < t.pauseUntil (idx exchangeId)

/-- Count a failure and pause the slot when the count reaches the threshold. -/
def ExchangeHealthTracker.recordFailure (t : ExchangeHealthTracker) (now : ℤ)
    (exchangeId : UInt16) (threshold : UInt32) (pauseDurationMs : ℤ) : ExchangeHealthTracker :=
  let i := idx exchangeId
  let count := t.failureCounts i + 1
  { failureCounts := Function.update t.failureCounts i count
    pauseUntil :=
      if threshold ≤ count then Function.update t.pauseUntil i (satAddI64 now pauseDurationMs)
      else t.pauseUntil }

/-- Reset the failure count of a slot. -/
def ExchangeHealthTracker.recordSuccess (t : ExchangeHealthTracker) (exchangeId : UInt16) :
    ExchangeHealthTracker :=
  { t with failureCounts := Function.update t.failureCounts (idx exchangeId) 0 }

/-! ## The manager -/

/-- The risk section of a validated configuration: the fields the gate is built from, with the
checks the configuration loader has made on them. -/
structure ValidatedRiskConfig where
  minNetProfitPct : Decimal
  maxEquityStalenessSeconds : ℤ
  absoluteHardLossCap : Decimal
  pctHardLossCap : Decimal
  maxDrawdownPct : Decimal
  maxTotalExposurePct : Decimal
  maxSinglePositionPct : Decimal
  exchangeFailureThreshold : UInt32
  exchangePauseDurationSeconds : ℤ
  /-- `validate_positive` on the absolute cap. -/
  absoluteHardLossCap_pos : 0 < absoluteHardLossCap
  /-- `validate_strictly_positive_pct` on the percentage cap. -/
  pctHardLossCap_pos : 0 < pctHardLossCap
  /-- `validate_strictly_positive_pct` on the drawdown limit. -/
  maxDrawdownPct_pos : 0 < maxDrawdownPct

/-- The limits the engine's own tests run with. -/
def testRiskConfig : ValidatedRiskConfig where
  minNetProfitPct := 15 / 10000
  maxEquityStalenessSeconds := 10
  absoluteHardLossCap := 150
  pctHardLossCap := 1 / 100
  maxDrawdownPct := 4 / 100
  maxTotalExposurePct := 1
  maxSinglePositionPct := 15 / 100
  exchangeFailureThreshold := 3
  exchangePauseDurationSeconds := 30
  absoluteHardLossCap_pos := by norm_num
  pctHardLossCap_pos := by norm_num
  maxDrawdownPct_pos := by norm_num

/-- The state of the gatekeeper and its integer thresholds. -/
structure RiskManager where
  /-- Layer 0 rejects every trade. -/
  killSwitch : Bool
  /-- Layer 1 rejects every trade. -/
  frozen : Bool
  /-- Time of the last equity update, Unix milliseconds. -/
  lastUpdate : ℤ
  drawdown : DrawdownTracker
  exchangeHealth : ExchangeHealthTracker
  /-- Total open exposure in micro-dollars. -/
  totalExposure : UInt64
  /-- Session profit and loss in cents. -/
  sessionPnl : ℤ
  depegActive : Bool
  memecoinExposureFp : UInt64
  altcoinExposureFp : UInt64
  majorAssetBreached : Bool
  /-- Time of the last network-latency check, Unix milliseconds. -/
  lastNetworkCheck : ℤ
  minProfitBps : UInt64
  maxStalenessMs : ℤ
  absLossCapCents : ℤ
  pctLossCapBps : UInt64
  maxDrawdownBps : UInt64
  maxTotalExposureBps : UInt64
  maxSinglePosBps : UInt64
  failureThreshold : UInt32
  pauseDurationMs : ℤ

/-- `pct_to_bps`: a fraction in basis points; a negative one becomes zero. -/
def pctToBps (pct : Decimal) : UInt64 :=
  if pct < 0 then 0 else (Decimal.toU64 (pct * bpsScale)).getD 0

/-- `dollars_to_cents`: cents truncated towards zero, capped at ten billion cents when the amount
does not fit. -/
def dollarsToCents (dollars : Decimal) : ℤ :=
  let cents := dollars * 100
  let whole := ⌊|cents|⌋
  let val := if whole ≤ i64Max then whole else 10000000000
  if cents < 0 then -val else val

/-- `bps_of_capital_fp`: a share of the capital in micro-dollars, cut to 64 bits. -/
def bpsOfCapitalFp (bps capitalFp : UInt64) : UInt64 :=
  if capitalFp = 0 then 0 else UInt64.ofNat (bps.toNat * capitalFp.toNat / bpsScale)

/-- `bps_of_capital_cents`: a share of the capital in cents, clamped to the signed range. -/
def bpsOfCapitalCents (bps capitalFp : UInt64) : ℤ :=
  if capitalFp = 0 then 0
  else min (bps.toNat * capitalFp.toNat / 100000000 : ℕ) i64Max

/-- A fresh gatekeeper built at the time `now`. -/
def RiskManager.new (config : ValidatedRiskConfig) (now : ℤ) : RiskManager where
  killSwitch := false
  frozen := false
  lastUpdate := now
  drawdown := ⟨0, 0⟩
  exchangeHealth := ⟨fun _ => 0, fun _ => 0⟩
  totalExposure := 0
  sessionPnl := 0
  depegActive := false
  memecoinExposureFp := 0
  altcoinExposureFp := 0
  majorAssetBreached := false
  lastNetworkCheck := now
  minProfitBps := pctToBps config.minNetProfitPct
  maxStalenessMs := config.maxEquityStalenessSeconds * 1000
  absLossCapCents := dollarsToCents config.absoluteHardLossCap
  pctLossCapBps := pctToBps config.pctHardLossCap
  maxDrawdownBps := pctToBps config.maxDrawdownPct
  maxTotalExposureBps := pctToBps config.maxTotalExposurePct
  maxSinglePosBps := pctToBps config.maxSinglePositionPct
  failureThreshold := config.exchangeFailureThreshold
  pauseDurationMs := config.exchangePauseDurationSeconds * 1000

/-! ## The gate -/

/-- The clock readings of one run of the gate: layer 3, layer 9 and layer 14 each read the time. -/
structure GateClock where
  equityNow : ℤ
  pauseNow : ℤ
  networkNow : ℤ

/-- The exposure cap of memecoins, `MEMECOIN_MAX_BPS`. -/
def memecoinMaxBps : UInt64 := 500

/-- The concentration cap of altcoins, `ALTCOIN_MAX_BPS`. -/
def altcoinMaxBps : UInt64 := 1500

/-- The age at which the network check is stale, `NETWORK_STALE_MS`. -/
def networkStaleMs : ℤ := 30000

namespace RiskManager

/-- The layers 0 to 6, which only read: the first of them that rejects. -/
def layersBeforeReserve (rm : RiskManager) (clk : GateClock)
    (expectedProfitBps capitalFp : UInt64) : Option TradeRejection :=
  if rm.killSwitch then some .killSwitchActive
  else if rm.frozen then some .systemFrozen
  else if expectedProfitBps < rm.minProfitBps then some .profitBelowThreshold
  else if rm.maxStalenessMs < satSubI64 clk.equityNow rm.lastUpdate then some .equityStale
  else if rm.sessionPnl < -rm.absLossCapCents then some .hardLossCapBreached
  else if rm.sessionPnl < -bpsOfCapitalCents rm.pctLossCapBps capitalFp then
    some .pctLossCapBreached
  else if rm.maxDrawdownBps < rm.drawdown.drawdownBps then some .maxDrawdownBreached
  else none

/-- The exposure cap of layer 7. -/
def maxExposureFp (rm : RiskManager) (capitalFp : UInt64) : UInt64 :=
  bpsOfCapitalFp rm.maxTotalExposureBps capitalFp

/-- Layer 7: reserve the exposure, or leave it when the cap would be exceeded. -/
def tryReserveExposure (rm : RiskManager) (sizeFp maxExpFp : UInt64) : Option RiskManager :=
  let newTotal := satAdd rm.totalExposure sizeFp
  if maxExpFp < newTotal then none else some { rm with totalExposure := newTotal }

/-- The layers 8 to 14: the first of them that rejects. -/
def layersAfterReserve (rm : RiskManager) (clk : GateClock) (sizeFp capitalFp : UInt64)
    (exchangeId : UInt16) : Option TradeRejection :=
  if bpsOfCapitalFp rm.maxSinglePosBps capitalFp < sizeFp then some .positionSizeLimitBreached
  else if rm.exchangeHealth.isPaused clk.pauseNow exchangeId then some (.exchangePaused exchangeId)
  else if rm.depegActive then some .depegActive
  else if bpsOfCapitalFp memecoinMaxBps capitalFp < rm.memecoinExposureFp then
    some .memecoinExposureLimit
  else if bpsOfCapitalFp altcoinMaxBps capitalFp < rm.altcoinExposureFp then
    some .altcoinConcentrationLimit
  else if rm.majorAssetBreached then some .majorAssetFloorBreached
  else if networkStaleMs < satSubI64 clk.networkNow rm.lastNetworkCheck then
    some .networkLatencyStale
  else none

/-- The fourteen-layer gate: the verdict and the state it leaves. -/
def preTradeCheck (rm : RiskManager) (clk : GateClock)
    (expectedProfitBps sizeFp capitalFp : UInt64) (exchangeId : UInt16) :
    Except TradeRejection Unit × RiskManager :=
  match rm.layersBeforeReserve clk expectedProfitBps capitalFp with
  | some r => (.error r, rm)
  | none =>
    match rm.tryReserveExposure sizeFp (rm.maxExposureFp capitalFp) with
    | none => (.error .exposureLimitBreached, rm)
    | some rm' =>
      match rm'.layersAfterReserve clk sizeFp capitalFp exchangeId with
      | some r => (.error r, rm')
      | none => (.ok (), rm')

/-! ## State changes outside the gate -/

/-- Give back a reservation. -/
def releaseExposure (rm : RiskManager) (sizeFp : UInt64) : RiskManager :=
  { rm with totalExposure := satSub rm.totalExposure sizeFp }

/-- Overwrite the exposure. -/
def setTotalExposure (rm : RiskManager) (exposureFp : UInt64) : RiskManager :=
  { rm with totalExposure := exposureFp }

/-- Report an equity value at the time `now`. -/
def updateEquity (rm : RiskManager) (now : ℤ) (equityFp : UInt64) : RiskManager :=
  { rm with drawdown := rm.drawdown.update equityFp, lastUpdate := now }

/-- Add a realised profit or loss to the session total, a signed 64-bit counter that wraps. -/
def recordTradePnl (rm : RiskManager) (pnlCents : ℤ) : RiskManager :=
  { rm with sessionPnl := (rm.sessionPnl + pnlCents).bmod (2 ^ 64) }

/-- Refresh the network check. -/
def touchNetworkCheck (rm : RiskManager) (now : ℤ) : RiskManager :=
  { rm with lastNetworkCheck := now }

/-- Count a failed interaction with an exchange. -/
def recordExchangeFailure (rm : RiskManager) (now : ℤ) (exchangeId : UInt16) : RiskManager :=
  { rm with
    exchangeHealth :=
      rm.exchangeHealth.recordFailure now exchangeId rm.failureThreshold rm.pauseDurationMs }

/-- Count a successful interaction with an exchange. -/
def recordExchangeSuccess (rm : RiskManager) (exchangeId : UInt16) : RiskManager :=
  { rm with exchangeHealth := rm.exchangeHealth.recordSuccess exchangeId }

end RiskManager

end HftArb
