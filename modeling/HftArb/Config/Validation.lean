import HftArb.Decimal
import HftArb.Foundations.AssocMap
import HftArb.Foundations.ByteOffsets
import HftArb.Foundations.Checks
import HftArb.Persistence.TradeLog

/-!
# The validation of the configuration

The configuration is read once at the start.  Its numbers are texts and floats; they become decimals
and are checked against their ranges, field by field, and the first failure stops the start with a
message.  Secrets may come from the environment instead.

The parsing of the file itself, of decimals and of floats is that of libraries, and so are the
tables of characters; they are parameters.  Maps of the file are lists in the order in which they
happen to be walked.
-/

namespace HftArb

namespace Configs

open ByteOffsets Checking TradeLog

/-- Maximum number of exchanges that the masks of 64 bits represent. -/
def maxExchanges : ℕ := 64

/-- Minimum length of a deposit address. -/
def minDepositAddrLen : ℕ := 10

/-- Maximum length of a deposit address. -/
def maxDepositAddrLen : ℕ := 44

/-! ## The configuration as it is on disk -/

structure VpsSettings where
  pinnedCpuCore : UInt64
  networkInterfaceBacklog : UInt32

structure DiscordConfig where
  webhookUrl : List Char
  bufferCapacity : UInt64

structure RawCrossExchangeConfig where
  enabled : Bool
  minSpreadPct : List Char
  maxTargetLatencyMs : UInt64
  minL2LiquidityUsd : List Char
  maxSlippageTolerance : List Char
  exchanges : Option (List UInt16)

structure RawTriangularConfig where
  enabled : Bool
  minLoopProfitPct : List Char
  maxPathLength : UInt32
  minPairVolume24h : List Char
  quoteAnchors : List (List Char)
  exchanges : Option (List UInt16)

structure RawStrategies where
  crossExchange : RawCrossExchangeConfig
  triangular : RawTriangularConfig

structure RawExchangeConfig where
  id : UInt16
  name : List Char
  apiKey : List Char
  apiSecret : List Char
  passphrase : Option (List Char)
  wssUrl : List Char
  restUrl : List Char

/-- The seconds are those of an `i64`. -/
structure RawRiskLimits where
  minNetProfitPct : List Char
  maxEquityStalenessSeconds : ℤ
  absoluteHardLossCap : List Char
  pctHardLossCap : List Char
  maxDrawdownPct : List Char
  maxTotalExposurePct : List Char
  maxSinglePositionPct : List Char
  exchangeFailureThreshold : UInt32
  exchangePauseDurationSeconds : ℤ
  stablecoinDepegThreshold : List Char
  dailyLossLimitUsd : List Char

/-- The percentages are floats. -/
structure StablecoinConfig (F : Type) where
  depegThreshold : F
  usdtMaxPct : F
  usdcMinPct : F
  monitoredSymbols : List (List Char)

structure RawFrictionProtections where
  transferGasFeeUsd : List Char
  feeAwareEnabled : Bool
  defaultTakerFeePct : List Char
  exchangeTakerFees : List (List Char × UInt64)

structure RawConfig (F : Type) where
  forceLiveMode : Bool
  vpsSettings : VpsSettings
  discord : DiscordConfig
  strategies : RawStrategies
  exchanges : List (List Char × RawExchangeConfig)
  riskLimits : RawRiskLimits
  stablecoin : StablecoinConfig F
  frictionProtections : RawFrictionProtections
  depositAddresses : List (List Char × List Char)

/-! ## The validated configuration -/

structure ValidatedRiskConfig where
  minNetProfitPct : Decimal
  maxEquityStalenessSeconds : ℤ
  absoluteHardLossCap : Decimal
  pctHardLossCap : Decimal
  maxDrawdownPct : Decimal
  maxTotalExposurePct : Decimal
  maxSinglePositionPct : Decimal
  exchangeFailureThreshold : UInt32
  exchangePauseDurationSeconds : ℤ
  stablecoinDepegThreshold : Decimal
  dailyLossLimitUsd : Decimal

structure ValidatedCrossExchangeConfig where
  enabled : Bool
  minSpreadPct : Decimal
  maxTargetLatencyMs : UInt64
  minL2LiquidityUsd : Decimal
  maxSlippageTolerance : Decimal
  exchanges : Option (List UInt16)

structure ValidatedTriangularConfig where
  enabled : Bool
  minLoopProfitPct : Decimal
  maxPathLength : UInt32
  minPairVolume24h : Decimal
  quoteAnchors : List (List Char)
  exchanges : Option (List UInt16)

structure ValidatedExchangeConfig where
  id : UInt16
  name : List Char
  apiKey : List Char
  apiSecret : List Char
  passphrase : Option (List Char)
  wssUrl : List Char
  restUrl : List Char

structure ValidatedStablecoinConfig where
  depegThreshold : Decimal
  usdtMaxPct : Decimal
  usdcMinPct : Decimal
  monitoredSymbols : List (List Char)

structure ValidatedFrictionProtections where
  transferGasFeeUsd : Decimal
  feeAwareEnabled : Bool
  defaultTakerFeePct : Decimal
  exchangeTakerFees : List (List Char × UInt64)

structure ValidatedStrategies where
  crossExchange : ValidatedCrossExchangeConfig
  triangular : ValidatedTriangularConfig

structure EngineConfig where
  forceLiveMode : Bool
  vps : VpsSettings
  discord : DiscordConfig
  strategies : ValidatedStrategies
  risk : ValidatedRiskConfig
  exchanges : List (UInt16 × ValidatedExchangeConfig)
  stablecoin : ValidatedStablecoinConfig
  frictionProtections : ValidatedFrictionProtections
  depositAddresses : List (List Char × List Char)

/-! ## The environment -/

/-- What the program takes from libraries and from its environment: decimals from texts, with the
text of the error, and from floats, the texts of both, the tables of characters, and the variables
that are set. -/
structure Platform (F : Type) where
  fromStr : List Char → Except (List Char) Decimal
  fromF64 : F → Option Decimal
  display : Decimal → List Char
  displayF64 : F → List Char
  isAlphanumeric : Char → Bool
  toUppercase : Char → List Char
  var : List Char → Option (List Char)

section Validation

variable {F : Type} (platform : Platform F)

/-- `env_override`: a variable that is set and not empty. -/
def envOverride (key : List Char) : Option (List Char) :=
  (platform.var key).filter fun v => !v.isEmpty

/-- `exchange_env_prefix`. -/
def exchangeEnvPrefix (name : List Char) : List Char :=
  (name.filter platform.isAlphanumeric).flatMap platform.toUppercase

/-! ## Checks of one field -/

/-- `parse_decimal`. -/
def parseDecimal (s field : List Char) : Except (List Char) Decimal :=
  match platform.fromStr s with
  | .ok d => .ok d
  | .error e =>
    .error ("Failed to parse '".toList ++ s ++ "' as Decimal for field '".toList ++ field ++
      "': ".toList ++ e)

/-- `f64_to_decimal`. -/
def f64ToDecimal (val : F) (field : List Char) : Except (List Char) Decimal :=
  match platform.fromF64 val with
  | some d => .ok d
  | none =>
    .error ("Failed to convert f64 value ".toList ++ platform.displayF64 val ++
      " for field '".toList ++ field ++ "' to Decimal".toList)

/-- The message of a field with a value that is out of its range. -/
def fieldMessage (field value rule : List Char) : List Char :=
  "Field '".toList ++ field ++ "' = ".toList ++ value ++ rule

/-- `validate_pct_range`. -/
def validatePctRange (value : Decimal) (field : List Char) : Except (List Char) Unit :=
  rejectIf (value < 0 ∨ 1 < value)
    (fieldMessage field (platform.display value)
      " must be between 0 and 1 (inclusive)".toList)

/-- `validate_positive`. -/
def validatePositive (value : Decimal) (field : List Char) : Except (List Char) Unit :=
  rejectIf (value ≤ 0)
    (fieldMessage field (platform.display value)
      " must be strictly greater than 0".toList)

/-- `validate_strictly_positive_pct`. -/
def validateStrictlyPositivePct (value : Decimal) (field : List Char) : Except (List Char) Unit :=
  rejectIf (value ≤ 0 ∨ 1 < value)
    (fieldMessage field (platform.display value)
      " must be strictly between 0 and 1 (exclusive of 0)".toList)

/-- `validate_positive_i64`. -/
def validatePositiveI64 (value : ℤ) (field : List Char) : Except (List Char) Unit :=
  rejectIf (value ≤ 0)
    (fieldMessage field (displayInt value) " must be strictly greater than 0".toList)

/-! ## The sections -/

/-- A list of exchanges; an empty one is none. -/
def allowlist (exchanges : Option (List UInt16)) : Option (List UInt16) :=
  exchanges.filter fun v => !v.isEmpty

/-- The section of the strategy across exchanges. -/
def validateCrossExchange (r : RawCrossExchangeConfig) :
    Except (List Char) ValidatedCrossExchangeConfig := do
  let minSpreadPct ← parseDecimal platform r.minSpreadPct
    "strategies.cross_exchange.min_spread_pct".toList
  validateStrictlyPositivePct platform minSpreadPct
    "strategies.cross_exchange.min_spread_pct".toList
  let minL2LiquidityUsd ← parseDecimal platform r.minL2LiquidityUsd
    "strategies.cross_exchange.min_l2_liquidity_usd".toList
  validatePositive platform minL2LiquidityUsd
    "strategies.cross_exchange.min_l2_liquidity_usd".toList
  let maxSlippageTolerance ← parseDecimal platform r.maxSlippageTolerance
    "strategies.cross_exchange.max_slippage_tolerance".toList
  validatePctRange platform maxSlippageTolerance
    "strategies.cross_exchange.max_slippage_tolerance".toList
  .ok {
    enabled := r.enabled
    minSpreadPct := minSpreadPct
    maxTargetLatencyMs := r.maxTargetLatencyMs
    minL2LiquidityUsd := minL2LiquidityUsd
    maxSlippageTolerance := maxSlippageTolerance
    exchanges := allowlist r.exchanges }

/-- The section of the triangular strategy. -/
def validateTriangular (r : RawTriangularConfig) :
    Except (List Char) ValidatedTriangularConfig := do
  let minLoopProfitPct ← parseDecimal platform r.minLoopProfitPct
    "strategies.triangular.min_loop_profit_pct".toList
  validatePctRange platform minLoopProfitPct
    "strategies.triangular.min_loop_profit_pct".toList
  let minPairVolume24h ← parseDecimal platform r.minPairVolume24h
    "strategies.triangular.min_pair_volume_24h".toList
  validatePositive platform minPairVolume24h
    "strategies.triangular.min_pair_volume_24h".toList
  rejectIf (r.maxPathLength < 3)
    ("strategies.triangular.max_path_length = ".toList ++
      Nat.toDigits 10 r.maxPathLength.toNat ++ " must be >= 3".toList)
  rejectIf (r.quoteAnchors = [])
    "strategies.triangular.quote_anchors must contain at least one entry".toList
  .ok {
    enabled := r.enabled
    minLoopProfitPct := minLoopProfitPct
    maxPathLength := r.maxPathLength
    minPairVolume24h := minPairVolume24h
    quoteAnchors := r.quoteAnchors
    exchanges := allowlist r.exchanges }

/-- The section of the risk limits. -/
def validateRisk (r : RawRiskLimits) : Except (List Char) ValidatedRiskConfig := do
  let minNetProfitPct ← parseDecimal platform r.minNetProfitPct
    "risk_limits.min_net_profit_pct".toList
  validateStrictlyPositivePct platform minNetProfitPct "risk_limits.min_net_profit_pct".toList
  validatePositiveI64 r.maxEquityStalenessSeconds
    "risk_limits.max_equity_staleness_seconds".toList
  let absoluteHardLossCap ← parseDecimal platform r.absoluteHardLossCap
    "risk_limits.absolute_hard_loss_cap".toList
  validatePositive platform absoluteHardLossCap "risk_limits.absolute_hard_loss_cap".toList
  let pctHardLossCap ← parseDecimal platform r.pctHardLossCap
    "risk_limits.pct_hard_loss_cap".toList
  validateStrictlyPositivePct platform pctHardLossCap "risk_limits.pct_hard_loss_cap".toList
  let maxDrawdownPct ← parseDecimal platform r.maxDrawdownPct
    "risk_limits.max_drawdown_pct".toList
  validateStrictlyPositivePct platform maxDrawdownPct "risk_limits.max_drawdown_pct".toList
  -- losing everything passes the check above
  rejectIf (1 ≤ maxDrawdownPct)
    ("risk_limits.max_drawdown_pct = ".toList ++ platform.display maxDrawdownPct ++
      " must be < 1.0 (100%%) — losing everything is not a valid risk parameter".toList)
  let maxTotalExposurePct ← parseDecimal platform r.maxTotalExposurePct
    "risk_limits.max_total_exposure_pct".toList
  validateStrictlyPositivePct platform maxTotalExposurePct
    "risk_limits.max_total_exposure_pct".toList
  let maxSinglePositionPct ← parseDecimal platform r.maxSinglePositionPct
    "risk_limits.max_single_position_pct".toList
  validateStrictlyPositivePct platform maxSinglePositionPct
    "risk_limits.max_single_position_pct".toList
  rejectIf (r.exchangeFailureThreshold = 0)
    "risk_limits.exchange_failure_threshold must be > 0".toList
  validatePositiveI64 r.exchangePauseDurationSeconds
    "risk_limits.exchange_pause_duration_seconds".toList
  let stablecoinDepegThreshold ← parseDecimal platform r.stablecoinDepegThreshold
    "risk_limits.stablecoin_depeg_threshold".toList
  validatePositive platform stablecoinDepegThreshold
    "risk_limits.stablecoin_depeg_threshold".toList
  let dailyLossLimitUsd ← parseDecimal platform r.dailyLossLimitUsd
    "risk_limits.daily_loss_limit_usd".toList
  validatePositive platform dailyLossLimitUsd "risk_limits.daily_loss_limit_usd".toList
  .ok {
    minNetProfitPct := minNetProfitPct
    maxEquityStalenessSeconds := r.maxEquityStalenessSeconds
    absoluteHardLossCap := absoluteHardLossCap
    pctHardLossCap := pctHardLossCap
    maxDrawdownPct := maxDrawdownPct
    maxTotalExposurePct := maxTotalExposurePct
    maxSinglePositionPct := maxSinglePositionPct
    exchangeFailureThreshold := r.exchangeFailureThreshold
    exchangePauseDurationSeconds := r.exchangePauseDurationSeconds
    stablecoinDepegThreshold := stablecoinDepegThreshold
    dailyLossLimitUsd := dailyLossLimitUsd }

/-- An exchange with the secrets of the environment. -/
def validatedExchange (raw : RawExchangeConfig) : ValidatedExchangeConfig :=
  let pre := exchangeEnvPrefix platform raw.name
  { id := raw.id
    name := raw.name
    apiKey := (envOverride platform (pre ++ "_API_KEY".toList)).getD raw.apiKey
    apiSecret := (envOverride platform (pre ++ "_API_SECRET".toList)).getD raw.apiSecret
    passphrase := (envOverride platform (pre ++ "_PASSPHRASE".toList)).or raw.passphrase
    wssUrl := raw.wssUrl
    restUrl := raw.restUrl }

/-- The loop over the sections of the exchanges, with those that are there already. -/
def validateExchanges : List (List Char × RawExchangeConfig) →
    List (UInt16 × ValidatedExchangeConfig) →
    Except (List Char) (List (UInt16 × ValidatedExchangeConfig))
  | [], exchanges => .ok exchanges
  | (sectionName, raw) :: rest, exchanges =>
    if sectionName = [] then .error "Exchange section name must not be empty".toList
    else if raw.name = [] then
      .error ("Exchange [".toList ++ sectionName ++ "] has an empty 'name' field".toList)
    else if raw.id ∈ exchanges.map Prod.fst then
      .error ("Duplicate exchange id ".toList ++ Nat.toDigits 10 raw.id.toNat ++
        " (found in section [exchanges.".toList ++ sectionName ++ "])".toList)
    else if raw.name ≠ sectionName then
      .error ("Exchange section name '".toList ++ sectionName ++
        "' does not match exchange.name '".toList ++ raw.name ++ "'".toList)
    else
      validateExchanges rest
        (AssocMap.upsert raw.id (fun _ => validatedExchange platform raw) exchanges)

/-- The limits on the number of exchanges. -/
def validateExchangeCount (count : ℕ) : Except (List Char) Unit := do
  rejectIf (count = 0)
    "At least one exchange must be configured under [exchanges.*]".toList
  rejectIf (maxExchanges < count)
    ("FATAL: More than 64 exchanges configured. ".toList ++
      "The u64 bitmask system supports at most 64 exchanges.".toList)

/-- The section of the stablecoins. -/
def validateStablecoin (s : StablecoinConfig F) :
    Except (List Char) ValidatedStablecoinConfig := do
  let depegThreshold ← f64ToDecimal platform s.depegThreshold "stablecoin.depeg_threshold".toList
  let usdtMaxPct ← f64ToDecimal platform s.usdtMaxPct "stablecoin.usdt_max_pct".toList
  let usdcMinPct ← f64ToDecimal platform s.usdcMinPct "stablecoin.usdc_min_pct".toList
  rejectIf (depegThreshold ≤ 0 ∨ 1 ≤ depegThreshold)
    ("stablecoin.depeg_threshold = ".toList ++ platform.display depegThreshold ++
      " must be in (0, 1)".toList)
  rejectIf (usdtMaxPct < 0 ∨ 1 < usdtMaxPct)
    ("stablecoin.usdt_max_pct = ".toList ++ platform.display usdtMaxPct ++
      " must be in [0, 1]".toList)
  rejectIf (usdcMinPct < 0 ∨ 1 < usdcMinPct)
    ("stablecoin.usdc_min_pct = ".toList ++ platform.display usdcMinPct ++
      " must be in [0, 1]".toList)
  rejectIf (1 < usdtMaxPct + usdcMinPct)
    "stablecoin usdt_max_pct + usdc_min_pct must be <= 1.0".toList
  .ok {
    depegThreshold := depegThreshold
    usdtMaxPct := usdtMaxPct
    usdcMinPct := usdcMinPct
    monitoredSymbols := s.monitoredSymbols }

/-- The fee of one exchange. -/
def validateTakerFee (fee : List Char × UInt64) : Except (List Char) Unit :=
  rejectIf (fee.2 = 0)
    ("friction_protections.exchange_taker_fees.".toList ++ fee.1 ++
      " = 0 must be > 0".toList)

/-- The section of the friction protections. -/
def validateFriction (f : RawFrictionProtections) :
    Except (List Char) ValidatedFrictionProtections := do
  let transferGasFeeUsd ← parseDecimal platform f.transferGasFeeUsd
    "friction_protections.transfer_gas_fee_usd".toList
  validatePositive platform transferGasFeeUsd "friction_protections.transfer_gas_fee_usd".toList
  let defaultTakerFeePct ← parseDecimal platform f.defaultTakerFeePct
    "friction_protections.default_taker_fee_pct".toList
  rejectIf (defaultTakerFeePct ≤ 0 ∨ 1 < defaultTakerFeePct)
    ("friction_protections.default_taker_fee_pct = ".toList ++
      platform.display defaultTakerFeePct ++
      " must be strictly between 0 and 1 (exclusive of 0)".toList)
  f.exchangeTakerFees.forM validateTakerFee
  .ok {
    transferGasFeeUsd := transferGasFeeUsd
    feeAwareEnabled := f.feeAwareEnabled
    defaultTakerFeePct := defaultTakerFeePct
    exchangeTakerFees := f.exchangeTakerFees }

/-- `is_ascii_hexdigit`. -/
def isAsciiHexdigit (c : Char) : Bool :=
  ('0' ≤ c ∧ c ≤ '9') ∨ ('a' ≤ c ∧ c ≤ 'f') ∨ ('A' ≤ c ∧ c ≤ 'F')

/-- The message of a deposit address begins with its path. -/
def depositPath (key : List Char) : List Char := "deposit_addresses.".toList ++ key

/-- One deposit address; an empty one is not configured. -/
def validateDepositAddress (entry : List Char × List Char) : Except (List Char) Unit :=
  let addr := entry.2
  let hexBody := addr.drop 2
  if addr = [] then .ok ()
  else if ¬ "0x".toList.isPrefixOf addr ∨ byteLen addr < minDepositAddrLen then
    .error (depositPath entry.1 ++ " = \"".toList ++ addr ++
      "\" is not a valid blockchain address (must start with 0x, min 10 chars)".toList)
  else if hexBody.all (fun c => decide (c = '0')) then
    .error (depositPath entry.1 ++ (" is the zero-address sentinel (0x0000...). " ++
      "Replace it with your REAL verified on-chain deposit address before live deployment.").toList)
  else if ¬ hexBody.all isAsciiHexdigit then
    .error (depositPath entry.1 ++ " = \"".toList ++ addr ++
      "\" contains non-hex characters".toList)
  else if maxDepositAddrLen < byteLen addr then
    .error (depositPath entry.1 ++ " = \"".toList ++ addr ++
      "\" is too long (>44 chars)".toList)
  else .ok ()

/-- `load_and_validate` on what the file holds. -/
def loadAndValidate (raw : RawConfig F) : Except (List Char) EngineConfig := do
  let crossExchange ← validateCrossExchange platform raw.strategies.crossExchange
  let triangular ← validateTriangular platform raw.strategies.triangular
  let risk ← validateRisk platform raw.riskLimits
  let exchanges ← validateExchanges platform raw.exchanges []
  validateExchangeCount exchanges.length
  let stablecoin ← validateStablecoin platform raw.stablecoin
  let discord := { raw.discord with
    webhookUrl := (envOverride platform "DISCORD_WEBHOOK_URL".toList).getD raw.discord.webhookUrl }
  let frictionProtections ← validateFriction platform raw.frictionProtections
  raw.depositAddresses.forM validateDepositAddress
  .ok {
    forceLiveMode := raw.forceLiveMode
    vps := raw.vpsSettings
    discord := discord
    strategies := { crossExchange := crossExchange, triangular := triangular }
    risk := risk
    exchanges := exchanges
    stablecoin := stablecoin
    frictionProtections := frictionProtections
    depositAddresses := raw.depositAddresses }

end Validation

end Configs

end HftArb
