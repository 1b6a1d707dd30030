import HftArb.Config.Validation
import HftArb.Foundations.Checks

/-!
# What the validation accepts

`rules` lists the conditions on a configuration with the paths of its fields, in no particular order
of checking and without any message.  `loadAndValidate_ok_iff` says that the validation accepts what
satisfies all of them, and `loadAndValidate_error` that a message names the path of one that is
violated.  The maps of the file are walked in an order that is not fixed; `loadAndValidate_perm`
says that the outcome does not depend on it.
-/

namespace HftArb

namespace Configs

open ByteOffsets Checking

/-- A proper fraction or one. -/
def IsPct (d : Decimal) : Prop := 0 ≤ d ∧ d ≤ 1

/-- A fraction that is not zero. -/
def IsPositivePct (d : Decimal) : Prop := 0 < d ∧ d ≤ 1

/-- A deposit address: between eight and forty-two hexadecimal digits, not all zero. -/
def IsDepositAddress (addr : List Char) : Prop :=
  ∃ digits, addr = '0' :: 'x' :: digits ∧ (∀ c ∈ digits, isAsciiHexdigit c = true) ∧
    (∃ c ∈ digits, c ≠ '0') ∧ 8 ≤ digits.length ∧ digits.length ≤ 42

section Rules

variable {F : Type} (platform : Platform F)

/-- A text is read as a decimal with a property. -/
def ReadsAs (s : List Char) (P : Decimal → Prop) (d : Decimal) : Prop :=
  platform.fromStr s = .ok d ∧ P d

/-- A float becomes a decimal with a property. -/
def ConvertsTo (val : F) (P : Decimal → Prop) (d : Decimal) : Prop :=
  platform.fromF64 val = some d ∧ P d

/-- A text is a decimal with a property. -/
def Reads (s : List Char) (P : Decimal → Prop) : Prop := ∃ d, ReadsAs platform s P d

/-- A float is a decimal with a property. -/
def Converts (val : F) (P : Decimal → Prop) : Prop := ∃ d, ConvertsTo platform val P d

/-! ## The rules -/

def crossExchangeRules (r : RawCrossExchangeConfig) : List Rule :=
  [⟨"strategies.cross_exchange.min_spread_pct".toList,
      Reads platform r.minSpreadPct IsPositivePct⟩,
    ⟨"strategies.cross_exchange.min_l2_liquidity_usd".toList,
      Reads platform r.minL2LiquidityUsd (0 < ·)⟩,
    ⟨"strategies.cross_exchange.max_slippage_tolerance".toList,
      Reads platform r.maxSlippageTolerance IsPct⟩]

def triangularRules (r : RawTriangularConfig) : List Rule :=
  [⟨"strategies.triangular.min_loop_profit_pct".toList, Reads platform r.minLoopProfitPct IsPct⟩,
    ⟨"strategies.triangular.min_pair_volume_24h".toList,
      Reads platform r.minPairVolume24h (0 < ·)⟩,
    ⟨"strategies.triangular.max_path_length".toList, 3 ≤ r.maxPathLength⟩,
    ⟨"strategies.triangular.quote_anchors".toList, r.quoteAnchors ≠ []⟩]

def riskRules (r : RawRiskLimits) : List Rule :=
  [⟨"risk_limits.min_net_profit_pct".toList, Reads platform r.minNetProfitPct IsPositivePct⟩,
    ⟨"risk_limits.max_equity_staleness_seconds".toList, 0 < r.maxEquityStalenessSeconds⟩,
    ⟨"risk_limits.absolute_hard_loss_cap".toList, Reads platform r.absoluteHardLossCap (0 < ·)⟩,
    ⟨"risk_limits.pct_hard_loss_cap".toList, Reads platform r.pctHardLossCap IsPositivePct⟩,
    ⟨"risk_limits.max_drawdown_pct".toList,
      Reads platform r.maxDrawdownPct fun d => 0 < d ∧ d < 1⟩,
    ⟨"risk_limits.max_total_exposure_pct".toList,
      Reads platform r.maxTotalExposurePct IsPositivePct⟩,
    ⟨"risk_limits.max_single_position_pct".toList,
      Reads platform r.maxSinglePositionPct IsPositivePct⟩,
    ⟨"risk_limits.exchange_failure_threshold".toList, r.exchangeFailureThreshold ≠ 0⟩,
    ⟨"risk_limits.exchange_pause_duration_seconds".toList, 0 < r.exchangePauseDurationSeconds⟩,
    ⟨"risk_limits.stablecoin_depeg_threshold".toList,
      Reads platform r.stablecoinDepegThreshold (0 < ·)⟩,
    ⟨"risk_limits.daily_loss_limit_usd".toList, Reads platform r.dailyLossLimitUsd (0 < ·)⟩]

/-- A section has the name of its exchange, and no other section has its number. -/
def exchangeRules (exchanges : List (List Char × RawExchangeConfig)) : List Rule :=
  exchanges.map fun entry =>
    ⟨entry.1, entry.1 ≠ [] ∧ entry.2.name = entry.1 ∧
      (exchanges.map fun other => other.2.id).count entry.2.id = 1⟩

def exchangeCountRules (count : ℕ) : List Rule :=
  [⟨"exchanges".toList, 0 < count⟩, ⟨"exchanges".toList, count ≤ 64⟩]

def stablecoinRules (s : StablecoinConfig F) : List Rule :=
  [⟨"stablecoin.depeg_threshold".toList,
      Converts platform s.depegThreshold fun d => 0 < d ∧ d < 1⟩,
    ⟨"stablecoin.usdt_max_pct".toList, Converts platform s.usdtMaxPct IsPct⟩,
    ⟨"stablecoin.usdc_min_pct".toList, Converts platform s.usdcMinPct IsPct⟩,
    ⟨"stablecoin usdt_max_pct + usdc_min_pct".toList,
      ∀ d d', platform.fromF64 s.usdtMaxPct = some d → platform.fromF64 s.usdcMinPct = some d' →
        d + d' ≤ 1⟩]

def frictionRules (f : RawFrictionProtections) : List Rule :=
  ⟨"friction_protections.transfer_gas_fee_usd".toList,
      Reads platform f.transferGasFeeUsd (0 < ·)⟩ ::
    ⟨"friction_protections.default_taker_fee_pct".toList,
      Reads platform f.defaultTakerFeePct IsPositivePct⟩ ::
    f.exchangeTakerFees.map fun fee =>
      ⟨"friction_protections.exchange_taker_fees.".toList ++ fee.1, fee.2 ≠ 0⟩

def depositRules (addresses : List (List Char × List Char)) : List Rule :=
  addresses.map fun entry => ⟨depositPath entry.1, entry.2 = [] ∨ IsDepositAddress entry.2⟩

/-- The rules of a configuration. -/
def rules (raw : RawConfig F) : List Rule :=
  crossExchangeRules platform raw.strategies.crossExchange ++
    triangularRules platform raw.strategies.triangular ++ riskRules platform raw.riskLimits ++
    exchangeRules raw.exchanges ++ exchangeCountRules raw.exchanges.length ++
    stablecoinRules platform raw.stablecoin ++ frictionRules platform raw.frictionProtections ++
    depositRules raw.depositAddresses

/-! ## What is accepted -/

structure CrossExchangeOf (r : RawCrossExchangeConfig) (c : ValidatedCrossExchangeConfig) :
    Prop where
  enabled : c.enabled = r.enabled
  minSpreadPct : ReadsAs platform r.minSpreadPct IsPositivePct c.minSpreadPct
  maxTargetLatencyMs : c.maxTargetLatencyMs = r.maxTargetLatencyMs
  minL2LiquidityUsd : ReadsAs platform r.minL2LiquidityUsd (0 < ·) c.minL2LiquidityUsd
  maxSlippageTolerance : ReadsAs platform r.maxSlippageTolerance IsPct c.maxSlippageTolerance
  exchanges : c.exchanges = allowlist r.exchanges

structure TriangularOf (r : RawTriangularConfig) (c : ValidatedTriangularConfig) : Prop where
  enabled : c.enabled = r.enabled
  minLoopProfitPct : ReadsAs platform r.minLoopProfitPct IsPct c.minLoopProfitPct
  maxPathLength : c.maxPathLength = r.maxPathLength ∧ 3 ≤ c.maxPathLength
  minPairVolume24h : ReadsAs platform r.minPairVolume24h (0 < ·) c.minPairVolume24h
  quoteAnchors : c.quoteAnchors = r.quoteAnchors ∧ c.quoteAnchors ≠ []
  exchanges : c.exchanges = allowlist r.exchanges

structure RiskOf (r : RawRiskLimits) (c : ValidatedRiskConfig) : Prop where
  minNetProfitPct : ReadsAs platform r.minNetProfitPct IsPositivePct c.minNetProfitPct
  maxEquityStalenessSeconds : c.maxEquityStalenessSeconds = r.maxEquityStalenessSeconds ∧
    0 < c.maxEquityStalenessSeconds
  absoluteHardLossCap : ReadsAs platform r.absoluteHardLossCap (0 < ·) c.absoluteHardLossCap
  pctHardLossCap : ReadsAs platform r.pctHardLossCap IsPositivePct c.pctHardLossCap
  maxDrawdownPct : ReadsAs platform r.maxDrawdownPct (fun d => 0 < d ∧ d < 1) c.maxDrawdownPct
  maxTotalExposurePct :
    ReadsAs platform r.maxTotalExposurePct IsPositivePct c.maxTotalExposurePct
  maxSinglePositionPct :
    ReadsAs platform r.maxSinglePositionPct IsPositivePct c.maxSinglePositionPct
  exchangeFailureThreshold : c.exchangeFailureThreshold = r.exchangeFailureThreshold ∧
    c.exchangeFailureThreshold ≠ 0
  exchangePauseDurationSeconds : c.exchangePauseDurationSeconds = r.exchangePauseDurationSeconds ∧
    0 < c.exchangePauseDurationSeconds
  stablecoinDepegThreshold :
    ReadsAs platform r.stablecoinDepegThreshold (0 < ·) c.stablecoinDepegThreshold
  dailyLossLimitUsd : ReadsAs platform r.dailyLossLimitUsd (0 < ·) c.dailyLossLimitUsd

/-- The exchanges, by their numbers. -/
structure ExchangesOf (raw : List (List Char × RawExchangeConfig))
    (exchanges : List (UInt16 × ValidatedExchangeConfig)) : Prop where
  entries : exchanges = raw.map fun entry => (entry.2.id, validatedExchange platform entry.2)
  nodup : (exchanges.map Prod.fst).Nodup

structure StablecoinOf (s : StablecoinConfig F) (c : ValidatedStablecoinConfig) : Prop where
  depegThreshold :
    ConvertsTo platform s.depegThreshold (fun d => 0 < d ∧ d < 1) c.depegThreshold
  usdtMaxPct : ConvertsTo platform s.usdtMaxPct IsPct c.usdtMaxPct
  usdcMinPct : ConvertsTo platform s.usdcMinPct IsPct c.usdcMinPct
  total : c.usdtMaxPct + c.usdcMinPct ≤ 1
  monitoredSymbols : c.monitoredSymbols = s.monitoredSymbols

structure FrictionOf (f : RawFrictionProtections) (c : ValidatedFrictionProtections) : Prop where
  transferGasFeeUsd : ReadsAs platform f.transferGasFeeUsd (0 < ·) c.transferGasFeeUsd
  feeAwareEnabled : c.feeAwareEnabled = f.feeAwareEnabled
  defaultTakerFeePct : ReadsAs platform f.defaultTakerFeePct IsPositivePct c.defaultTakerFeePct
  exchangeTakerFees : c.exchangeTakerFees = f.exchangeTakerFees ∧
    ∀ fee ∈ c.exchangeTakerFees, fee.2 ≠ 0

/-- A validated configuration holds what the file and the environment say, and all its values are in
their ranges. -/
structure ConfigOf (raw : RawConfig F) (cfg : EngineConfig) : Prop where
  forceLiveMode : cfg.forceLiveMode = raw.forceLiveMode
  vps : cfg.vps = raw.vpsSettings
  webhookUrl : cfg.discord.webhookUrl =
    (envOverride platform "DISCORD_WEBHOOK_URL".toList).getD raw.discord.webhookUrl
  bufferCapacity : cfg.discord.bufferCapacity = raw.discord.bufferCapacity
  crossExchange :
    CrossExchangeOf platform raw.strategies.crossExchange cfg.strategies.crossExchange
  triangular : TriangularOf platform raw.strategies.triangular cfg.strategies.triangular
  risk : RiskOf platform raw.riskLimits cfg.risk
  exchanges : ExchangesOf platform raw.exchanges cfg.exchanges
  count : 0 < cfg.exchanges.length ∧ cfg.exchanges.length ≤ 64
  stablecoin : StablecoinOf platform raw.stablecoin cfg.stablecoin
  frictionProtections :
    FrictionOf platform raw.frictionProtections cfg.frictionProtections
  depositAddresses : cfg.depositAddresses = raw.depositAddresses ∧
    ∀ entry ∈ cfg.depositAddresses, entry.2 = [] ∨ IsDepositAddress entry.2

end Rules

/-! ## One field -/

lemma infix_middle (front piece back rest : List Char) :
    piece <:+: front ++ piece ++ back ++ rest :=
  ⟨front, back ++ rest, (List.append_assoc ..).symm⟩

lemma infix_fieldMessage (field value rule : List Char) :
    field <:+: fieldMessage field value rule := by
  unfold fieldMessage
  rw [List.append_assoc]
  exact infix_middle _ field _ _

/-- A message that begins with a text that has a path in it. -/
lemma infix_append {path head : List Char} (h : path <:+: head) (rest : List Char) :
    path <:+: head ++ rest :=
  h.trans (List.prefix_append head rest).isInfix

section Fields

variable {F : Type} (platform : Platform F) (field : List Char)

lemma checks_validatePctRange (value : Decimal) :
    Checks [⟨field, IsPct value⟩] (fun _ => True) (validatePctRange platform value field) :=
  .rejectIf (by rw [IsPct, not_or, not_lt, not_lt]) (infix_fieldMessage ..)

lemma checks_validatePositive (value : Decimal) :
    Checks [⟨field, 0 < value⟩] (fun _ => True) (validatePositive platform value field) :=
  .rejectIf not_le.symm (infix_fieldMessage ..)

lemma checks_validateStrictlyPositivePct (value : Decimal) :
    Checks [⟨field, IsPositivePct value⟩] (fun _ => True)
      (validateStrictlyPositivePct platform value field) :=
  .rejectIf (by rw [IsPositivePct, not_or, not_le, not_lt]) (infix_fieldMessage ..)

lemma checks_validatePositiveI64 (value : ℤ) :
    Checks [⟨field, 0 < value⟩] (fun _ => True) (validatePositiveI64 value field) :=
  .rejectIf not_le.symm (infix_fieldMessage ..)

variable {platform field}

/-- A text that is read as a decimal, and what is done with it. -/
lemma checks_parse {α : Type} {s : List Char} {P : Decimal → Prop} {rules : List Rule}
    {post : α → Prop} {k : Decimal → Except (List Char) α}
    (hk : ∀ v, platform.fromStr s = .ok v → Checks (⟨field, P v⟩ :: rules) post (k v)) :
    Checks (⟨field, Reads platform s P⟩ :: rules) post (parseDecimal platform s field >>= k) := by
  unfold parseDecimal
  cases hread : platform.fromStr s with
  | ok v =>
    refine (hk v hread).head_congr ⟨fun hp => ⟨v, hread, hp⟩, ?_⟩
    rintro ⟨d, hd, hp⟩
    rw [hread] at hd
    exact Except.ok.inj hd ▸ hp
  | error e =>
    refine .error ?_ (infix_middle ..)
    rintro ⟨d, hd, -⟩
    rw [hread] at hd
    cases hd

/-- A float that becomes a decimal, and what is done with it; other fields may have been converted
before. -/
lemma checks_convert {α : Type} {val : F} {P : Decimal → Prop} (front : List Rule)
    {back : List Rule} {post : α → Prop} {k : Decimal → Except (List Char) α}
    (hk : ∀ v, platform.fromF64 val = some v →
      Checks (front ++ ⟨field, P v⟩ :: back) post (k v)) :
    Checks (front ++ ⟨field, Converts platform val P⟩ :: back) post
      (f64ToDecimal platform val field >>= k) := by
  refine Checks.perm ?_ List.perm_middle.symm
  unfold f64ToDecimal
  cases hconvert : platform.fromF64 val with
  | some v =>
    refine ((hk v hconvert).perm List.perm_middle).head_congr ⟨fun hp => ⟨v, hconvert, hp⟩, ?_⟩
    rintro ⟨d, hd, hp⟩
    rw [hconvert] at hd
    exact Option.some.inj hd ▸ hp
  | none =>
    refine .error ?_ (List.infix_append ..)
    rintro ⟨d, hd, -⟩
    rw [hconvert] at hd
    cases hd

end Fields

/-! ## The sections -/

section Sections

variable {F : Type} (platform : Platform F)

lemma checks_crossExchange (r : RawCrossExchangeConfig) :
    Checks (crossExchangeRules platform r) (CrossExchangeOf platform r)
      (validateCrossExchange platform r) := by
  refine checks_parse fun minSpreadPct hspread => ?_
  refine (checks_validateStrictlyPositivePct ..).andThen fun hspread' => ?_
  refine checks_parse fun minL2LiquidityUsd hliquidity => ?_
  refine (checks_validatePositive ..).andThen fun hliquidity' => ?_
  refine checks_parse fun maxSlippageTolerance hslippage => ?_
  refine (checks_validatePctRange ..).andThen fun hslippage' => .ok ?_
  exact ⟨rfl, ⟨hspread, hspread'⟩, rfl, ⟨hliquidity, hliquidity'⟩, ⟨hslippage, hslippage'⟩, rfl⟩

lemma checks_triangular (r : RawTriangularConfig) :
    Checks (triangularRules platform r) (TriangularOf platform r)
      (validateTriangular platform r) := by
  refine checks_parse fun minLoopProfitPct hprofit => ?_
  refine (checks_validatePctRange ..).andThen fun hprofit' => ?_
  refine checks_parse fun minPairVolume24h hvolume => ?_
  refine (checks_validatePositive ..).andThen fun hvolume' => ?_
  refine Checks.andThen (Checks.rejectIf ?_ ?_) fun hlength =>
    Checks.andThen (Checks.rejectIf ?_ ?_) fun hanchors => .ok ?_
  · exact UInt32.not_lt.symm
  · rw [List.append_assoc]
    exact infix_append (by decide) _
  · exact Iff.rfl
  · decide
  · exact ⟨rfl, ⟨hprofit, hprofit'⟩, ⟨rfl, hlength⟩, ⟨hvolume, hvolume'⟩, ⟨rfl, hanchors⟩, rfl⟩

lemma checks_risk (r : RawRiskLimits) :
    Checks (riskRules platform r) (RiskOf platform r) (validateRisk platform r) := by
  refine checks_parse fun minNetProfitPct hprofit => ?_
  refine (checks_validateStrictlyPositivePct ..).andThen fun hprofit' => ?_
  refine (checks_validatePositiveI64 ..).andThen fun hstaleness => ?_
  refine checks_parse fun absoluteHardLossCap habsolute => ?_
  refine (checks_validatePositive ..).andThen fun habsolute' => ?_
  refine checks_parse fun pctHardLossCap hpct => ?_
  refine (checks_validateStrictlyPositivePct ..).andThen fun hpct' => ?_
  refine checks_parse fun maxDrawdownPct hdrawdown => ?_
  -- the drawdown is checked twice, the second time against losing everything
  have hfraction : IsPositivePct maxDrawdownPct ∧ maxDrawdownPct < 1 ↔
      0 < maxDrawdownPct ∧ maxDrawdownPct < 1 :=
    ⟨fun h => ⟨h.1.1, h.2⟩, fun h => ⟨⟨h.1, h.2.le⟩, h.2⟩⟩
  refine Checks.head_congr (Checks.merge ?_) hfraction
  refine (checks_validateStrictlyPositivePct ..).andThen fun hdrawdown' => ?_
  refine Checks.andThen (Checks.rejectIf ?_ ?_) fun hdrawdown'' => ?_
  · exact not_le.symm
  · rw [List.append_assoc]
    exact infix_append (by decide) _
  refine checks_parse fun maxTotalExposurePct hexposure => ?_
  refine (checks_validateStrictlyPositivePct ..).andThen fun hexposure' => ?_
  refine checks_parse fun maxSinglePositionPct hposition => ?_
  refine (checks_validateStrictlyPositivePct ..).andThen fun hposition' => ?_
  refine Checks.andThen (Checks.rejectIf ?_ ?_) fun hthreshold => ?_
  · exact Iff.rfl
  · decide
  refine (checks_validatePositiveI64 ..).andThen fun hpause => ?_
  refine checks_parse fun stablecoinDepegThreshold hdepeg => ?_
  refine (checks_validatePositive ..).andThen fun hdepeg' => ?_
  refine checks_parse fun dailyLossLimitUsd hdaily => ?_
  refine (checks_validatePositive ..).andThen fun hdaily' => .ok ?_
  exact ⟨⟨hprofit, hprofit'⟩, ⟨rfl, hstaleness⟩, ⟨habsolute, habsolute'⟩, ⟨hpct, hpct'⟩,
    ⟨hdrawdown, hdrawdown'.1, hdrawdown''⟩, ⟨hexposure, hexposure'⟩, ⟨hposition, hposition'⟩,
    ⟨rfl, hthreshold⟩, ⟨rfl, hpause⟩, ⟨hdepeg, hdepeg'⟩, ⟨hdaily, hdaily'⟩⟩

lemma checks_exchangeCount (count : ℕ) :
    Checks (exchangeCountRules count) (fun _ => True) (validateExchangeCount count) := by
  refine Checks.andThen (Checks.rejectIf ?_ ?_) fun _ => Checks.rejectIf ?_ ?_
  · exact Nat.pos_iff_ne_zero
  · decide
  · exact not_lt.symm
  · exact infix_append (by decide) _

lemma checks_stablecoin (s : StablecoinConfig F) :
    Checks (stablecoinRules platform s) (StablecoinOf platform s)
      (validateStablecoin platform s) := by
  -- the floats are converted before the ranges are looked at
  refine checks_convert [] fun depegThreshold hdepeg => ?_
  refine checks_convert [_] fun usdtMaxPct husdt => ?_
  refine checks_convert [_, _] fun usdcMinPct husdc => ?_
  refine Checks.andThen (Checks.rejectIf ?_ ?_) fun hdepeg' => ?_
  · rw [not_or, not_le, not_le]
  · rw [List.append_assoc]
    exact infix_append (by decide) _
  refine Checks.andThen (Checks.rejectIf ?_ ?_) fun husdt' => ?_
  · rw [IsPct, not_or, not_lt, not_lt]
  · rw [List.append_assoc]
    exact infix_append (by decide) _
  refine Checks.andThen (Checks.rejectIf ?_ ?_) fun husdc' => ?_
  · rw [IsPct, not_or, not_lt, not_lt]
  · rw [List.append_assoc]
    exact infix_append (by decide) _
  refine Checks.andThen (Checks.rejectIf ?_ ?_) fun htotal => .ok ?_
  · rw [not_lt]
    constructor
    · exact fun h => h usdtMaxPct usdcMinPct husdt husdc
    · intro h d d' hd hd'
      rw [husdt] at hd
      rw [husdc] at hd'
      rwa [← Option.some.inj hd, ← Option.some.inj hd']
  · decide
  · exact ⟨⟨hdepeg, hdepeg'⟩, ⟨husdt, husdt'⟩, ⟨husdc, husdc'⟩, htotal _ _ husdt husdc, rfl⟩

lemma checks_takerFee (fee : List Char × UInt64) :
    Checks [⟨"friction_protections.exchange_taker_fees.".toList ++ fee.1, fee.2 ≠ 0⟩]
      (fun _ => True) (validateTakerFee fee) :=
  Checks.rejectIf Iff.rfl (List.prefix_append _ _).isInfix

lemma checks_friction (f : RawFrictionProtections) :
    Checks (frictionRules platform f) (FrictionOf platform f) (validateFriction platform f) := by
  refine checks_parse fun transferGasFeeUsd hgas => ?_
  refine (checks_validatePositive ..).andThen fun hgas' => ?_
  refine checks_parse fun defaultTakerFeePct htaker => ?_
  refine Checks.andThen (Checks.rejectIf ?_ ?_) fun htaker' => ?_
  · rw [IsPositivePct, not_or, not_le, not_lt]
  · rw [List.append_assoc]
    exact infix_append (by decide) _
  · rw [← List.append_nil (List.map ..)]
    refine (Checks.forM checks_takerFee f.exchangeTakerFees).bind fun _ _ hfees => .ok ?_
    exact ⟨⟨hgas, hgas'⟩, rfl, ⟨htaker, htaker'⟩, rfl, fun fee hfee =>
      hfees _ (List.mem_map_of_mem hfee)⟩

/-- A hexadecimal digit has one byte. -/
lemma val_le_of_isAsciiHexdigit {c : Char} (h : isAsciiHexdigit c = true) : c.val ≤ 127 := by
  have hle : c ≤ 'f' := by
    rcases of_decide_eq_true h with ⟨-, hc⟩ | ⟨-, hc⟩ | ⟨-, hc⟩
    · exact Char.le_trans hc (by decide)
    · exact hc
    · exact Char.le_trans hc (by decide)
  exact UInt32.le_trans (Char.le_def.mp hle) (by decide)

/-- What the checks of an address that is not empty come to. -/
lemma isDepositAddress_iff {addr : List Char} :
    IsDepositAddress addr ↔ "0x".toList.isPrefixOf addr = true ∧ minDepositAddrLen ≤ byteLen addr ∧
      (addr.drop 2).all (fun c => decide (c = '0')) = false ∧
      (addr.drop 2).all isAsciiHexdigit = true ∧ byteLen addr ≤ maxDepositAddrLen := by
  constructor
  · rintro ⟨digits, rfl, hhex, ⟨c, hc, hne⟩, hmin, hmax⟩
    have hlen : byteLen ('0' :: 'x' :: digits) = digits.length + 2 := by
      rw [byteLen_cons, byteLen_cons,
        byteLen_eq_length fun c hc => val_le_of_isAsciiHexdigit (hhex c hc)]
      have hzero : Char.utf8Size '0' = 1 := rfl
      have hx : Char.utf8Size 'x' = 1 := rfl
      omega
    rw [hlen, minDepositAddrLen, maxDepositAddrLen]
    refine ⟨rfl, by omega, ?_, List.all_eq_true.mpr hhex, by omega⟩
    rw [List.all_eq_false]
    exact ⟨c, hc, by simpa using hne⟩
  · rintro ⟨hbegins, hmin, hzeros, hhex, hmax⟩
    obtain ⟨digits, rfl⟩ := List.isPrefixOf_iff_prefix.mp hbegins
    have hdrop : ("0x".toList ++ digits).drop 2 = digits := rfl
    rw [hdrop] at hzeros hhex
    have hhex' := List.all_eq_true.mp hhex
    have hlen : byteLen ("0x".toList ++ digits) = digits.length + 2 := by
      rw [byteLen_append, byteLen_eq_length fun c hc => val_le_of_isAsciiHexdigit (hhex' c hc),
        add_comm]
      rfl
    rw [hlen, minDepositAddrLen] at hmin
    rw [hlen, maxDepositAddrLen] at hmax
    obtain ⟨c, hc, hne⟩ := List.all_eq_false.mp hzeros
    exact ⟨digits, rfl, hhex', ⟨c, hc, by simpa using hne⟩, by omega, by omega⟩

lemma checks_depositAddress (entry : List Char × List Char) :
    Checks [⟨depositPath entry.1, entry.2 = [] ∨ IsDepositAddress entry.2⟩] (fun _ => True)
      (validateDepositAddress entry) := by
  unfold validateDepositAddress
  dsimp only
  split_ifs with hempty hform hzeros hhex hlong
  · exact (Checks.ok trivial).cons_of_holds (Or.inl hempty)
  · refine .error ?_ ?_
    · rintro (h | h)
      · exact hempty h
      · obtain ⟨hbegins, hmin, -⟩ := isDepositAddress_iff.mp h
        exact hform.elim (fun hnot => hnot hbegins) (not_lt.mpr hmin)
    · rw [List.append_assoc, List.append_assoc]
      exact (List.prefix_append _ _).isInfix
  · refine .error ?_ (List.prefix_append _ _).isInfix
    rintro (h | h)
    · exact hempty h
    · rw [(isDepositAddress_iff.mp h).2.2.1] at hzeros
      cases hzeros
  · refine .error ?_ ?_
    · rintro (h | h)
      · exact hempty h
      · exact not_lt.mpr (isDepositAddress_iff.mp h).2.2.2.2 hlong
    · rw [List.append_assoc, List.append_assoc]
      exact (List.prefix_append _ _).isInfix
  · rw [not_or, not_not, not_lt] at hform
    have haddress : IsDepositAddress entry.2 := isDepositAddress_iff.mpr
      ⟨hform.1, hform.2, Bool.eq_false_of_not_eq_true hzeros, hhex, not_lt.mp hlong⟩
    exact (Checks.ok trivial).cons_of_holds (Or.inr haddress)
  · refine .error ?_ ?_
    · rintro (h | h)
      · exact hempty h
      · exact hhex (isDepositAddress_iff.mp h).2.2.2.1
    · rw [List.append_assoc, List.append_assoc]
      exact (List.prefix_append _ _).isInfix

/-- The number of an exchange with its configuration. -/
def entryOf (entry : List Char × RawExchangeConfig) : UInt16 × ValidatedExchangeConfig :=
  (entry.2.id, validatedExchange platform entry.2)

/-- The loop over the sections of the exchanges, after some of them. -/
lemma validateExchanges_spec (done : List (List Char × RawExchangeConfig))
    (hdone : (done.map fun entry => entry.2.id).Nodup)
    (rest : List (List Char × RawExchangeConfig)) :
    (∀ exchanges, validateExchanges platform rest (done.map (entryOf platform)) = .ok exchanges →
      exchanges = (done ++ rest).map (entryOf platform) ∧
        ((done ++ rest).map fun entry => entry.2.id).Nodup ∧
        ∀ entry ∈ rest, entry.1 ≠ [] ∧ entry.2.name = entry.1) ∧
    ∀ msg, validateExchanges platform rest (done.map (entryOf platform)) = .error msg →
      ∃ entry ∈ rest, ¬ (entry.1 ≠ [] ∧ entry.2.name = entry.1 ∧
        ((done ++ rest).map fun other => other.2.id).count entry.2.id = 1) ∧
        entry.1 <:+: msg := by
  induction rest generalizing done with
  | nil =>
    refine ⟨fun exchanges h => ?_, fun msg h => by cases h⟩
    rw [List.append_nil]
    exact ⟨(Except.ok.inj h).symm, hdone, fun _ hmem => absurd hmem List.not_mem_nil⟩
  | cons entry rest ih =>
    obtain ⟨sectionName, raw⟩ := entry
    rw [validateExchanges]
    split_ifs with hsection hname hid hsame
    · refine ⟨fun _ h => (by cases h), fun msg h => ⟨_, List.mem_cons_self, ?_, ?_⟩⟩
      · exact fun hrule => hrule.1 hsection
      · rw [hsection]
        exact List.nil_infix
    · refine ⟨fun _ h => (by cases h), fun msg h => ⟨_, List.mem_cons_self, ?_, ?_⟩⟩
      · exact fun hrule => hsection (hrule.2.1.symm.trans hname)
      · cases h
        exact List.infix_append ..
    · refine ⟨fun _ h => (by cases h), fun msg h => ⟨_, List.mem_cons_self, ?_, ?_⟩⟩
      · -- the number is that of an earlier section, so it is there twice
        rintro ⟨-, -, hcount⟩
        have hearlier : raw.id ∈ done.map fun entry => entry.2.id := by
          simpa [entryOf, Function.comp_def] using hid
        have hpos := List.count_pos_iff.mpr hearlier
        rw [List.map_append, List.map_cons, List.count_append, List.count_cons_self] at hcount
        dsimp only at hcount
        omega
      · cases h
        exact List.infix_append ..
    · refine ⟨fun _ h => (by cases h), fun msg h => ⟨_, List.mem_cons_self, ?_, ?_⟩⟩
      · exact fun hrule => hsame hrule.2.1
      · cases h
        rw [List.append_assoc]
        exact infix_middle ..
    · have hkeys : (done.map (entryOf platform)).map Prod.fst = done.map fun entry => entry.2.id :=
        List.map_map ..
      have hnext : ((done ++ [(sectionName, raw)]).map fun entry => entry.2.id).Nodup := by
        rw [List.map_append, List.nodup_append]
        refine ⟨hdone, List.nodup_singleton _, fun id hmem id' hmem' => ?_⟩
        rw [List.mem_singleton.mp hmem']
        rintro rfl
        exact hid (hkeys ▸ hmem)
      have hentries : AssocMap.upsert raw.id (fun _ => validatedExchange platform raw)
          (done.map (entryOf platform)) =
          (done ++ [(sectionName, raw)]).map (entryOf platform) := by
        rw [AssocMap.upsert_of_notMem _ hid, List.map_append]
        rfl
      obtain ⟨hok, herror⟩ := ih _ hnext
      rw [hentries]
      rw [List.append_assoc, List.singleton_append] at hok herror
      refine ⟨fun exchanges h => ?_, fun msg h => ?_⟩
      · obtain ⟨hmap, hnodup, hrules⟩ := hok exchanges h
        exact ⟨hmap, hnodup, List.forall_mem_cons.mpr ⟨⟨hsection, not_not.mp hsame⟩, hrules⟩⟩
      · obtain ⟨entry, hentry, hbad⟩ := herror msg h
        exact ⟨entry, List.mem_cons_of_mem _ hentry, hbad⟩

lemma checks_exchanges (raw : List (List Char × RawExchangeConfig)) :
    Checks (exchangeRules raw) (ExchangesOf platform raw) (validateExchanges platform raw []) := by
  obtain ⟨hok, herror⟩ := validateExchanges_spec platform [] List.nodup_nil raw
  refine ⟨fun exchanges h => ?_, fun msg h => ?_⟩
  · obtain ⟨hmap, hnodup, hrules⟩ := hok exchanges h
    have hkeys : exchanges.map Prod.fst = raw.map fun entry => entry.2.id := by
      rw [hmap]
      exact List.map_map ..
    refine ⟨⟨hmap, hkeys ▸ hnodup⟩, fun rule hrule => ?_⟩
    obtain ⟨entry, hentry, rfl⟩ := List.mem_map.mp hrule
    obtain ⟨hsection, hname⟩ := hrules entry hentry
    exact ⟨hsection, hname, List.count_eq_one_of_mem hnodup (List.mem_map_of_mem hentry)⟩
  · obtain ⟨entry, hentry, hbad, hpath⟩ := herror msg h
    exact ⟨_, List.mem_map_of_mem hentry, hbad, hpath⟩

/-- The validation is a checker of the rules, and what it accepts holds what it should. -/
lemma checks_loadAndValidate (raw : RawConfig F) :
    Checks (rules platform raw) (ConfigOf platform raw) (loadAndValidate platform raw) := by
  unfold rules loadAndValidate
  simp only [List.append_assoc]
  refine (checks_crossExchange ..).bind fun crossExchange hcross _ => ?_
  refine (checks_triangular ..).bind fun triangular htriangular _ => ?_
  refine (checks_risk ..).bind fun risk hrisk _ => ?_
  refine (checks_exchanges ..).bind fun exchanges hexchanges _ => ?_
  have hlength : exchanges.length = raw.exchanges.length := by
    rw [hexchanges.entries, List.length_map]
  rw [← hlength]
  refine (checks_exchangeCount ..).bind fun _ _ hcount => ?_
  refine (checks_stablecoin ..).bind fun stablecoin hstablecoin _ => ?_
  refine (checks_friction ..).bind fun friction hfriction _ => ?_
  rw [← List.append_nil (depositRules ..)]
  refine (Checks.forM checks_depositAddress raw.depositAddresses).bind fun _ _ hdeposit => .ok ?_
  exact ⟨rfl, rfl, rfl, rfl, hcross, htriangular, hrisk, hexchanges,
    ⟨hcount _ List.mem_cons_self, hcount _ (List.mem_cons_of_mem _ List.mem_cons_self)⟩,
    hstablecoin, hfriction, rfl, fun entry hentry => hdeposit _ (List.mem_map_of_mem hentry)⟩

/-- The validation accepts a configuration exactly when all its rules hold.  What it accepts holds
what the file and the environment say, with every value in its range; and when it stops, its message
names the path of a rule that does not hold. -/
theorem loadAndValidate_spec (raw : RawConfig F) :
    ((∃ cfg, loadAndValidate platform raw = .ok cfg) ↔
      ∀ rule ∈ rules platform raw, rule.holds) ∧
    (∀ cfg, loadAndValidate platform raw = .ok cfg → ConfigOf platform raw cfg) ∧
    ∀ msg, loadAndValidate platform raw = .error msg →
      ∃ rule ∈ rules platform raw, ¬ rule.holds ∧ rule.path <:+: msg := by
  have hchecks := checks_loadAndValidate platform raw
  exact ⟨hchecks.exists_ok_iff, fun cfg h => (hchecks.sound cfg h).1, hchecks.blames⟩

end Sections

/-! ## The order of the maps -/

section Order

variable {F : Type} {platform : Platform F}

lemma ReadsAs.unique {s : List Char} {P : Decimal → Prop} {d d' : Decimal}
    (h : ReadsAs platform s P d) (h' : ReadsAs platform s P d') : d = d' :=
  Except.ok.inj (h.1.symm.trans h'.1)

lemma ConvertsTo.unique {val : F} {P : Decimal → Prop} {d d' : Decimal}
    (h : ConvertsTo platform val P d) (h' : ConvertsTo platform val P d') : d = d' :=
  Option.some.inj (h.1.symm.trans h'.1)

lemma CrossExchangeOf.unique {r : RawCrossExchangeConfig} {c c' : ValidatedCrossExchangeConfig}
    (h : CrossExchangeOf platform r c) (h' : CrossExchangeOf platform r c') : c = c' := by
  obtain ⟨enabled, spread, latency, liquidity, slippage, exchanges⟩ := c
  obtain ⟨rfl, hspread, rfl, hliquidity, hslippage, rfl⟩ := h
  obtain ⟨enabled', spread', latency', liquidity', slippage', exchanges'⟩ := c'
  obtain ⟨rfl, hspread', rfl, hliquidity', hslippage', rfl⟩ := h'
  obtain rfl := hspread.unique hspread'
  obtain rfl := hliquidity.unique hliquidity'
  obtain rfl := hslippage.unique hslippage'
  rfl

lemma TriangularOf.unique {r : RawTriangularConfig} {c c' : ValidatedTriangularConfig}
    (h : TriangularOf platform r c) (h' : TriangularOf platform r c') : c = c' := by
  obtain ⟨enabled, profit, length, volume, anchors, exchanges⟩ := c
  obtain ⟨rfl, hprofit, ⟨rfl, -⟩, hvolume, ⟨rfl, -⟩, rfl⟩ := h
  obtain ⟨enabled', profit', length', volume', anchors', exchanges'⟩ := c'
  obtain ⟨rfl, hprofit', ⟨rfl, -⟩, hvolume', ⟨rfl, -⟩, rfl⟩ := h'
  obtain rfl := hprofit.unique hprofit'
  obtain rfl := hvolume.unique hvolume'
  rfl

lemma RiskOf.unique {r : RawRiskLimits} {c c' : ValidatedRiskConfig} (h : RiskOf platform r c)
    (h' : RiskOf platform r c') : c = c' := by
  obtain ⟨profit, staleness, absolute, pct, drawdown, exposure, position, threshold, pause, depeg,
    daily⟩ := c
  obtain ⟨hprofit, ⟨rfl, -⟩, habsolute, hpct, hdrawdown, hexposure, hposition, ⟨rfl, -⟩, ⟨rfl, -⟩,
    hdepeg, hdaily⟩ := h
  obtain ⟨profit', staleness', absolute', pct', drawdown', exposure', position', threshold', pause',
    depeg', daily'⟩ := c'
  obtain ⟨hprofit', ⟨rfl, -⟩, habsolute', hpct', hdrawdown', hexposure', hposition', ⟨rfl, -⟩,
    ⟨rfl, -⟩, hdepeg', hdaily'⟩ := h'
  obtain rfl := hprofit.unique hprofit'
  obtain rfl := habsolute.unique habsolute'
  obtain rfl := hpct.unique hpct'
  obtain rfl := hdrawdown.unique hdrawdown'
  obtain rfl := hexposure.unique hexposure'
  obtain rfl := hposition.unique hposition'
  obtain rfl := hdepeg.unique hdepeg'
  obtain rfl := hdaily.unique hdaily'
  rfl

lemma StablecoinOf.unique {s : StablecoinConfig F} {c c' : ValidatedStablecoinConfig}
    (h : StablecoinOf platform s c) (h' : StablecoinOf platform s c') : c = c' := by
  obtain ⟨depeg, usdt, usdc, symbols⟩ := c
  obtain ⟨hdepeg, husdt, husdc, -, rfl⟩ := h
  obtain ⟨depeg', usdt', usdc', symbols'⟩ := c'
  obtain ⟨hdepeg', husdt', husdc', -, rfl⟩ := h'
  obtain rfl := hdepeg.unique hdepeg'
  obtain rfl := husdt.unique husdt'
  obtain rfl := husdc.unique husdc'
  rfl

/-- Two files that differ in the order in which their maps are walked. -/
structure RawConfig.Reordered (raw raw' : RawConfig F) : Prop where
  rest : raw' = { raw with
    exchanges := raw'.exchanges
    frictionProtections := { raw.frictionProtections with
      exchangeTakerFees := raw'.frictionProtections.exchangeTakerFees }
    depositAddresses := raw'.depositAddresses }
  exchanges : raw.exchanges.Perm raw'.exchanges
  takerFees : raw.frictionProtections.exchangeTakerFees.Perm
    raw'.frictionProtections.exchangeTakerFees
  depositAddresses : raw.depositAddresses.Perm raw'.depositAddresses

/-- Two configurations that differ in the order of their maps. -/
structure EngineConfig.Reordered (cfg cfg' : EngineConfig) : Prop where
  rest : cfg' = { cfg with
    exchanges := cfg'.exchanges
    frictionProtections := { cfg.frictionProtections with
      exchangeTakerFees := cfg'.frictionProtections.exchangeTakerFees }
    depositAddresses := cfg'.depositAddresses }
  exchanges : cfg.exchanges.Perm cfg'.exchanges
  takerFees : cfg.frictionProtections.exchangeTakerFees.Perm
    cfg'.frictionProtections.exchangeTakerFees
  depositAddresses : cfg.depositAddresses.Perm cfg'.depositAddresses

lemma perm_exchangeRules {exchanges exchanges' : List (List Char × RawExchangeConfig)}
    (h : exchanges.Perm exchanges') :
    (exchangeRules exchanges).Perm (exchangeRules exchanges') := by
  unfold exchangeRules
  have hcount : ∀ id, (exchanges.map fun other => other.2.id).count id =
      (exchanges'.map fun other => other.2.id).count id := fun id => (h.map _).count_eq id
  simp only [hcount]
  exact h.map _

/-- The rules do not depend on the order of the maps. -/
lemma perm_rules {raw raw' : RawConfig F} (h : raw.Reordered raw') :
    (rules platform raw).Perm (rules platform raw') := by
  rw [h.rest]
  have hlength := h.exchanges.length_eq
  unfold rules
  dsimp only
  rw [hlength]
  refine List.Perm.append (List.Perm.append (List.Perm.append (List.Perm.append_right _
    (List.Perm.append_left _ ?_)) (List.Perm.refl _)) ?_) ?_
  · exact perm_exchangeRules h.exchanges
  · exact ((h.takerFees.map _).cons _).cons _
  · exact h.depositAddresses.map _

lemma FrictionOf.unique {f f' : RawFrictionProtections} {c c' : ValidatedFrictionProtections}
    (h : FrictionOf platform f c) (h' : FrictionOf platform f' c')
    (hrest : f' = { f with exchangeTakerFees := f'.exchangeTakerFees }) :
    c' = { c with exchangeTakerFees := c'.exchangeTakerFees } := by
  obtain ⟨gas, aware, taker, fees⟩ := c
  obtain ⟨hgas, rfl, htaker, -⟩ := h
  obtain ⟨gas', aware', taker', fees'⟩ := c'
  rw [hrest] at h'
  obtain ⟨hgas', rfl, htaker', -⟩ := h'
  obtain rfl := hgas.unique hgas'
  obtain rfl := htaker.unique htaker'
  rfl

/-- What two orders of the maps lead to. -/
lemma ConfigOf.reordered {raw raw' : RawConfig F} {cfg cfg' : EngineConfig}
    (h : ConfigOf platform raw cfg) (h' : ConfigOf platform raw' cfg')
    (hraw : raw.Reordered raw') : cfg.Reordered cfg' := by
  refine ⟨?_, ?_, ?_, ?_⟩
  · have hfriction := h.frictionProtections.unique h'.frictionProtections (by rw [hraw.rest])
    rw [hraw.rest] at h'
    have hcross := h.crossExchange.unique h'.crossExchange
    have htriangular := h.triangular.unique h'.triangular
    have hrisk := h.risk.unique h'.risk
    have hstablecoin := h.stablecoin.unique h'.stablecoin
    have hlive := h.forceLiveMode.trans h'.forceLiveMode.symm
    have hvps := h.vps.trans h'.vps.symm
    have hurl := h.webhookUrl.trans h'.webhookUrl.symm
    have hcapacity := h.bufferCapacity.trans h'.bufferCapacity.symm
    obtain ⟨live, vps, ⟨url, bufferCapacity⟩, ⟨cross, triangular⟩, risk, _, stablecoin, _, _⟩ := cfg
    obtain ⟨live', vps', ⟨url', bufferCapacity'⟩, ⟨cross', triangular'⟩, risk', _, stablecoin', _,
      _⟩ := cfg'
    obtain rfl : cross = cross' := hcross
    obtain rfl : triangular = triangular' := htriangular
    obtain rfl : risk = risk' := hrisk
    obtain rfl : stablecoin = stablecoin' := hstablecoin
    obtain rfl : live = live' := hlive
    obtain rfl : vps = vps' := hvps
    obtain rfl : url = url' := hurl
    obtain rfl : bufferCapacity = bufferCapacity' := hcapacity
    rw [EngineConfig.mk.injEq]
    exact ⟨rfl, rfl, rfl, rfl, rfl, rfl, rfl, hfriction, rfl⟩
  · rw [h.exchanges.entries, h'.exchanges.entries]
    exact hraw.exchanges.map _
  · rw [h.frictionProtections.exchangeTakerFees.1, h'.frictionProtections.exchangeTakerFees.1]
    exact hraw.takerFees
  · rw [h.depositAddresses.1, h'.depositAddresses.1]
    exact hraw.depositAddresses

/-- Whether a file is accepted does not depend on the order in which its maps are walked, and what
comes of it depends on the order in its maps only. -/
theorem loadAndValidate_reordered {raw raw' : RawConfig F} (h : raw.Reordered raw')
    {cfg : EngineConfig} (hcfg : loadAndValidate platform raw = .ok cfg) :
    ∃ cfg', loadAndValidate platform raw' = .ok cfg' ∧ cfg.Reordered cfg' := by
  obtain ⟨hof, hrules⟩ := (checks_loadAndValidate platform raw).sound cfg hcfg
  obtain ⟨cfg', hcfg'⟩ := (checks_loadAndValidate platform raw').exists_ok_iff.mpr
    fun rule hrule => hrules rule ((perm_rules h).mem_iff.mpr hrule)
  have hof' := ((checks_loadAndValidate platform raw').sound cfg' hcfg').1
  exact ⟨cfg', hcfg', hof.reordered hof' h⟩

/-! ### A file with two exchanges -/

/-- The texts of the file, as decimals. -/
def readFile (s : List Char) : Except (List Char) Decimal :=
  if s = "0.001".toList then .ok (1 / 1000)
  else if s = "0.0005".toList then .ok (1 / 2000)
  else if s = "10000.0".toList then .ok 10000
  else if s = "0.05".toList then .ok (1 / 20)
  else if s = "2.00".toList then .ok 2
  else .error "Invalid decimal: unknown character".toList

/-- A platform for the file; its floats are the decimals that they become. -/
def filePlatform : Platform Decimal where
  fromStr := readFile
  fromF64 := some
  display _ := []
  displayF64 _ := []
  isAlphanumeric := Char.isAlphanum
  toUppercase c := [c.toUpper]
  var _ := none

def binance : List Char × RawExchangeConfig :=
  ("binance".toList, ⟨0, "binance".toList, [], [], none, [], []⟩)

def bybit : List Char × RawExchangeConfig :=
  ("bybit".toList, ⟨1, "bybit".toList, [], [], none, [], []⟩)

/-- The file, with its exchanges in some order. -/
def file (exchanges : List (List Char × RawExchangeConfig)) : RawConfig Decimal where
  forceLiveMode := false
  vpsSettings := ⟨2, 4096⟩
  discord := ⟨[], 128⟩
  strategies := {
    crossExchange := ⟨true, "0.001".toList, 50, "10000.0".toList, "0.0005".toList, none⟩
    triangular := ⟨true, "0.0005".toList, 4, "10000.0".toList, ["USDT".toList], none⟩ }
  exchanges := exchanges
  riskLimits := ⟨"0.001".toList, 60, "10000.0".toList, "0.05".toList, "0.05".toList, "0.05".toList,
    "0.05".toList, 5, 300, "0.05".toList, "10000.0".toList⟩
  stablecoin := ⟨998 / 1000, 4 / 5, 1 / 5, []⟩
  frictionProtections := ⟨"2.00".toList, true, "0.001".toList, []⟩
  depositAddresses := [("binance_erc20".toList, "0x00000000ab".toList)]

theorem loadAndValidate_reordered_file :
    ∃ cfg cfg', loadAndValidate filePlatform (file [binance, bybit]) = .ok cfg ∧
      loadAndValidate filePlatform (file [bybit, binance]) = .ok cfg' ∧ cfg.Reordered cfg' := by
  have hsome : (loadAndValidate filePlatform (file [binance, bybit])).toOption.isSome = true := by
    decide +kernel
  cases hcfg : loadAndValidate filePlatform (file [binance, bybit]) with
  | error msg =>
    rw [hcfg] at hsome
    cases hsome
  | ok cfg =>
    have hfile : (file [binance, bybit]).Reordered (file [bybit, binance]) :=
      ⟨rfl, List.Perm.swap .., List.Perm.refl _, List.Perm.refl _⟩
    obtain ⟨cfg', hcfg', hsame⟩ := loadAndValidate_reordered hfile hcfg
    exact ⟨cfg, cfg', rfl, hcfg', hsame⟩

end Order

end Configs

end HftArb
