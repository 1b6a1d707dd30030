import HftArb.Protections.Gate
import HftArb.Strategies.MarketArena
import HftArb.Execution.Orders
import HftArb.Execution.LiveOrderTracker

/-!
# The execution engine

`HighFrequencyExecutionEngine` is the state shared by the blasts: the risk manager, the switches
read before a blast, the daily counters, the order tracker and the event counters.  The operations
of this module are the small ones every blast is made of.

What the engine does to the outside is a list of `Event`s in the order in which they happen.  A
dispatched order carries the `GateStatus` of the moment it is handed to the pipeline.
-/

namespace HftArb

open Saturating

/-! ## Events -/

/-- The way an order takes to a pipeline. -/
inductive Route where
  | arbitrage
  | triangular
  | crossExchange (buyExchange sellExchange tokenId : UInt16)
  deriving DecidableEq

/-- The switches that should stop new orders, as they stand at one moment. -/
structure GateStatus where
  frozen : Bool
  killSwitch : Bool
  depegActive : Bool
  volatilityCircuit : Bool
  dailyLossReached : Bool
  deriving DecidableEq

/-- No switch is on. -/
def GateStatus.clear : GateStatus := ⟨false, false, false, false, false⟩

/-- A request to move capital between two exchanges. -/
structure RebalanceRequest where
  fromExchangeId : UInt16
  toExchangeId : UInt16
  tokenId : UInt16
  amount : Decimal
  tokenSymbol : String
  deriving DecidableEq

/-- What the engine and the signal loop do to the outside. -/
inductive Event where
  /-- The risk gate accepted a leg on this exchange. -/
  | gateAccepted (exchangeId : UInt16)
  /-- An order was handed to a pipeline. -/
  | dispatched (route : Route) (intent : OrderIntent) (status : GateStatus)
  /-- A rollback order was handed to a pipeline. -/
  | counterOrder (intent : OrderIntent)
  /-- A result was booked with `record_daily_pnl`. -/
  | dailyPnl (cents : ℤ)
  /-- The cancellation of all tracked orders was spawned. -/
  | cancelSweep
  /-- A settlement request was sent to the rebalancer. -/
  | rebalance (request : RebalanceRequest)
  deriving DecidableEq

/-! ## The engine -/

/-- The state of the execution engine. -/
structure HighFrequencyExecutionEngine where
  riskManager : RiskManager
  isPaperMode : Bool
  rollbackCount : UInt64
  maxSlippageBps : UInt64
  slippageRejectCount : UInt64
  slippageToleranceFp : UInt64
  orderTracker : LiveOrderTracker
  /-- A blast in flight holds the execution mutex. -/
  executionLocked : Bool
  volatilityCircuit : Bool
  dailyLossCents : UInt64
  dailyProfitCents : UInt64
  /-- The day of the year of the last reset of the daily counters. -/
  dailyResetDay : UInt32
  dailyLossLimitCents : UInt64
  feeScheduleBps : Option ExchangeFeeSchedule

namespace HighFrequencyExecutionEngine

/-- A fresh engine around a risk manager. -/
def new (toUppercase : String → String) (riskManager : RiskManager) (isPaperMode : Bool) :
    HighFrequencyExecutionEngine where
  riskManager := riskManager
  isPaperMode := isPaperMode
  rollbackCount := 0
  maxSlippageBps := 5
  slippageRejectCount := 0
  slippageToleranceFp := 500
  orderTracker := LiveOrderTracker.new toUppercase 300
  executionLocked := false
  volatilityCircuit := false
  dailyLossCents := 0
  dailyProfitCents := 0
  dailyResetDay := 0
  dailyLossLimitCents := 10000
  feeScheduleBps := none

/-- The engine of the tests: fresh, in live mode. -/
def test : HighFrequencyExecutionEngine :=
  new String.toUpper (RiskManager.new testRiskConfig 0) false

/-! ## Daily counters -/

/-- Reset the daily counters on the first call of a day. -/
def checkDailyReset (e : HighFrequencyExecutionEngine) (today : UInt32) :
    HighFrequencyExecutionEngine :=
  if today ≠ e.dailyResetDay then
    { e with dailyResetDay := today, dailyLossCents := 0, dailyProfitCents := 0 }
  else e

/-- The daily loss limit, after a reset that is due. -/
def checkDailyLossLimit (e : HighFrequencyExecutionEngine) (today : UInt32) :
    Except String Unit × HighFrequencyExecutionEngine :=
  let e' := e.checkDailyReset today
  if e.dailyLossLimitCents ≤ e'.dailyLossCents then
    (.error ("daily loss limit reached: " ++ toString e'.dailyLossCents ++ " cents >= "
      ++ toString e.dailyLossLimitCents ++ " cents — trading halted until midnight UTC"), e')
  else (.ok (), e')

/-- The losses of the day have reached the limit. -/
def dailyLossReached (e : HighFrequencyExecutionEngine) (today : UInt32) : Bool :=
  e.dailyLossLimitCents ≤ (e.checkDailyReset today).dailyLossCents

/-- Book a result of `profitCents`; the counters wrap. -/
def recordDailyPnl (e : HighFrequencyExecutionEngine) (profitCents : ℤ) :
    HighFrequencyExecutionEngine :=
  if 0 ≤ profitCents then
    { e with dailyProfitCents :=
        e.dailyProfitCents + UInt64.ofNat (min profitCents.natAbs maxWord.toNat) }
  else
    { e with dailyLossCents :=
        e.dailyLossCents + UInt64.ofNat (min profitCents.natAbs maxWord.toNat) }

/-- The gate status of this moment; the depeg monitor is read outside the engine. -/
def gateStatus (e : HighFrequencyExecutionEngine) (today : UInt32) (depegActive : Bool) :
    GateStatus where
  frozen := e.riskManager.frozen
  killSwitch := e.riskManager.killSwitch
  depegActive := depegActive
  volatilityCircuit := e.volatilityCircuit
  dailyLossReached := e.dailyLossReached today

/-! ## Order tracking, outcomes and slippage -/

/-- Track a submitted order in live mode. -/
def trackLiveOrder (e : HighFrequencyExecutionEngine) (clk : TrackClock) (result : OrderResult)
    (intent : OrderIntent) : HighFrequencyExecutionEngine :=
  if e.isPaperMode then e
  else
    match result.orderId with
    | some orderId =>
      { e with orderTracker :=
          e.orderTracker.track clk orderId intent.exchangeId intent.symbol intent.isBuy }
    | none => e

/-- Forget an order that needs no cancellation. -/
def untrackLiveOrder (e : HighFrequencyExecutionEngine) (result : OrderResult) :
    HighFrequencyExecutionEngine :=
  match result.orderId with
  | some orderId => { e with orderTracker := e.orderTracker.remove orderId }
  | none => e

/-- Report the outcome of a leg to the health tracker. -/
def recordLegOutcome (e : HighFrequencyExecutionEngine) (now : ℤ) (exchangeId : UInt16)
    (result : OrderResult) : HighFrequencyExecutionEngine :=
  if result.success then { e with riskManager := e.riskManager.recordExchangeSuccess exchangeId }
  else { e with riskManager := e.riskManager.recordExchangeFailure now exchangeId }

/-- Count a fill whose price was worse than allowed. -/
def verifyLegSlippage (e : HighFrequencyExecutionEngine) (intent : OrderIntent)
    (result : OrderResult) : HighFrequencyExecutionEngine :=
  if result.success = false ∨ result.avgPrice ≤ 0 then e
  else
    match checkSlippage intent.price result.avgPrice intent.isBuy e.maxSlippageBps with
    | .ok _ => e
    | .error _ => { e with slippageRejectCount := e.slippageRejectCount + 1 }

/-- Count a rollback event. -/
def countRollback (e : HighFrequencyExecutionEngine) : HighFrequencyExecutionEngine :=
  { e with rollbackCount := e.rollbackCount + 1 }

/-! ## What bookkeeping can change -/

/-- Two engines that differ at most in the exchange health, the event counters and the tracked
orders. -/
def SameBooks (e e' : HighFrequencyExecutionEngine) : Prop :=
  ∃ health rollbacks tracker rejects,
    e' = { e with
      riskManager := { e.riskManager with exchangeHealth := health }
      rollbackCount := rollbacks
      orderTracker := tracker
      slippageRejectCount := rejects }

namespace SameBooks

variable {e e' e'' : HighFrequencyExecutionEngine}

lemma refl (e : HighFrequencyExecutionEngine) : SameBooks e e :=
  ⟨e.riskManager.exchangeHealth, e.rollbackCount, e.orderTracker, e.slippageRejectCount, rfl⟩

lemma trans (h : SameBooks e e') (h' : SameBooks e' e'') : SameBooks e e'' := by
  obtain ⟨health, rollbacks, tracker, rejects, rfl⟩ := h
  obtain ⟨health', rollbacks', tracker', rejects', rfl⟩ := h'
  exact ⟨health', rollbacks', tracker', rejects', rfl⟩

lemma totalExposure (h : SameBooks e e') :
    e'.riskManager.totalExposure = e.riskManager.totalExposure := by
  obtain ⟨health, rollbacks, tracker, rejects, rfl⟩ := h
  rfl

lemma feeScheduleBps (h : SameBooks e e') : e'.feeScheduleBps = e.feeScheduleBps := by
  obtain ⟨health, rollbacks, tracker, rejects, rfl⟩ := h
  rfl

lemma slippageToleranceFp (h : SameBooks e e') :
    e'.slippageToleranceFp = e.slippageToleranceFp := by
  obtain ⟨health, rollbacks, tracker, rejects, rfl⟩ := h
  rfl

lemma sameLimits (h : SameBooks e e') : e.riskManager.SameLimits e'.riskManager := by
  obtain ⟨health, rollbacks, tracker, rejects, rfl⟩ := h
  exact ⟨e.riskManager.totalExposure, health, rfl⟩

/-- A fold of bookkeeping steps is bookkeeping. -/
lemma foldl {α : Type*} {f : HighFrequencyExecutionEngine → α → HighFrequencyExecutionEngine}
    (hf : ∀ e a, SameBooks e (f e a)) (as : List α) (e : HighFrequencyExecutionEngine) :
    SameBooks e (as.foldl f e) := by
  induction as generalizing e with
  | nil => exact refl e
  | cons a as ih => exact (hf e a).trans (ih (f e a))

end SameBooks

lemma trackLiveOrder_sameBooks (e : HighFrequencyExecutionEngine) (clk : TrackClock)
    (result : OrderResult) (intent : OrderIntent) :
    SameBooks e (e.trackLiveOrder clk result intent) := by
  unfold trackLiveOrder
  split
  · exact SameBooks.refl e
  · split
    · exact ⟨e.riskManager.exchangeHealth, e.rollbackCount, _, e.slippageRejectCount, rfl⟩
    · exact SameBooks.refl e

lemma untrackLiveOrder_sameBooks (e : HighFrequencyExecutionEngine) (result : OrderResult) :
    SameBooks e (e.untrackLiveOrder result) := by
  unfold untrackLiveOrder
  split
  · exact ⟨e.riskManager.exchangeHealth, e.rollbackCount, _, e.slippageRejectCount, rfl⟩
  · exact SameBooks.refl e

lemma recordLegOutcome_sameBooks (e : HighFrequencyExecutionEngine) (now : ℤ)
    (exchangeId : UInt16) (result : OrderResult) :
    SameBooks e (e.recordLegOutcome now exchangeId result) := by
  unfold recordLegOutcome
  split
  · exact ⟨_, e.rollbackCount, e.orderTracker, e.slippageRejectCount, rfl⟩
  · exact ⟨_, e.rollbackCount, e.orderTracker, e.slippageRejectCount, rfl⟩

lemma verifyLegSlippage_sameBooks (e : HighFrequencyExecutionEngine) (intent : OrderIntent)
    (result : OrderResult) : SameBooks e (e.verifyLegSlippage intent result) := by
  unfold verifyLegSlippage
  split
  · exact SameBooks.refl e
  · split
    · exact SameBooks.refl e
    · exact ⟨e.riskManager.exchangeHealth, e.rollbackCount, e.orderTracker, _, rfl⟩

lemma countRollback_sameBooks (e : HighFrequencyExecutionEngine) :
    SameBooks e e.countRollback :=
  ⟨e.riskManager.exchangeHealth, _, e.orderTracker, e.slippageRejectCount, rfl⟩

@[simp] lemma checkDailyReset_riskManager (e : HighFrequencyExecutionEngine) (today : UInt32) :
    (e.checkDailyReset today).riskManager = e.riskManager := by
  unfold checkDailyReset
  split <;> rfl

@[simp] lemma recordDailyPnl_riskManager (e : HighFrequencyExecutionEngine) (profitCents : ℤ) :
    (e.recordDailyPnl profitCents).riskManager = e.riskManager := by
  unfold recordDailyPnl
  split <;> rfl

/-- On a new day the losses of the day are zero. -/
lemma dailyLossReached_eq (e : HighFrequencyExecutionEngine) (today : UInt32) :
    e.dailyLossReached today =
      decide (e.dailyLossLimitCents ≤ if today = e.dailyResetDay then e.dailyLossCents else 0) := by
  unfold dailyLossReached checkDailyReset
  by_cases h : today = e.dailyResetDay
  · simp [h]
  · simp [h]

/-- The daily check fails exactly when the losses of the day have reached the limit. -/
lemma checkDailyLossLimit_eq (e : HighFrequencyExecutionEngine) (today : UInt32) :
    e.checkDailyLossLimit today =
      if e.dailyLossReached today then
        (.error ("daily loss limit reached: "
          ++ toString (e.checkDailyReset today).dailyLossCents ++ " cents >= "
          ++ toString e.dailyLossLimitCents ++ " cents — trading halted until midnight UTC"),
          e.checkDailyReset today)
      else (.ok (), e.checkDailyReset today) := by
  unfold checkDailyLossLimit dailyLossReached
  simp only [decide_eq_true_eq]

end HighFrequencyExecutionEngine

end HftArb
