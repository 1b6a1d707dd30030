import HftArb.Execution.DailyBooks

/-!
# The smoke test

Before the signal loop starts, `main` runs a smoke test on the engine it is going to trade with
(`run_integration_test`).  It reports the paper capital as the equity, asks the gate for one trade
that should pass and one that should not, fires one two-leg blast of a thousandth of a bitcoin, and
asks the gate again, frozen and unfrozen.  In live mode the orders of the blast are sent to the
exchanges, and what they answer is booked.

The steps that do not act on the engine are left out: the prices written to the arena, the prices of
the depeg monitor, the paper fill and the snapshot on disk.
-/

namespace HftArb

open Saturating

/-- The capital the smoke test and the paper mode work with, `DEFAULT_PAPER_CAPITAL` in
micro-dollars. -/
def initialCapitalFp : UInt64 := 100000000000

/-- The buying order of the smoke test. -/
def smokeLegA : OrderIntent := ⟨0, 10, 1 / 1000, 50001, true, "BTCUSDT"⟩

/-- The selling order of the smoke test. -/
def smokeLegB : OrderIntent := ⟨1, 10, 1 / 1000, 50099, false, "BTCUSDT"⟩

/-- The outside of the smoke test: the clocks, and what the blast meets. -/
structure SmokeTestEnv where
  equityNow : ℤ
  networkNow : ℤ
  legitimateClock : GateClock
  belowThresholdClock : GateClock
  firstFailureNow : ℤ
  secondFailureNow : ℤ
  blast : BlastEnv
  legA : LegEnv
  legB : LegEnv
  frozenClock : GateClock
  unfrozenClock : GateClock

/-- Freeze the gate, `freeze`. -/
def RiskManager.freeze (rm : RiskManager) : RiskManager := { rm with frozen := true }

/-- Unfreeze the gate, `unfreeze`. -/
def RiskManager.unfreeze (rm : RiskManager) : RiskManager := { rm with frozen := false }

/-- The checks before the blast: whether their assertions hold, and what they leave. -/
def RiskManager.smokeChecks (rm : RiskManager) (env : SmokeTestEnv) : Bool × RiskManager :=
  let rm := (rm.updateEquity env.equityNow initialCapitalFp).touchNetworkCheck env.networkNow
  let legitimate := rm.preTradeCheck env.legitimateClock 20 15000000000 initialCapitalFp 0
  let blocked := legitimate.2.preTradeCheck env.belowThresholdClock 1 15000000000
    initialCapitalFp 0
  let rm := (blocked.2.recordExchangeFailure env.firstFailureNow 2).recordExchangeFailure
    env.secondFailureNow 2
  (legitimate.1.isOk && !blocked.1.isOk, rm.recordExchangeSuccess 2)

/-- The checks of the freeze after the blast. -/
def RiskManager.freezeChecks (rm : RiskManager) (env : SmokeTestEnv) : Bool × RiskManager :=
  let frozen := rm.freeze.preTradeCheck env.frozenClock 100 100 initialCapitalFp 0
  let unfrozen := frozen.2.unfreeze.preTradeCheck env.unfrozenClock 100 100 initialCapitalFp 0
  (!frozen.1.isOk && unfrozen.1.isOk, unfrozen.2)

namespace HighFrequencyExecutionEngine

/-- The engine with another risk manager. -/
def withRiskManager (e : HighFrequencyExecutionEngine) (rm : RiskManager) :
    HighFrequencyExecutionEngine := { e with riskManager := rm }

@[simp] lemma riskManager_withRiskManager (e : HighFrequencyExecutionEngine) (rm : RiskManager) :
    (e.withRiskManager rm).riskManager = rm := rfl

/-- The blast of the smoke test. -/
def smokeBlast (e : HighFrequencyExecutionEngine) (env : SmokeTestEnv) :
    Except String (List OrderResult) × HighFrequencyExecutionEngine × List Event :=
  e.blastArbitrageLegs env.blast ⟨env.legA, smokeLegA⟩ ⟨env.legB, smokeLegB⟩ 20 initialCapitalFp

/-- The smoke test: the engine it leaves and what its blast did to the outside.  A failed assertion
ends the program, and nothing is left. -/
def smokeTest (e : HighFrequencyExecutionEngine) (env : SmokeTestEnv) :
    Option (HighFrequencyExecutionEngine × List Event) :=
  let before := e.riskManager.smokeChecks env
  let fired := ((e.withRiskManager before.2).smokeBlast env).2
  let after := fired.1.riskManager.freezeChecks env
  if before.1 && after.1 then some (fired.1.withRiskManager after.2, fired.2) else none

end HighFrequencyExecutionEngine

/-! ## What it leaves -/

namespace RiskManager

/-- One check of the gate only reserves. -/
lemma preTradeCheck_sameLimits (rm : RiskManager) (clk : GateClock) (p s c : UInt64)
    (e : UInt16) : rm.SameLimits (rm.preTradeCheck clk p s c e).2 := by
  rcases rm.preTradeCheck_cases clk p s c e with ⟨-, r, h⟩ | ⟨-, -, r, h⟩ | ⟨-, h⟩
  · rw [h]
    exact SameLimits.refl rm
  · rw [h]
    exact rm.reservedTimes_sameLimits s 1
  · rw [h]
    exact rm.reservedTimes_sameLimits s 1

lemma recordExchangeFailure_sameLimits (rm : RiskManager) (now : ℤ) (e : UInt16) :
    rm.SameLimits (rm.recordExchangeFailure now e) :=
  ⟨rm.totalExposure, _, rfl⟩

lemma recordExchangeSuccess_sameLimits (rm : RiskManager) (e : UInt16) :
    rm.SameLimits (rm.recordExchangeSuccess e) :=
  ⟨rm.totalExposure, _, rfl⟩

lemma smokeChecks_sameLimits (rm : RiskManager) (env : SmokeTestEnv) :
    SameLimits ((rm.updateEquity env.equityNow initialCapitalFp).touchNetworkCheck env.networkNow)
      (rm.smokeChecks env).2 := by
  have hchecked := (preTradeCheck_sameLimits
    ((rm.updateEquity env.equityNow initialCapitalFp).touchNetworkCheck env.networkNow)
    env.legitimateClock 20 15000000000 initialCapitalFp 0).trans
      (preTradeCheck_sameLimits _ env.belowThresholdClock 1 15000000000 initialCapitalFp 0)
  have hfailed := (hchecked.trans (recordExchangeFailure_sameLimits _ env.firstFailureNow 2)).trans
    (recordExchangeFailure_sameLimits _ env.secondFailureNow 2)
  exact hfailed.trans (recordExchangeSuccess_sameLimits _ 2)

/-- After the checks of the freeze, the manager is what it was without the freeze, but for what
trading can change. -/
lemma freezeChecks_sameLimits (rm : RiskManager) (env : SmokeTestEnv) :
    rm.unfreeze.SameLimits (rm.freezeChecks env).2 := by
  obtain ⟨exposure, health, hfrozen⟩ :=
    preTradeCheck_sameLimits rm.freeze env.frozenClock 100 100 initialCapitalFp 0
  have hunfrozen : rm.unfreeze.SameLimits
      (rm.freeze.preTradeCheck env.frozenClock 100 100 initialCapitalFp 0).2.unfreeze := by
    rw [hfrozen]
    exact ⟨exposure, health, rfl⟩
  exact hunfrozen.trans (preTradeCheck_sameLimits _ env.unfrozenClock 100 100 initialCapitalFp 0)

end RiskManager

/-- The smoke test leaves the risk manager with the paper capital reported as the equity and without
a freeze, but for what trading can change. -/
lemma HighFrequencyExecutionEngine.riskManager_smokeTest {e e' : HighFrequencyExecutionEngine}
    {env : SmokeTestEnv} {events : List Event} (h : e.smokeTest env = some (e', events)) :
    ((e.riskManager.updateEquity env.equityNow initialCapitalFp).touchNetworkCheck
      env.networkNow).unfreeze.SameLimits e'.riskManager := by
  unfold smokeTest at h
  dsimp only at h
  split at h
  · obtain ⟨rfl, -⟩ := Prod.mk.inj (Option.some.inj h)
    have hblast := (e.withRiskManager (e.riskManager.smokeChecks env).2).blast_sameLimits
      arbitrageKind env.blast [⟨env.legA, smokeLegA⟩, ⟨env.legB, smokeLegB⟩] 20 initialCapitalFp
    obtain ⟨exposure, health, hfired⟩ := (e.riskManager.smokeChecks_sameLimits env).trans hblast
    have hunfrozen := RiskManager.freezeChecks_sameLimits
      ((e.withRiskManager (e.riskManager.smokeChecks env).2).smokeBlast env).2.1.riskManager env
    refine RiskManager.SameLimits.trans ?_ hunfrozen
    exact ⟨exposure, health, congrArg RiskManager.unfreeze hfired⟩
  · cases h

end HftArb
