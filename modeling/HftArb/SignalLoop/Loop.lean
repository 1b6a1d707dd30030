import HftArb.Foundations.Runs
import HftArb.Execution.Blasts
import HftArb.Capital.BalanceAllocator
import HftArb.SignalLoop.SizeSlicer
import HftArb.SignalLoop.Shields
import HftArb.SignalLoop.CrossExchangeExecutor

/-!
# The signal loop

A tick of the signal loop evaluates every exchange and active token and handles the signals one
after the other.  A cross-exchange signal is sized, checked against the production shield and the
balances, sliced, and each slice goes to the cross-exchange executor.  A triangular signal is
simulated by the risk shield and becomes a blast of three legs.

The prices, the balances and the switches belong to other tasks and may change at any time.  The
evaluation of a slot therefore reads an arena of its own (`TickEnv.evalArena`), the handling of a
signal meets an outside of its own (`SignalEnv`), and writes of other tasks to the engine may come
before it (`OtherWrite`).  A tick is the list of its steps (`tickSteps`); the only state the steps
share is the engine.

The heartbeat, the health counters, the feed of the depeg monitor, the symbol broadcast and the
starvation check do not act on orders and are left out.
-/

namespace HftArb

open Runs

/-! ## Symbols and lots -/

/-- The symbol of a pair in the spelling of an exchange. -/
def buildPairSymbol (base quote : String) (exchangeId : UInt16) : String :=
  if exchangeId = 2 then base ++ "-" ++ quote
  else if exchangeId = 3 then base ++ "_" ++ quote
  else if exchangeId = 8 then base ++ "-" ++ quote
  else base ++ quote

/-- The lot of a token without a balance, `lot_fallback`. -/
def lotFallback : Decimal := 1 / 1000

/-! ## The outside -/

/-- The constants of the signal loop. -/
structure LoopConfig where
  numExch : ℕ
  minCrossBps : UInt64
  minTriBps : UInt64
  lotMaxPct : Decimal
  lotCapital : Decimal
  paperCapitalFp : UInt64

/-- The outside of one slice. -/
structure SliceEnv where
  buyAnswer : LegAnswer
  sellAnswer : LegAnswer
  /-- The channel to the rebalancer takes no request. -/
  channelFull : Bool

/-- The outside of the handling of one signal. -/
structure SignalEnv where
  arena : MarketArena
  allocator : LocalCapitalAllocator
  today : UInt32
  /-- The answer of the depeg monitor. -/
  depegActive : Bool
  cutAt : Option ℕ
  legs : ℕ → LegEnv
  slices : ℕ → SliceEnv

/-- The taker fee of an exchange as a rate. -/
def SignalEnv.takerRate (env : SignalEnv) (exchangeId : UInt16) : Decimal :=
  Decimal.ofU64 ((env.arena.feeSchedule.getTaker exchangeId.toNat).getD 10) / 10000

/-- The lot of a token on an exchange. -/
def SignalEnv.lot (env : SignalEnv) (cfg : LoopConfig) (exchangeId tokenId : UInt16) : Decimal :=
  let qty := env.allocator.computeLotSize exchangeId.toNat tokenId.toNat cfg.lotMaxPct
    cfg.lotCapital
  if 0 < qty then qty else lotFallback

/-- A lot is positive. -/
lemma SignalEnv.lot_pos (env : SignalEnv) (cfg : LoopConfig) (exchangeId tokenId : UInt16) :
    0 < env.lot cfg exchangeId tokenId := by
  unfold SignalEnv.lot
  dsimp only
  split
  · next h => exact h
  · norm_num [lotFallback]

/-! ## Cross-exchange signals -/

/-- A cross-exchange signal that has passed its checks. -/
structure CrossPlan where
  buyExchange : UInt16
  sellExchange : UInt16
  tokenId : UInt16
  qty : Decimal
  buyPrice : Decimal
  sellPrice : Decimal
  baseSym : String
  symbol : String
  sellSymbol : String
  deriving DecidableEq

/-- The sizing and the checks of a cross-exchange signal. -/
def planCross (cfg : LoopConfig) (env : SignalEnv) (buyExchange sellExchange tid : UInt16)
    (spreadBps : UInt64) : Option CrossPlan :=
  let buyPrice := arenaPrice (env.arena.ask buyExchange.toNat tid.toNat)
  let sellPrice := arenaPrice (env.arena.bid sellExchange.toNat tid.toNat)
  let qty := env.lot cfg buyExchange tid
  if env.arena.size ≤ env.arena.getIndex buyExchange.toNat tid.toNat then none
  else if env.arena.size ≤ env.arena.getIndex sellExchange.toNat tid.toNat then none
  else if ProductionRiskShield.withDefaults.validateExecutionSafety (buyPrice * qty)
      (Decimal.ofU64 spreadBps / 100) = false then none
  else if env.allocator.getBalanceAtomic buyExchange.toNat 0 < buyPrice * qty then none
  else if env.allocator.getBalanceAtomic sellExchange.toNat tid.toNat < qty then none
  else
    some
      { buyExchange := buyExchange
        sellExchange := sellExchange
        tokenId := tid
        qty := qty
        buyPrice := buyPrice
        sellPrice := sellPrice
        baseSym := env.allocator.symbolOrToken tid
        symbol := buildPairSymbol (env.allocator.symbolOrToken tid) "USDT" buyExchange
        sellSymbol := buildPairSymbol (env.allocator.symbolOrToken tid) "USDT" sellExchange }

namespace CrossPlan

/-- The buying order of a slice. -/
def buyOrder (plan : CrossPlan) (quantity : Decimal) : CrossExchangeOrder where
  exchangeName := "exchange_" ++ toString plan.buyExchange
  exchangeId := plan.buyExchange
  symbol := plan.symbol
  side := "BUY"
  price := plan.buyPrice
  quantity := quantity
  orderType := "LIMIT"
  timeInForce := "IOC"

/-- The selling order of a slice. -/
def sellOrder (plan : CrossPlan) (quantity : Decimal) : CrossExchangeOrder where
  exchangeName := "exchange_" ++ toString plan.sellExchange
  exchangeId := plan.sellExchange
  symbol := plan.sellSymbol
  side := "SELL"
  price := plan.sellPrice
  quantity := quantity
  orderType := "LIMIT"
  timeInForce := "IOC"

/-- The order the dispatch function hands to the pipeline. -/
def toIntent (plan : CrossPlan) (order : CrossExchangeOrder) : OrderIntent where
  exchangeId := order.exchangeId
  tokenId := plan.tokenId
  qty := order.quantity
  price := order.price
  isBuy := order.side == "BUY"
  symbol := order.symbol

/-- The counter-order of the buying leg: sell what was bought. -/
def buyCounter (plan : CrossPlan) (leg : LegResult) : Option OrderIntent :=
  if leg.success = true ∧ 0 < leg.filledQuantity then
    some
      { exchangeId := plan.buyExchange
        tokenId := plan.tokenId
        qty := leg.filledQuantity
        price := (if 0 < leg.filledPrice then leg.filledPrice else plan.buyPrice) * (995 / 1000)
        isBuy := false
        symbol := plan.symbol }
  else none

/-- The counter-order of the selling leg: buy back what was sold. -/
def sellCounter (plan : CrossPlan) (leg : LegResult) : Option OrderIntent :=
  if leg.success = true ∧ 0 < leg.filledQuantity then
    some
      { exchangeId := plan.sellExchange
        tokenId := plan.tokenId
        qty := leg.filledQuantity
        price := (if 0 < leg.filledPrice then leg.filledPrice else plan.sellPrice) * (1005 / 1000)
        isBuy := true
        symbol := plan.sellSymbol }
  else none

/-- The route of the orders of a plan. -/
def route (plan : CrossPlan) : Route :=
  .crossExchange plan.buyExchange plan.sellExchange plan.tokenId

/-- The settlement request after a slice. -/
def settlement (plan : CrossPlan) (quantity : Decimal) : RebalanceRequest where
  fromExchangeId := plan.buyExchange
  toExchangeId := plan.sellExchange
  tokenId := plan.tokenId
  amount := quantity
  tokenSymbol := plan.baseSym

/-- The result of a slice. -/
def sliceResult (plan : CrossPlan) (env : SignalEnv) (quantity : Decimal) (senv : SliceEnv) :
    CrossExchangeResult :=
  executeSimultaneousTrades (plan.buyOrder quantity) (plan.sellOrder quantity)
    (env.takerRate plan.buyExchange) (env.takerRate plan.sellExchange) senv.buyAnswer
    senv.sellAnswer

/-- What the loop does after a slice: counter-orders and the settlement request, both only when both
legs succeeded. -/
def afterSlice (plan : CrossPlan) (quantity : Decimal) (senv : SliceEnv)
    (result : CrossExchangeResult) : List Event :=
  if result.bothSucceeded then
    (if result.rollbackRequired then
      ((plan.buyCounter result.buyLeg).toList ++ (plan.sellCounter result.sellLeg).toList).map
        Event.counterOrder
    else []) ++
    (if senv.channelFull then [] else [Event.rebalance (plan.settlement quantity)])
  else []

/-- The dispatches of a slice. -/
def sliceDispatches (plan : CrossPlan) (status : GateStatus) (quantity : Decimal) : List Event :=
  (dispatchedOrders (plan.buyOrder quantity) (plan.sellOrder quantity)).map fun o =>
    Event.dispatched plan.route (plan.toIntent o) status

/-- What one slice does. -/
def dispatchSlice (plan : CrossPlan) (env : SignalEnv) (status : GateStatus)
    (quantity : Decimal) (senv : SliceEnv) : List Event :=
  plan.sliceDispatches status quantity ++
    plan.afterSlice quantity senv (plan.sliceResult env quantity senv)

/-- The slices of a plan. -/
def slices (plan : CrossPlan) : List OrderSlice := SizeSlicer.new.sliceOrder plan.qty plan.buyPrice

/-- The orders a plan sends to the pipelines. -/
def orders (plan : CrossPlan) : List CrossExchangeOrder :=
  plan.slices.flatMap fun sl =>
    dispatchedOrders (plan.buyOrder sl.quantity) (plan.sellOrder sl.quantity)

end CrossPlan

/-! ## Triangular signals -/

/-- The ticker of a token, with the placeholder quantity one. -/
def SignalEnv.ticker (env : SignalEnv) (exch token : UInt16) : MarketTicker where
  askPrice := arenaPrice (env.arena.ask exch.toNat token.toNat)
  askQty := 1
  bidPrice := arenaPrice (env.arena.bid exch.toNat token.toNat)
  bidQty := 1

/-- The three orders of a triangular signal: buy A for USDT, sell A for B, sell B for USDT. -/
def triangularLegs (cfg : LoopConfig) (env : SignalEnv) (exch tokenA tokenB tokenC : UInt16) :
    OrderIntent × OrderIntent × OrderIntent :=
  let symA := env.allocator.symbolOrToken tokenA
  let symB := env.allocator.symbolOrToken tokenB
  let qty := env.lot cfg exch tokenA
  (⟨exch, tokenA, qty, (env.ticker exch tokenA).askPrice, true, buildPairSymbol symA "USDT" exch⟩,
    ⟨exch, tokenA, qty, (env.ticker exch tokenB).bidPrice, false, buildPairSymbol symA symB exch⟩,
    ⟨exch, tokenB, qty, (env.ticker exch tokenC).bidPrice, false,
      buildPairSymbol symB "USDT" exch⟩)

/-- The risk shield has verified a triangular signal. -/
def triangularVerified (env : SignalEnv) (exch tokenA tokenB tokenC : UInt16) : Bool :=
  (RiskShield.signalLoop.verifyTriangularLoop (1 * (env.ticker exch tokenA).askPrice)
    (env.ticker exch tokenA) (env.ticker exch tokenB) (env.ticker exch tokenC)
    (env.takerRate exch)).isSome

/-- The checks of a triangular signal and its orders. -/
def planTriangular (cfg : LoopConfig) (env : SignalEnv) (exch tokenA tokenB tokenC : UInt16) :
    Option (OrderIntent × OrderIntent × OrderIntent) :=
  if env.arena.size ≤ env.arena.getIndex exch.toNat tokenA.toNat
      ∨ env.arena.size ≤ env.arena.getIndex exch.toNat tokenB.toNat
      ∨ env.arena.size ≤ env.arena.getIndex exch.toNat tokenC.toNat then none
  else if triangularVerified env exch tokenA tokenB tokenC then
    some (triangularLegs cfg env exch tokenA tokenB tokenC)
  else none

/-! ## Steps of the loop -/

/-- The handling of one signal. -/
def handleSignal (cfg : LoopConfig) (e : HighFrequencyExecutionEngine) (env : SignalEnv) :
    ArbitrageSignal → HighFrequencyExecutionEngine × List Event
  | .crossExchange buyExchange sellExchange tid spreadBps =>
    match planCross cfg env buyExchange sellExchange tid spreadBps with
    | none => (e, [])
    | some plan =>
      (e, plan.slices.zipIdx.flatMap fun x =>
        plan.dispatchSlice env (e.gateStatus env.today env.depegActive) x.1.quantity
          (env.slices x.2))
  | .triangular exch tokenA tokenB tokenC profitBps =>
    match planTriangular cfg env exch tokenA tokenB tokenC with
    | none => (e, [])
    | some (leg1, leg2, leg3) =>
      (e.blastTriangularLegs ⟨env.today, env.depegActive, env.cutAt⟩ ⟨env.legs 0, leg1⟩
        ⟨env.legs 1, leg2⟩ ⟨env.legs 2, leg3⟩ profitBps cfg.paperCapitalFp).2

/-- A write of another task to a switch of the engine. -/
inductive OtherWrite where
  | volatilityCircuit (on : Bool)
  | killSwitch (on : Bool)
  | frozen (on : Bool)
  | depegActive (on : Bool)
  | paperMode (on : Bool)

/-- The engine after the write of another task. -/
def HighFrequencyExecutionEngine.write (e : HighFrequencyExecutionEngine) :
    OtherWrite → HighFrequencyExecutionEngine
  | .volatilityCircuit on => { e with volatilityCircuit := on }
  | .killSwitch on => { e with riskManager := { e.riskManager with killSwitch := on } }
  | .frozen on => { e with riskManager := { e.riskManager with frozen := on } }
  | .depegActive on => { e with riskManager := { e.riskManager with depegActive := on } }
  | .paperMode on => { e with isPaperMode := on }

/-- A step of the signal loop. -/
inductive LoopStep where
  /-- The periodic refresh of the equity and of the network check. -/
  | equity (equityNow networkNow : ℤ)
  | write (w : OtherWrite)
  | signal (env : SignalEnv) (sig : ArbitrageSignal)

/-- One step on the engine. -/
def loopStep (cfg : LoopConfig) (e : HighFrequencyExecutionEngine) :
    LoopStep → HighFrequencyExecutionEngine × List Event
  | .equity equityNow networkNow =>
    ({ e with riskManager :=
        (e.riskManager.updateEquity equityNow cfg.paperCapitalFp).touchNetworkCheck networkNow },
      [])
  | .write w => (e.write w, [])
  | .signal env sig => handleSignal cfg e env sig

/-- The outside of a tick.  The functions are indexed by the exchange, the position of the token in
the snapshot of the active tokens, and the position of the signal among those of the slot. -/
structure TickEnv where
  tickCounter : ℕ
  /-- The dead man's switch has tripped. -/
  dmsTripped : Bool
  equityNow : ℤ
  networkNow : ℤ
  /-- The snapshot of the active tokens, none when their lock is taken. -/
  tokens : Option (List UInt16)
  evalArena : ℕ → ℕ → MarketArena
  writes : ℕ → ℕ → ℕ → List OtherWrite
  handling : ℕ → ℕ → ℕ → SignalEnv

/-- The steps for the signals of one slot. -/
def slotSteps (cfg : LoopConfig) (env : TickEnv) (exchId : ℕ) (tokenId : UInt16) (k : ℕ) :
    List LoopStep :=
  ((env.evalArena exchId k).evaluateTick exchId tokenId.toNat cfg.minCrossBps
    cfg.minTriBps).zipIdx.flatMap fun x =>
      (env.writes exchId k x.2).map LoopStep.write ++ [.signal (env.handling exchId k x.2) x.1]

/-- The steps for the signals of all slots. -/
def sweepSteps (cfg : LoopConfig) (env : TickEnv) (tokens : List UInt16) : List LoopStep :=
  (List.range cfg.numExch).flatMap fun exchId =>
    tokens.zipIdx.flatMap fun x => slotSteps cfg env exchId x.1 x.2

/-- The steps of a tick. -/
def tickSteps (cfg : LoopConfig) (env : TickEnv) : List LoopStep :=
  if env.dmsTripped then []
  else
    (if env.tickCounter % 10 = 1 then [.equity env.equityNow env.networkNow] else []) ++
      match env.tokens with
      | none => []
      | some tokens => sweepSteps cfg env tokens

/-- What a tick does. -/
def tickTrace (cfg : LoopConfig) (e : HighFrequencyExecutionEngine) (env : TickEnv) : List Event :=
  runTrace (loopStep cfg) e (tickSteps cfg env)

/-! ## A small market

Two exchanges and one token, which costs 20000 on the exchange 0 and can be sold for 20200 on the
exchange 1.  The lot is 0.05 of it, and there are 1500 dollars to buy it with. -/

/-- The arena of the small market. -/
def testArena : MarketArena where
  bidPrices i := if i = 3 then 19990000000000 else if i = 7 then 20200000000000 else 0
  askPrices i := if i = 3 then 20000000000000 else if i = 7 then 20210000000000 else 0
  totalTokens := 4
  totalExchanges := 2
  crossTargets := [⟨3, 3, 2⟩]
  crossIndex := [[], [], [], [0]]
  triLoops _ := none
  activeTokens := [3]
  enabledCross := true
  enabledTri := true
  feeSchedule := ⟨[], []⟩
  feeAwareEnabled := false
  crossExchangeMask := 3
  triExchangeMask := 3
  crossLocked := false
  triLocked := false
  feesLocked := false
  totalExchanges_le := by decide

/-- The balances of the small market. -/
def testAllocator : LocalCapitalAllocator where
  balances i := if i = 0 then 1500000000 else if i = 3 then 50000 else if i = 7 then 1000000 else 0
  totalTokens := 4
  totalExchanges := 2
  symbols t := if t = 3 then some "BTC" else none

/-- The constants of a loop over the small market. -/
def testLoopConfig : LoopConfig := ⟨2, 10, 10, 15 / 100, 100000, 100000000000⟩

/-- The outside of a signal of the small market: every cross-exchange leg fills completely. -/
def testSignalEnv : SignalEnv where
  arena := testArena
  allocator := testAllocator
  today := 1
  depegActive := false
  cutAt := none
  legs _ := ⟨⟨0, 0, 0⟩, .timedOut, ⟨0, 0⟩, 0⟩
  slices _ :=
    ⟨.answered ⟨true, some "A-1", 1 / 20, 20000, none, none⟩,
      .answered ⟨true, some "B-1", 1 / 20, 20200, none, none⟩, false⟩

/-- A quiet tick of the small market. -/
def testTick : TickEnv where
  tickCounter := 0
  dmsTripped := false
  equityNow := 0
  networkNow := 0
  tokens := some [3]
  evalArena _ _ := testArena
  writes _ _ _ := []
  handling _ _ _ := testSignalEnv

/-- The small market with three more tokens on the exchange 0, worth 10, 2 and 20, of which the last
has a bid of 22. -/
def testTriangleArena : MarketArena :=
  { testArena with
    bidPrices := fun i =>
      if i = 1 then 10000000000 else if i = 2 then 2000000000 else if i = 3 then 22000000000 else 0
    askPrices := fun i =>
      if i = 1 then 10000000000 else if i = 2 then 2000000000 else if i = 3 then 20000000000 else 0
    triLoops := fun x => if x = 0 then some [⟨1, 2, 3⟩] else none }

/-- The outside of a triangular signal of that market, a day later. -/
def testTriangleEnv : SignalEnv := { testSignalEnv with arena := testTriangleArena, today := 2 }

end HftArb
