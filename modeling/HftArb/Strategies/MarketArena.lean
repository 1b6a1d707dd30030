import HftArb.Decimal

/-!
# The market arena and its signals

`MarketArena` is the price matrix of all exchanges together with the tables compiled from it: the
cross-exchange targets with their per-token index and the triangular loops of every exchange.  The
price matrix is flat, with the slot of an (exchange, token) pair at `getIndex`.

`evaluateTick` is the evaluation of one updated slot: `crossSignals` walks every pair of exchanges
of the token's targets in both directions, `triSignals` walks the loops of the updated exchange
that contain the token.  A lock that a writer holds makes its part of the evaluation empty.
-/

namespace HftArb

open Saturating

/-! ## Fees -/

/-- Maker and taker fees in basis points, indexed by exchange. -/
structure ExchangeFeeSchedule where
  makerFees : List UInt64
  takerFees : List UInt64

/-- The taker fee of an exchange missing from the schedule, `DEFAULT_TAKER_FEE_BPS`. -/
def defaultTakerFeeBps : UInt64 := 10

/-- The taker fee of an exchange, when the schedule has it. -/
def ExchangeFeeSchedule.getTaker (f : ExchangeFeeSchedule) (exchangeId : ℕ) : Option UInt64 :=
  f.takerFees[exchangeId]?

/-- The buy and the sell taker fee of a pair of exchanges together. -/
def ExchangeFeeSchedule.roundTripTakerBps (f : ExchangeFeeSchedule) (exchA exchB : ℕ) : UInt64 :=
  satAdd ((f.getTaker exchA).getD defaultTakerFeeBps) ((f.getTaker exchB).getD defaultTakerFeeBps)

/-- Three taker fees of one exchange. -/
def ExchangeFeeSchedule.triLegTakerBps (f : ExchangeFeeSchedule) (exchangeId : ℕ) : UInt64 :=
  satMul ((f.getTaker exchangeId).getD defaultTakerFeeBps) 3

/-! ## The arena -/

/-- A cycle of three tokens on one exchange. -/
structure TriangularLoop where
  tokenA : UInt16
  tokenB : UInt16
  tokenC : UInt16
  deriving DecidableEq

/-- A token carried by at least two exchanges, with the mask of those exchanges. -/
structure CrossExchangeTarget where
  tokenId : UInt16
  exchangeMask : UInt64
  sharedCount : UInt8
  deriving DecidableEq

/-- An arbitrage opportunity reported by the evaluation. -/
inductive ArbitrageSignal where
  | crossExchange (buyExchange sellExchange tokenId : UInt16) (spreadBps : UInt64)
  | triangular (exchangeId tokenA tokenB tokenC : UInt16) (profitBps : UInt64)
  deriving DecidableEq, Repr

/-- The price matrix, the tables compiled from it and the switches of the evaluation. -/
structure MarketArena where
  bidPrices : ℕ → UInt64
  askPrices : ℕ → UInt64
  totalTokens : ℕ
  totalExchanges : ℕ
  crossTargets : List CrossExchangeTarget
  /-- Positions in `crossTargets`, by token. -/
  crossIndex : List (List ℕ)
  triLoops : UInt16 → Option (List TriangularLoop)
  activeTokens : List UInt16
  enabledCross : Bool
  enabledTri : Bool
  feeSchedule : ExchangeFeeSchedule
  feeAwareEnabled : Bool
  crossExchangeMask : UInt64
  triExchangeMask : UInt64
  /-- A writer holds the lock of the cross-exchange tables. -/
  crossLocked : Bool
  /-- A writer holds the lock of the loop table. -/
  triLocked : Bool
  /-- A writer holds the lock of the fee schedule. -/
  feesLocked : Bool
  /-- The constructor asserts that exchange ids fit the bit masks. -/
  totalExchanges_le : totalExchanges ≤ 64

namespace MarketArena

/-- The number of slots of the price matrix. -/
def size (a : MarketArena) : ℕ := a.totalExchanges * a.totalTokens

/-- The slot of an (exchange, token) pair. -/
def getIndex (a : MarketArena) (exchId tokenId : ℕ) : ℕ := exchId * a.totalTokens + tokenId

/-- The bid of a token on an exchange. -/
def bid (a : MarketArena) (exchId tokenId : ℕ) : UInt64 := a.bidPrices (a.getIndex exchId tokenId)

/-- The ask of a token on an exchange. -/
def ask (a : MarketArena) (exchId tokenId : ℕ) : UInt64 := a.askPrices (a.getIndex exchId tokenId)

end MarketArena

/-- The number of arena units in one dollar, `ARENA_FP_SCALE`. -/
def arenaFpScale : Decimal := 1000000000

/-- A price of the arena in dollars. -/
def arenaPrice (price : UInt64) : Decimal := Decimal.ofU64 price / arenaFpScale

/-- A price is not negative. -/
lemma arenaPrice_nonneg (price : UInt64) : 0 ≤ arenaPrice price :=
  div_nonneg (Decimal.ofU64_nonneg price) (by norm_num [arenaFpScale])

/-! ## Cross-exchange evaluation -/

/-- The basis-point scale of the evaluation. -/
def arenaBpsScale : UInt64 := 10000

/-- The largest ratio, in basis points, that is not taken for a data anomaly:
`BPS_SCALE * MAX_RATIO_BPS_MULTIPLIER`. -/
def maxRatioBps : UInt64 := 1000000

/-- A price written by the coin finder to mark presence, not a market price. -/
def isSentinel (price : UInt64) : Bool := decide (1000000 ≤ price) && decide (price ≤ 1000001)

/-- The exchanges of a mask, in the ascending order in which the bit walk visits them. -/
def maskBits (mask : UInt64) : List ℕ := (List.range 64).filter fun i => mask.toNat.testBit i

/-- The unordered pairs of a list, each with its earlier element first. -/
def orderedPairs : List ℕ → List (ℕ × ℕ)
  | [] => []
  | i :: rest => rest.map (fun j => (i, j)) ++ orderedPairs rest

namespace MarketArena

/-- The spread or profit left after the fees; nothing when the fee schedule is being written. -/
def netOfFees (a : MarketArena) (raw fee : UInt64) : Option UInt64 :=
  if a.feeAwareEnabled then
    if a.feesLocked then none else some (satSub raw fee)
  else some raw

/-- One direction of a pair: buy at `askBuy`, sell at `bidSell`.  Nothing stands for leaving the
pair altogether, on a phantom spread or an unavailable fee schedule. -/
def crossDirection (a : MarketArena) (buy sell : ℕ) (askBuy bidSell : UInt64) (tokenId : UInt16)
    (minSpreadBps : UInt64) : Option (List ArbitrageSignal) :=
  if askBuy < bidSell ∧ 0 < askBuy then
    let raw := satMul (bidSell - askBuy) arenaBpsScale / askBuy
    if maxRatioBps ≤ raw then none
    else
      match a.netOfFees raw (a.feeSchedule.roundTripTakerBps buy sell) with
      | none => none
      | some net =>
        if minSpreadBps < net ∧ a.crossExchangeMask.toNat.testBit buy = true ∧
            a.crossExchangeMask.toNat.testBit sell = true then
          some [.crossExchange (UInt16.ofNat buy) (UInt16.ofNat sell) tokenId net]
        else some []
  else some []

/-- Both directions of a pair of exchanges carrying the token. -/
def crossPair (a : MarketArena) (updatedToken : ℕ) (tokenId : UInt16) (minSpreadBps : UInt64)
    (i j : ℕ) : List ArbitrageSignal :=
  if a.size ≤ a.getIndex i updatedToken ∨ a.size ≤ a.getIndex j updatedToken then []
  else if isSentinel (a.bid i updatedToken) || isSentinel (a.ask i updatedToken)
      || isSentinel (a.bid j updatedToken) || isSentinel (a.ask j updatedToken) then []
  else
    match a.crossDirection i j (a.ask i updatedToken) (a.bid j updatedToken) tokenId
        minSpreadBps with
    | none => []
    | some first =>
      first ++ (a.crossDirection j i (a.ask j updatedToken) (a.bid i updatedToken) tokenId
        minSpreadBps).getD []

/-- The cross-exchange part of the evaluation. -/
def crossSignals (a : MarketArena) (updatedToken : ℕ) (minSpreadBps : UInt64) :
    List ArbitrageSignal :=
  if a.enabledCross = true ∧ a.crossLocked = false then
    ((a.crossIndex[updatedToken]?).getD []).flatMap fun targetIdx =>
      match a.crossTargets[targetIdx]? with
      | none => []
      | some target =>
        (orderedPairs (maskBits target.exchangeMask)).flatMap fun ij =>
          a.crossPair updatedToken target.tokenId minSpreadBps ij.1 ij.2
  else []

end MarketArena

/-! ## Triangular evaluation -/

/-- `u64::checked_mul`. -/
def checkedMul (a b : UInt64) : Option UInt64 :=
  if a.toNat * b.toNat < 2 ^ 64 then some (a * b) else none

/-- The compound ratio of a loop in basis points, computed step by step; nothing on an overflow or
on a step beyond the anomaly guard. -/
def triRatio (bidA askA bidB askB bidC askC : UInt64) : Option UInt64 := do
  let step1 := (← checkedMul bidA arenaBpsScale) / askA
  let step2 := (← checkedMul step1 bidB) / askB
  let step3 := (← checkedMul step2 bidC) / askC
  if maxRatioBps ≤ step1 ∨ maxRatioBps ≤ step2 ∨ maxRatioBps ≤ step3 then none else some step3

namespace MarketArena

/-- The evaluation of one loop for an updated slot. -/
def triLoopSignal (a : MarketArena) (updatedExch updatedToken : ℕ) (minTriProfitBps : UInt64)
    (tri : TriangularLoop) : Option ArbitrageSignal :=
  let ut := UInt16.ofNat updatedToken
  let slots := [tri.tokenA, tri.tokenB, tri.tokenC].map UInt16.toNat
  let prices := slots.flatMap fun t => [a.bid updatedExch t, a.ask updatedExch t]
  if tri.tokenA ≠ ut ∧ tri.tokenB ≠ ut ∧ tri.tokenC ≠ ut then none
  else if slots.any fun t => a.size ≤ a.getIndex updatedExch t then none
  else if prices.any fun p => p == 0 then none
  else if prices.any isSentinel then none
  else do
    let step3 ← triRatio (a.bid updatedExch tri.tokenA.toNat) (a.ask updatedExch tri.tokenA.toNat)
      (a.bid updatedExch tri.tokenB.toNat) (a.ask updatedExch tri.tokenB.toNat)
      (a.bid updatedExch tri.tokenC.toNat) (a.ask updatedExch tri.tokenC.toNat)
    if step3 ≤ arenaBpsScale then none
    else
      let net ← a.netOfFees (step3 - arenaBpsScale) (a.feeSchedule.triLegTakerBps updatedExch)
      if minTriProfitBps < net ∧ updatedExch < 64 ∧
          a.triExchangeMask.toNat.testBit updatedExch = true then
        some (.triangular (UInt16.ofNat updatedExch) tri.tokenA tri.tokenB tri.tokenC net)
      else none

/-- The triangular part of the evaluation. -/
def triSignals (a : MarketArena) (updatedExch updatedToken : ℕ) (minTriProfitBps : UInt64) :
    List ArbitrageSignal :=
  if a.enabledTri = true ∧ a.triLocked = false then
    ((a.triLoops (UInt16.ofNat updatedExch)).getD []).filterMap
      (a.triLoopSignal updatedExch updatedToken minTriProfitBps)
  else []

/-- The evaluation of one updated slot. -/
def evaluateTick (a : MarketArena) (updatedExch updatedToken : ℕ)
    (minSpreadBps minTriProfitBps : UInt64) : List ArbitrageSignal :=
  a.crossSignals updatedToken minSpreadBps ++ a.triSignals updatedExch updatedToken minTriProfitBps

end MarketArena

end HftArb
