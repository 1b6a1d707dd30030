import HftArb.Execution.Orders

/-!
# The cross-exchange executor

`executeSimultaneousTrades` validates a buying and a selling order, hands both to the dispatch
function at once and reports what came back.  It does not roll anything back: it only says, in
`rollbackRequired`, that the caller should.

The dispatch arms of the source bind the outcome of a leg to `result`; the model takes them to
evaluate to it.  The measured execution times are left out.
-/

namespace HftArb

/-- One leg of a cross-exchange arbitrage. -/
structure CrossExchangeOrder where
  exchangeName : String
  exchangeId : UInt16
  symbol : String
  side : String
  price : Decimal
  quantity : Decimal
  orderType : String
  timeInForce : String
  deriving DecidableEq

/-- Why an order is not valid. -/
inductive OrderInvalid where
  | price
  | quantity
  | notional (notional : Decimal)
  | side (side : String)
  | marketOrder
  | goodTillCancelled
  | emptySymbol
  deriving DecidableEq

/-- The text of an invalid order, given how a decimal is written. -/
def OrderInvalid.message (write : Decimal → String) : OrderInvalid → String
  | .price => "Price must be positive"
  | .quantity => "Quantity must be positive"
  | .notional n => "Notional $" ++ write n ++ " exceeds maximum $" ++ write 500000
  | .side s => "Invalid side: " ++ s
  | .marketOrder => "Market orders are prohibited — use LIMIT only"
  | .goodTillCancelled => "GTC time-in-force is prohibited — use IOC or FOK only"
  | .emptySymbol => "Symbol cannot be empty"

/-- Why a leg reports an error. -/
inductive LegError where
  | invalid (reason : OrderInvalid)
  | buyInvalid
  | timedOut (side : String)
  | reported (message : String)
  deriving DecidableEq

/-- The text of a leg's error. -/
def LegError.message (write : Decimal → String) : LegError → String
  | .invalid reason => reason.message write
  | .buyInvalid => "buy validation failed, sell aborted"
  | .timedOut side => side ++ " leg timed out (5s)"
  | .reported message => message

/-- The result of one leg. -/
structure LegResult where
  exchangeName : String
  exchangeId : UInt16
  success : Bool
  orderId : Option String
  filledQuantity : Decimal
  filledPrice : Decimal
  errorMessage : Option LegError
  deriving DecidableEq

/-- The result of both legs. -/
structure CrossExchangeResult where
  buyLeg : LegResult
  sellLeg : LegResult
  bothSucceeded : Bool
  totalProfit : Option Decimal
  rollbackRequired : Bool
  deriving DecidableEq

/-- The largest notional of an order, `MAX_NOTIONAL_USD`. -/
def maxNotionalUsd : Decimal := 500000

/-- The validation of an order, the first reason against it. -/
def validateOrder (order : CrossExchangeOrder) : Except OrderInvalid Unit :=
  if order.price ≤ 0 then .error .price
  else if order.quantity ≤ 0 then .error .quantity
  else if maxNotionalUsd < order.quantity * order.price then
    .error (.notional (order.quantity * order.price))
  else if order.side ≠ "BUY" ∧ order.side ≠ "SELL" then .error (.side order.side)
  else if order.orderType = "MARKET" then .error .marketOrder
  else if order.timeInForce = "GTC" then .error .goodTillCancelled
  else if order.symbol = "" then .error .emptySymbol
  else .ok ()

/-- The order passes its validation. -/
def CrossExchangeOrder.isValid (order : CrossExchangeOrder) : Bool :=
  match validateOrder order with
  | .ok _ => true
  | .error _ => false

/-- A leg that did not fill. -/
def CrossExchangeOrder.failed (order : CrossExchangeOrder) (err : LegError) : LegResult :=
  ⟨order.exchangeName, order.exchangeId, false, none, 0, 0, some err⟩

/-- The result of a dispatched leg for the way its order ended: the dispatch function turns the
answer of the pipeline into a leg result, and the executor cuts it off after five seconds. -/
def CrossExchangeOrder.outcome (order : CrossExchangeOrder) (sideName : String) :
    LegAnswer → LegResult
  | .answered r => ⟨order.exchangeName, order.exchangeId, r.success, r.orderId, r.filledQty,
      r.avgPrice, r.error.map .reported⟩
  | .pipelineError err => order.failed (.reported err)
  | .timedOut => order.failed (.timedOut sideName)

/-- The buying leg: dispatched when its order is valid. -/
def buyResult (buyOrder : CrossExchangeOrder) (answer : LegAnswer) : LegResult :=
  match validateOrder buyOrder with
  | .error e => buyOrder.failed (.invalid e)
  | .ok () => buyOrder.outcome "buy" answer

/-- The selling leg: dispatched when both orders are valid. -/
def sellResult (buyOrder sellOrder : CrossExchangeOrder) (answer : LegAnswer) : LegResult :=
  match validateOrder buyOrder with
  | .error _ => sellOrder.failed .buyInvalid
  | .ok () =>
    match validateOrder sellOrder with
    | .error e => sellOrder.failed (.invalid e)
    | .ok () => sellOrder.outcome "sell" answer

/-- Execute both legs at once. -/
def executeSimultaneousTrades (buyOrder sellOrder : CrossExchangeOrder)
    (feeRateBuy feeRateSell : Decimal) (buyAnswer sellAnswer : LegAnswer) : CrossExchangeResult :=
  let buy := buyResult buyOrder buyAnswer
  let sell := sellResult buyOrder sellOrder sellAnswer
  let bothSucceeded := buy.success && sell.success
  let buyCost := buy.filledQuantity * buy.filledPrice
  let sellProceeds := sell.filledQuantity * sell.filledPrice
  { buyLeg := buy
    sellLeg := sell
    bothSucceeded := bothSucceeded
    totalProfit :=
      if bothSucceeded then
        some (sellProceeds - sellProceeds * feeRateSell - buyCost - buyCost * feeRateBuy)
      else none
    rollbackRequired :=
      (buy.success ^^ sell.success) || decide (buy.filledQuantity ≠ sell.filledQuantity) }

/-- The orders handed to the dispatch function. -/
def dispatchedOrders (buyOrder sellOrder : CrossExchangeOrder) : List CrossExchangeOrder :=
  if buyOrder.isValid then
    if sellOrder.isValid then [buyOrder, sellOrder] else [buyOrder]
  else []

/-! ## Valid orders -/

/-! ## The results of the legs -/

/-- A valid buying order is dispatched; an invalid one fails without a fill. -/
lemma buyResult_cases (buyOrder : CrossExchangeOrder) (answer : LegAnswer) :
    (buyOrder.isValid = true ∧ buyResult buyOrder answer = buyOrder.outcome "buy" answer) ∨
    (buyOrder.isValid = false ∧ ∃ err, buyResult buyOrder answer = buyOrder.failed err) := by
  unfold CrossExchangeOrder.isValid buyResult
  cases validateOrder buyOrder with
  | error e => exact Or.inr ⟨rfl, .invalid e, rfl⟩
  | ok _ => exact Or.inl ⟨rfl, rfl⟩

/-- A selling order is dispatched when both orders are valid and otherwise fails without a fill. -/
lemma sellResult_cases (buyOrder sellOrder : CrossExchangeOrder) (answer : LegAnswer) :
    ((buyOrder.isValid = true ∧ sellOrder.isValid = true) ∧
      sellResult buyOrder sellOrder answer = sellOrder.outcome "sell" answer) ∨
    (¬ (buyOrder.isValid = true ∧ sellOrder.isValid = true) ∧
      ∃ err, sellResult buyOrder sellOrder answer = sellOrder.failed err) := by
  unfold CrossExchangeOrder.isValid sellResult
  cases validateOrder buyOrder with
  | error e => exact Or.inr ⟨by simp, .buyInvalid, rfl⟩
  | ok _ =>
    cases validateOrder sellOrder with
    | error e => exact Or.inr ⟨by simp, .invalid e, rfl⟩
    | ok _ => exact Or.inl ⟨⟨rfl, rfl⟩, rfl⟩

/-- A dispatched leg that ended in time is reported as it went. -/
lemma outcome_of_truthful (order : CrossExchangeOrder) (sideName : String) {answer : LegAnswer}
    {qty : Decimal} (h : answer.Truthful qty) :
    (order.outcome sideName answer).success = answer.succeeded ∧
      (order.outcome sideName answer).filledQuantity = answer.fill := by
  cases answer with
  | answered r => exact ⟨rfl, rfl⟩
  | pipelineError err => exact ⟨rfl, rfl⟩
  | timedOut => exact absurd rfl h.inTime

end HftArb
