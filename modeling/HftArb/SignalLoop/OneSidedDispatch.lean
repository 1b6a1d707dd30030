import HftArb.SignalLoop.CrossExchangeExecutor

/-!
# One-sided dispatch

The two legs of `execute_simultaneous_trades` run as two arms.  The selling arm looks at the
validation of both orders, the buying arm at its own only, and an arm that is cut off after five
seconds reports no fill whatever the venue executed.  The flag `rollback_required` is computed from
the reports.

The dispatch function may answer with any result; what the venue has executed is the fill of an
answer in time, and any quantity for an order that is cut off.  `twoSided_iff` says when an invalid
order keeps both legs back and a missing flag means that as much was sold as was bought.
-/

namespace HftArb

/-- What becomes of a dispatched order: the dispatch function answers within the five seconds, or
is cut off after some quantity was executed at the venue. -/
inductive DispatchBehaviour
  | inTime (r : LegResult)
  | timedOut (executed : Decimal)

namespace DispatchBehaviour

/-- The quantity executed at the venue. -/
def executed : DispatchBehaviour → Decimal
  | .inTime r => r.filledQuantity
  | .timedOut qty => qty

/-- The result of the leg. -/
def report (order : CrossExchangeOrder) (sideName : String) : DispatchBehaviour → LegResult
  | .inTime r => r
  | .timedOut _ => order.failed (.timedOut sideName)

/-- The behaviour of the pipeline's answers. -/
def ofAnswer (order : CrossExchangeOrder) (sideName : String) (executed : Decimal) :
    LegAnswer → DispatchBehaviour
  | .timedOut => .timedOut executed
  | answer => .inTime (order.outcome sideName answer)

lemma report_ofAnswer (order : CrossExchangeOrder) (sideName : String) (executed : Decimal)
    (answer : LegAnswer) :
    (ofAnswer order sideName executed answer).report order sideName =
      order.outcome sideName answer := by
  cases answer <;> rfl

end DispatchBehaviour

/-- What one arm does: the orders it hands to the dispatch function, its result, and the quantity
executed at the venue. -/
structure DispatchArm where
  calls : List CrossExchangeOrder
  result : LegResult
  executed : Decimal

/-- An arm that keeps its order back. -/
def CrossExchangeOrder.keptBack (order : CrossExchangeOrder) (err : LegError) : DispatchArm :=
  ⟨[], order.failed err, 0⟩

/-- An arm that dispatches its order. -/
def CrossExchangeOrder.dispatched (order : CrossExchangeOrder) (sideName : String)
    (behaviour : DispatchBehaviour) : DispatchArm :=
  ⟨[order], behaviour.report order sideName, behaviour.executed⟩

/-- The buying arm. -/
def buyArm (buyOrder : CrossExchangeOrder) (behaviour : DispatchBehaviour) : DispatchArm :=
  match validateOrder buyOrder with
  | .error e => buyOrder.keptBack (.invalid e)
  | .ok () => buyOrder.dispatched "buy" behaviour

/-- The selling arm. -/
def sellArm (buyOrder sellOrder : CrossExchangeOrder) (behaviour : DispatchBehaviour) :
    DispatchArm :=
  match validateOrder buyOrder with
  | .error _ => sellOrder.keptBack .buyInvalid
  | .ok () =>
    match validateOrder sellOrder with
    | .error e => sellOrder.keptBack (.invalid e)
    | .ok () => sellOrder.dispatched "sell" behaviour

/-- The result of the two joined arms. -/
def joinArms (feeRateBuy feeRateSell : Decimal) (buy sell : LegResult) : CrossExchangeResult :=
  let bothSucceeded := buy.success && sell.success
  let buyCost := buy.filledQuantity * buy.filledPrice
  let sellProceeds := sell.filledQuantity * sell.filledPrice
  { buyLeg := buy
    sellLeg := sell
    bothSucceeded := bothSucceeded
    totalProfit :=
      if bothSucceeded then
        some (sellProceeds - sellProceeds * feeRateSell - buyCost - buyCost * feeRateBuy)
      else none
    rollbackRequired :=
      (buy.success ^^ sell.success) || decide (buy.filledQuantity ≠ sell.filledQuantity) }

section Arms

variable (buyOrder sellOrder : CrossExchangeOrder) (feeRateBuy feeRateSell : Decimal)

/-- With the answers of the pipeline the arms compute what the executor returns. -/
lemma joinArms_ofAnswer (buyAnswer sellAnswer : LegAnswer) (bought sold : Decimal) :
    joinArms feeRateBuy feeRateSell
        (buyArm buyOrder (.ofAnswer buyOrder "buy" bought buyAnswer)).result
        (sellArm buyOrder sellOrder (.ofAnswer sellOrder "sell" sold sellAnswer)).result =
      executeSimultaneousTrades buyOrder sellOrder feeRateBuy feeRateSell buyAnswer sellAnswer := by
  have hbuy : (buyArm buyOrder (.ofAnswer buyOrder "buy" bought buyAnswer)).result =
      buyResult buyOrder buyAnswer := by
    unfold buyArm buyResult
    cases validateOrder buyOrder with
    | error e => rfl
    | ok _ => exact DispatchBehaviour.report_ofAnswer buyOrder "buy" bought buyAnswer
  have hsell : (sellArm buyOrder sellOrder (.ofAnswer sellOrder "sell" sold sellAnswer)).result =
      sellResult buyOrder sellOrder sellAnswer := by
    unfold sellArm sellResult
    cases validateOrder buyOrder with
    | error e => rfl
    | ok _ =>
      cases validateOrder sellOrder with
      | error e => rfl
      | ok _ => exact DispatchBehaviour.report_ofAnswer sellOrder "sell" sold sellAnswer
  rw [hbuy, hsell]
  rfl

/-- The arms dispatch what the executor does. -/
lemma calls_append (buy sell : DispatchBehaviour) :
    (buyArm buyOrder buy).calls ++ (sellArm buyOrder sellOrder sell).calls =
      dispatchedOrders buyOrder sellOrder := by
  unfold buyArm sellArm dispatchedOrders CrossExchangeOrder.isValid
  cases validateOrder buyOrder with
  | error e => rfl
  | ok _ => cases validateOrder sellOrder <;> rfl

end Arms

section Valid

variable {buyOrder sellOrder : CrossExchangeOrder}

lemma validateOrder_of_isValid {order : CrossExchangeOrder} (h : order.isValid = true) :
    validateOrder order = .ok () := by
  unfold CrossExchangeOrder.isValid at h
  cases hvalidate : validateOrder order with
  | error e =>
    rw [hvalidate] at h
    cases h
  | ok _ => rfl

lemma exists_error_of_not_isValid {order : CrossExchangeOrder} (h : order.isValid = false) :
    ∃ e, validateOrder order = .error e := by
  unfold CrossExchangeOrder.isValid at h
  cases hvalidate : validateOrder order with
  | error e => exact ⟨e, rfl⟩
  | ok _ =>
    rw [hvalidate] at h
    cases h

lemma buyArm_of_isValid (hbuy : buyOrder.isValid = true) (behaviour : DispatchBehaviour) :
    buyArm buyOrder behaviour = buyOrder.dispatched "buy" behaviour := by
  rw [buyArm, validateOrder_of_isValid hbuy]

lemma sellArm_of_isValid (hbuy : buyOrder.isValid = true) (hsell : sellOrder.isValid = true)
    (behaviour : DispatchBehaviour) :
    sellArm buyOrder sellOrder behaviour = sellOrder.dispatched "sell" behaviour := by
  rw [sellArm, validateOrder_of_isValid hbuy, validateOrder_of_isValid hsell]

/-- An invalid buying order keeps both legs back. -/
lemma arms_of_buy_invalid (hbuy : buyOrder.isValid = false) (buy sell : DispatchBehaviour) :
    (∃ err, buyArm buyOrder buy = buyOrder.keptBack err) ∧
      ∃ err, sellArm buyOrder sellOrder sell = sellOrder.keptBack err := by
  obtain ⟨e, he⟩ := exists_error_of_not_isValid hbuy
  rw [buyArm, sellArm, he]
  exact ⟨⟨_, rfl⟩, ⟨_, rfl⟩⟩

end Valid

/-! ## Both sides or none -/

/-- Neither order is dispatched when one of them is invalid, and without the flag the quantities
executed at the two venues agree. -/
def TwoSided (buyOrder sellOrder : CrossExchangeOrder) (feeRateBuy feeRateSell : Decimal)
    (buy sell : DispatchBehaviour) : Prop :=
  (buyOrder.isValid = false ∨ sellOrder.isValid = false →
    (buyArm buyOrder buy).calls = [] ∧ (sellArm buyOrder sellOrder sell).calls = []) ∧
  ((joinArms feeRateBuy feeRateSell (buyArm buyOrder buy).result
      (sellArm buyOrder sellOrder sell).result).rollbackRequired = false →
    (buyArm buyOrder buy).executed = (sellArm buyOrder sellOrder sell).executed)

/-- A cut-off leg does no harm: it executed nothing, or the other leg reports a success or a fill;
two cut-off legs executed the same. -/
def DispatchBehaviour.Harmless : DispatchBehaviour → DispatchBehaviour → Prop
  | .inTime _, .inTime _ => True
  | .timedOut qty, .inTime r => r.success = true ∨ r.filledQuantity ≠ 0 ∨ qty = 0
  | .inTime r, .timedOut qty => r.success = true ∨ r.filledQuantity ≠ 0 ∨ qty = 0
  | .timedOut bought, .timedOut sold => bought = sold

/-- The flag is missing when the reports agree. -/
lemma rollbackRequired_eq_false_iff (feeRateBuy feeRateSell : Decimal) (buy sell : LegResult) :
    (joinArms feeRateBuy feeRateSell buy sell).rollbackRequired = false ↔
      buy.success = sell.success ∧ buy.filledQuantity = sell.filledQuantity := by
  simp [joinArms]

/-- A leg that is cut off after a quantity, against a leg with the given report. -/
lemma cutOff_iff {success : Bool} {filled executed : Decimal} :
    (success = false ∧ filled = 0 → executed = filled) ↔
      success = true ∨ filled ≠ 0 ∨ executed = 0 := by
  cases success with
  | true => simp
  | false =>
    by_cases hfilled : filled = 0
    · simp [hfilled]
    · simp [hfilled]

/-- Between two dispatched orders the flag is missing for unequal quantities exactly when a cut-off
leg does harm. -/
lemma executed_eq_iff_harmless (buyOrder sellOrder : CrossExchangeOrder)
    (feeRateBuy feeRateSell : Decimal) (buy sell : DispatchBehaviour) :
    ((joinArms feeRateBuy feeRateSell (buyOrder.dispatched "buy" buy).result
        (sellOrder.dispatched "sell" sell).result).rollbackRequired = false →
      (buyOrder.dispatched "buy" buy).executed = (sellOrder.dispatched "sell" sell).executed) ↔
    buy.Harmless sell := by
  rw [rollbackRequired_eq_false_iff]
  cases buy with
  | inTime b =>
    cases sell with
    | inTime s => exact iff_of_true (fun hflag => hflag.2) trivial
    | timedOut sold =>
      have hcomm : (b.success = false ∧ b.filledQuantity = 0 → b.filledQuantity = sold) ↔
          (b.success = false ∧ b.filledQuantity = 0 → sold = b.filledQuantity) :=
        imp_congr_right fun _ => eq_comm
      exact hcomm.trans cutOff_iff
  | timedOut bought =>
    cases sell with
    | inTime s =>
      have hcomm : (false = s.success ∧ 0 = s.filledQuantity → bought = s.filledQuantity) ↔
          (s.success = false ∧ s.filledQuantity = 0 → bought = s.filledQuantity) := by
        rw [eq_comm, @eq_comm _ (0 : Decimal)]
      exact hcomm.trans cutOff_iff
    | timedOut sold => exact ⟨fun h => h ⟨rfl, rfl⟩, fun h _ => h⟩

/-- A pair of orders is dispatched on both sides or on none, with a flag for unequal executions,
exactly when the buying order is invalid, or both are valid and a cut-off leg does no harm. -/
theorem twoSided_iff (buyOrder sellOrder : CrossExchangeOrder) (feeRateBuy feeRateSell : Decimal)
    (buy sell : DispatchBehaviour) :
    TwoSided buyOrder sellOrder feeRateBuy feeRateSell buy sell ↔
      buyOrder.isValid = false ∨ (sellOrder.isValid = true ∧ buy.Harmless sell) := by
  unfold TwoSided
  cases hbuy : buyOrder.isValid with
  | false =>
    obtain ⟨⟨e, hb⟩, ⟨e', hs⟩⟩ := arms_of_buy_invalid hbuy buy sell
    rw [hb, hs]
    exact iff_of_true ⟨fun _ => ⟨rfl, rfl⟩, fun _ => rfl⟩ (Or.inl rfl)
  | true =>
    cases hsell : sellOrder.isValid with
    | false =>
      refine iff_of_false (fun h => ?_) (by simp)
      have hcalls := (h.1 (Or.inr rfl)).1
      rw [buyArm_of_isValid hbuy] at hcalls
      cases hcalls
    | true =>
      rw [buyArm_of_isValid hbuy, sellArm_of_isValid hbuy hsell, executed_eq_iff_harmless]
      simp

/-- An order of the given side. -/
def limitOrder (side : String) (price quantity : Decimal) : CrossExchangeOrder :=
  ⟨"Binance", 0, "BTCUSDT", side, price, quantity, "LIMIT", "IOC"⟩

/-- A buying order goes out although the selling order has no price; and two orders are cut off
after different executions without a flag. -/
theorem one_sided_dispatch :
    ((limitOrder "SELL" 0 1).isValid = false ∧
      (buyArm (limitOrder "BUY" 100 1) (.timedOut 0)).calls = [limitOrder "BUY" 100 1]) ∧
    (limitOrder "BUY" 100 1).isValid = true ∧ (limitOrder "SELL" 101 1).isValid = true ∧
    (joinArms 0 0 (buyArm (limitOrder "BUY" 100 1) (.timedOut 1)).result
      (sellArm (limitOrder "BUY" 100 1) (limitOrder "SELL" 101 1)
        (.timedOut 0)).result).rollbackRequired = false ∧
    (buyArm (limitOrder "BUY" 100 1) (.timedOut 1)).executed ≠
      (sellArm (limitOrder "BUY" 100 1) (limitOrder "SELL" 101 1) (.timedOut 0)).executed := by
  decide +kernel

end HftArb
