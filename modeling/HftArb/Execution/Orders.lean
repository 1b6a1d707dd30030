import HftArb.Decimal

/-!
# Orders, their answers and the emergency counter-order

An `OrderIntent` is an order handed to a pipeline and an `OrderResult` what comes back.  Inside a
blast every leg runs under a timeout of its own, so that a leg ends in one of three ways
(`LegAnswer`); `legResult` is the result the blast goes on with.

`counterOrder` is the order sent by `fire_counter_order`: the opposite side of the filled quantity,
at a price nudged half a percent in the adverse direction, and no order at all when nothing was
filled.
-/

namespace HftArb

/-- An order to be executed on an exchange. -/
structure OrderIntent where
  exchangeId : UInt16
  tokenId : UInt16
  qty : Decimal
  price : Decimal
  isBuy : Bool
  symbol : String
  deriving DecidableEq

/-- The answer of a pipeline to an order. -/
structure OrderResult where
  success : Bool
  orderId : Option String
  filledQty : Decimal
  avgPrice : Decimal
  error : Option String
  slippageBps : Option UInt64
  deriving DecidableEq

/-- How an order under a timeout ends: with an answer, with an error of the pipeline, or with the
timeout. -/
inductive LegAnswer where
  | answered (r : OrderResult)
  | pipelineError (err : String)
  | timedOut
  deriving DecidableEq

/-- The quantity an order is reported to have filled. -/
def LegAnswer.fill : LegAnswer → Decimal
  | .answered r => r.filledQty
  | _ => 0

/-- Whether an order is reported to have succeeded. -/
def LegAnswer.succeeded : LegAnswer → Bool
  | .answered r => r.success
  | _ => false

/-- The pipeline answered in time and reported a fill within the quantity of the order. -/
structure LegAnswer.Truthful (a : LegAnswer) (qty : Decimal) : Prop where
  inTime : a ≠ .timedOut
  fill_nonneg : 0 ≤ a.fill
  fill_le : a.fill ≤ qty

/-- A result without a fill. -/
def failedResult (msg : String) : OrderResult where
  success := false
  orderId := none
  filledQty := 0
  avgPrice := 0
  error := some msg
  slippageBps := none

/-- The result a blast goes on with, for a leg with the given label. -/
def legResult (label : String) : LegAnswer → OrderResult
  | .answered r => r
  | .pipelineError _ => failedResult (label ++ " pipeline error (not timeout)")
  | .timedOut => failedResult (label ++ " error: deadline has elapsed")

/-- The leg succeeded and filled something. -/
def OrderResult.filled (r : OrderResult) : Bool := r.success && decide (0 < r.filledQty)

/-! ## The counter-order -/

/-- The factor on the price of a selling counter-order, `COUNTER_SELL_NUDGE`. -/
def counterSellNudge : Decimal := 995 / 1000

/-- The factor on the price of a buying counter-order, `COUNTER_BUY_NUDGE`. -/
def counterBuyNudge : Decimal := 1005 / 1000

/-- The order sent by `fire_counter_order` to undo the fill of `original`. -/
def counterOrder (original : OrderIntent) (filled : OrderResult) : Option OrderIntent :=
  let fillQty := max filled.filledQty 0
  if fillQty ≤ 0 then none
  else
    let basePrice := if 0 < filled.avgPrice then filled.avgPrice else original.price
    some
      { exchangeId := original.exchangeId
        tokenId := original.tokenId
        qty := fillQty
        price :=
          if original.isBuy then basePrice * counterSellNudge else basePrice * counterBuyNudge
        isBuy := !original.isBuy
        symbol := original.symbol }

/-- Nothing is sent to undo a fill of nothing. -/
lemma counterOrder_of_not_pos {original : OrderIntent} {filled : OrderResult}
    (h : ¬ 0 < filled.filledQty) : counterOrder original filled = none := by
  have hq : max filled.filledQty 0 ≤ 0 := max_le (not_lt.mp h) le_rfl
  simp only [counterOrder, if_pos hq]

/-- A failed result sends no counter-order. -/
@[simp] lemma counterOrder_failedResult (original : OrderIntent) (msg : String) :
    counterOrder original (failedResult msg) = none :=
  counterOrder_of_not_pos (by simp [failedResult])

/-! ## Signed quantities -/

/-- A quantity with the sign of its side: bought is positive, sold is negative. -/
def signedQty (isBuy : Bool) (qty : Decimal) : Decimal := if isBuy then qty else -qty

@[simp] lemma signedQty_zero (isBuy : Bool) : signedQty isBuy 0 = 0 := by
  cases isBuy <;> simp [signedQty]

@[simp] lemma signedQty_eq_zero (isBuy : Bool) (qty : Decimal) :
    signedQty isBuy qty = 0 ↔ qty = 0 := by
  cases isBuy <;> simp [signedQty]

/-- Buying and selling the same quantity cancel. -/
lemma signedQty_not (isBuy : Bool) (qty : Decimal) :
    signedQty (!isBuy) qty = -signedQty isBuy qty := by
  cases isBuy <;> simp [signedQty]

lemma signedQty_neg (isBuy : Bool) (qty : Decimal) :
    signedQty isBuy (-qty) = -signedQty isBuy qty := by
  cases isBuy <;> simp [signedQty]

lemma signedQty_sub (isBuy : Bool) (q r : Decimal) :
    signedQty isBuy (q - r) = signedQty isBuy q - signedQty isBuy r := by
  cases isBuy with
  | true => simp [signedQty]
  | false =>
    simp only [signedQty, Bool.false_eq_true, if_false]
    ring

/-- What a fill of `qty` of the order adds to the position in the token `t`. -/
def OrderIntent.position (o : OrderIntent) (t : UInt16) (qty : Decimal) : Decimal :=
  if o.tokenId = t then signedQty o.isBuy qty else 0

/-- The counter-order of a fill, when it fills completely, takes exactly that fill back. -/
lemma counterOrder_position (original : OrderIntent) (t : UInt16) {filled : OrderResult}
    (h : 0 ≤ filled.filledQty) :
    ((counterOrder original filled).toList.map fun o => o.position t o.qty).sum =
      -original.position t filled.filledQty := by
  rcases h.eq_or_lt with h0 | hpos
  · rw [counterOrder_of_not_pos (by rw [← h0]; exact lt_irrefl 0), ← h0]
    simp [OrderIntent.position]
  · have hmax : max filled.filledQty 0 = filled.filledQty := max_eq_left h
    by_cases ht : original.tokenId = t
    · simp [counterOrder, hmax, not_le.mpr hpos, OrderIntent.position, signedQty_not, ht]
    · simp [counterOrder, hmax, not_le.mpr hpos, OrderIntent.position, ht]

/-! ## Limit prices and slippage -/

/-- Widen the price of an order by the slippage tolerance, in millionths. -/
def applySlippageLimit (tolFp : UInt64) (intent : OrderIntent) : OrderIntent :=
  if tolFp = 0 then intent
  else
    let tolerance := Decimal.ofU64 tolFp / 1000000
    { intent with
      price :=
        if intent.isBuy then intent.price * (1 + tolerance) else intent.price * (1 - tolerance) }

@[simp] lemma applySlippageLimit_qty (tolFp : UInt64) (intent : OrderIntent) :
    (applySlippageLimit tolFp intent).qty = intent.qty := by
  unfold applySlippageLimit
  split <;> rfl

@[simp] lemma applySlippageLimit_tokenId (tolFp : UInt64) (intent : OrderIntent) :
    (applySlippageLimit tolFp intent).tokenId = intent.tokenId := by
  unfold applySlippageLimit
  split <;> rfl

@[simp] lemma applySlippageLimit_isBuy (tolFp : UInt64) (intent : OrderIntent) :
    (applySlippageLimit tolFp intent).isBuy = intent.isBuy := by
  unfold applySlippageLimit
  split <;> rfl

@[simp] lemma applySlippageLimit_exchangeId (tolFp : UInt64) (intent : OrderIntent) :
    (applySlippageLimit tolFp intent).exchangeId = intent.exchangeId := by
  unfold applySlippageLimit
  split <;> rfl

/-- Widening the price does not change what a fill adds to the position. -/
@[simp] lemma applySlippageLimit_position (tolFp : UInt64) (intent : OrderIntent) (t : UInt16)
    (qty : Decimal) :
    (applySlippageLimit tolFp intent).position t qty = intent.position t qty := by
  simp [OrderIntent.position]

/-- The fill price was worse than allowed: the data of the guard's error text. -/
structure SlippageViolation where
  slippageBps : UInt64
  maxSlippageBps : UInt64
  intendedPrice : Decimal
  actualPrice : Decimal
  isBuy : Bool

/-- The slippage of a fill in basis points, rounded up, against its maximum. -/
def checkSlippage (intendedPrice actualPrice : Decimal) (isBuy : Bool) (maxSlippageBps : UInt64) :
    Except SlippageViolation UInt64 :=
  if intendedPrice ≤ 0 then .ok 0
  else
    let deviation := if isBuy then actualPrice - intendedPrice else intendedPrice - actualPrice
    let slippageBps := (Decimal.toU64 ⌈deviation * 10000 / intendedPrice⌉).getD 0
    if maxSlippageBps < slippageBps then
      .error ⟨slippageBps, maxSlippageBps, intendedPrice, actualPrice, isBuy⟩
    else .ok slippageBps

end HftArb
