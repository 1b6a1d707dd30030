import HftArb.Decimal

/-!
# Safe orders and their counter-orders

`safety_execution.rs` builds the orders that may be dispatched.  `build_safe_order` checks price,
quantity, side, slippage against the book and symbol; `build_counter_order` builds the order that
takes a fill back, at a price that gives way by a number of basis points, unless that price is not
positive or below a floor.  The floor is one cent, or a hundred-millionth of the original price if
that is more; the second part never decides for a nudge below 100 % (`relativeFloor_le_iff`).

The conversion of the side to upper case is a parameter.  The client order id of a safe order, a
text made of the clock, the digits of the price and a counter, is taken as given.
-/

namespace HftArb

/-- The time in force of a safe order. -/
inductive SafeOrderType
  | ioc
  | fok
  deriving DecidableEq

/-- A validated order. -/
structure SafeOrderPayload where
  symbol : String
  side : String
  orderType : SafeOrderType
  price : Decimal
  quantity : Decimal
  timeInForce : String
  clientOrderId : String
  timestampMs : UInt64
  exchangeId : UInt16
  deriving DecidableEq

/-- Why an order is not built, with what the message names. -/
inductive SafeOrderError
  | priceNotPositive (symbol : String) (exchangeId : UInt16)
  | quantityNotPositive (symbol : String) (exchangeId : UInt16)
  | invalidSide (symbol : String) (exchangeId : UInt16) (side : String)
  | buyAboveAsk (symbol : String) (exchangeId : UInt16) (price ask deviation : Decimal)
  | sellBelowBid (symbol : String) (exchangeId : UInt16) (price bid deviation : Decimal)
  | emptySymbol (exchangeId : UInt16)
  deriving DecidableEq

/-- What an order is asked for. -/
structure SafeOrderRequest where
  symbol : String
  side : String
  orderType : SafeOrderType
  price : Decimal
  quantity : Decimal
  exchangeId : UInt16
  bestBid : Option Decimal
  bestAsk : Option Decimal

namespace SafetyExecutionEngine

/-- `MAX_SLIPPAGE_THRESHOLD`. -/
def maxSlippageThreshold : Decimal := 5 / 1000

/-- `MIN_PRICE_FLOOR`. -/
def minPriceFloor : Decimal := 1 / 100

/-- The slippage guard: a buy at most 0.5 % above the best ask, a sell at most 0.5 % below the best
bid, where the book has a positive price. -/
def slippageError (req : SafeOrderRequest) (sideUpper : String) : Option SafeOrderError :=
  if sideUpper = "BUY" then
    match req.bestAsk with
    | some ask =>
      if 0 < ask ∧ maxSlippageThreshold < (req.price - ask) / ask then
        some (.buyAboveAsk req.symbol req.exchangeId req.price ask ((req.price - ask) / ask))
      else none
    | none => none
  else
    match req.bestBid with
    | some bid =>
      if 0 < bid ∧ maxSlippageThreshold < (bid - req.price) / bid then
        some (.sellBelowBid req.symbol req.exchangeId req.price bid ((bid - req.price) / bid))
      else none
    | none => none

/-- The first guard that rejects an order. -/
def safeOrderError (toUppercase : String → String) (req : SafeOrderRequest) :
    Option SafeOrderError :=
  if req.price ≤ 0 then some (.priceNotPositive req.symbol req.exchangeId)
  else if req.quantity ≤ 0 then some (.quantityNotPositive req.symbol req.exchangeId)
  else if toUppercase req.side ≠ "BUY" ∧ toUppercase req.side ≠ "SELL" then
    some (.invalidSide req.symbol req.exchangeId req.side)
  else
    match slippageError req (toUppercase req.side) with
    | some error => some error
    | none => if req.symbol.isEmpty then some (.emptySymbol req.exchangeId) else none

/-- The text of a time in force. -/
def tif : SafeOrderType → String
  | .ioc => "IOC"
  | .fok => "FOK"

/-- `build_safe_order`, with the clock reading and the client order id of the call. -/
def buildSafeOrder (toUppercase : String → String) (req : SafeOrderRequest) (timestampMs : UInt64)
    (clientOrderId : String) : Except SafeOrderError SafeOrderPayload :=
  match safeOrderError toUppercase req with
  | some error => .error error
  | none =>
    .ok { symbol := req.symbol, side := toUppercase req.side, orderType := req.orderType,
          price := req.price, quantity := req.quantity, timeInForce := tif req.orderType,
          clientOrderId := clientOrderId, timestampMs := timestampMs, exchangeId := req.exchangeId }

/-- The side that takes a fill back. -/
def counterSide (original : SafeOrderPayload) : String :=
  if original.side = "BUY" then "SELL" else "BUY"

/-- The price that gives way by the nudge. -/
def rawCounterPrice (original : SafeOrderPayload) (adverseNudgeBps : UInt64) : Decimal :=
  let nudgeFactor := Decimal.ofU64 adverseNudgeBps / 10000
  if counterSide original = "SELL" then original.price * (1 - nudgeFactor)
  else original.price * (1 + nudgeFactor)

/-- The lowest price of a counter-order. -/
def relativeFloor (original : SafeOrderPayload) : Decimal :=
  max (original.price * (1 / 100000000)) minPriceFloor

/-- The quantity of a counter-order: the fill if it is given and positive, else all of the order. -/
def counterQuantity (original : SafeOrderPayload) (filledQuantityOverride : Option Decimal) :
    Decimal :=
  (filledQuantityOverride.filter fun q => 0 < q).getD original.quantity

/-- `build_counter_order`, with the clock reading and the counter value of the call. -/
def buildCounterOrder (original : SafeOrderPayload) (adverseNudgeBps : UInt64)
    (filledQuantityOverride : Option Decimal) (timestampMs seq : UInt64) :
    Option SafeOrderPayload :=
  if rawCounterPrice original adverseNudgeBps ≤ 0 ∨
      rawCounterPrice original adverseNudgeBps < relativeFloor original then none
  else
    some
      { symbol := original.symbol, side := counterSide original, orderType := .ioc,
        price := rawCounterPrice original adverseNudgeBps,
        quantity := counterQuantity original filledQuantityOverride, timeInForce := "IOC",
        clientOrderId := "COUNTER-" ++ toString original.exchangeId ++ "-" ++
          toString timestampMs ++ "-" ++ toString seq,
        timestampMs := timestampMs, exchangeId := original.exchangeId }

/-! ## What a counter-order undoes -/

/-- The order takes a fill of the original back: on the other side, by that quantity, as IOC, at a
positive price that gives way to the market. -/
structure Unwinds (original : SafeOrderPayload) (filled : Decimal) (counter : SafeOrderPayload) :
    Prop where
  side : original.side = "BUY" ∧ counter.side = "SELL" ∧ counter.price ≤ original.price ∨
    original.side = "SELL" ∧ counter.side = "BUY" ∧ original.price ≤ counter.price
  quantity : counter.quantity = filled
  timeInForce : counter.timeInForce = "IOC"
  price_pos : 0 < counter.price

/-- Every fill can be taken back, and nothing is sent for an empty one. -/
def CanBeUnwound (original : SafeOrderPayload) (nudgeBps : UInt64) (filled : Decimal)
    (timestampMs seq : UInt64) : Prop :=
  (0 < filled → ∃ counter, buildCounterOrder original nudgeBps (some filled) timestampMs seq =
    some counter ∧ Unwinds original filled counter) ∧
  (filled = 0 → ∀ counter, buildCounterOrder original nudgeBps (some filled) timestampMs seq =
    some counter → ¬ 0 < counter.quantity)

section Accepted

variable {toUppercase : String → String} {req : SafeOrderRequest} {timestampMs : UInt64}
  {clientOrderId : String} {p : SafeOrderPayload}

/-- What is known of an order that was built. -/
lemma of_buildSafeOrder (h : buildSafeOrder toUppercase req timestampMs clientOrderId = .ok p) :
    0 < p.price ∧ 0 < p.quantity ∧ (p.side = "BUY" ∨ p.side = "SELL") := by
  rw [buildSafeOrder] at h
  split at h
  · exact absurd h (by simp)
  next hnone =>
    obtain rfl := Except.ok.inj h
    rw [safeOrderError] at hnone
    by_cases hprice : req.price ≤ 0
    · rw [if_pos hprice] at hnone
      exact absurd hnone (by simp)
    rw [if_neg hprice] at hnone
    by_cases hquantity : req.quantity ≤ 0
    · rw [if_pos hquantity] at hnone
      exact absurd hnone (by simp)
    rw [if_neg hquantity] at hnone
    by_cases hside : toUppercase req.side ≠ "BUY" ∧ toUppercase req.side ≠ "SELL"
    · rw [if_pos hside] at hnone
      exact absurd hnone (by simp)
    refine ⟨not_le.mp hprice, not_le.mp hquantity, ?_⟩
    by_contra hneither
    exact hside ⟨fun h => hneither (Or.inl h), fun h => hneither (Or.inr h)⟩

end Accepted

section Counter

variable {p : SafeOrderPayload} {nudgeBps : UInt64}

lemma ofU64_div_lt_one (hnudge : nudgeBps.toNat < 10000) :
    Decimal.ofU64 nudgeBps / 10000 ≤ 9999 / 10000 := by
  have hle : (nudgeBps.toNat : ℚ) ≤ 9999 := by exact_mod_cast Nat.le_of_lt_succ hnudge
  rw [Decimal.ofU64]
  linarith

/-- The counter-price of a bought and of a sold order. -/
lemma rawCounterPrice_eq (nudgeBps : UInt64) (hside : p.side = "BUY" ∨ p.side = "SELL") :
    p.side = "BUY" ∧ counterSide p = "SELL" ∧
        rawCounterPrice p nudgeBps = p.price * (1 - Decimal.ofU64 nudgeBps / 10000) ∨
      p.side = "SELL" ∧ counterSide p = "BUY" ∧
        rawCounterPrice p nudgeBps = p.price * (1 + Decimal.ofU64 nudgeBps / 10000) := by
  rcases hside with hbuy | hsell
  · have hcounter : counterSide p = "SELL" := by rw [counterSide, if_pos hbuy]
    exact Or.inl ⟨hbuy, hcounter, by rw [rawCounterPrice, if_pos hcounter]⟩
  · have hcounter : counterSide p = "BUY" := by rw [counterSide, hsell, if_neg (by decide)]
    refine Or.inr ⟨hsell, hcounter, ?_⟩
    rw [rawCounterPrice, hcounter, if_neg (by decide)]

/-- A nudge below 100 % leaves at least a ten-thousandth of the price. -/
lemma le_rawCounterPrice (hprice : 0 < p.price) (hside : p.side = "BUY" ∨ p.side = "SELL")
    (hnudge : nudgeBps.toNat < 10000) : p.price * (1 / 10000) ≤ rawCounterPrice p nudgeBps := by
  have hlow := Decimal.ofU64_nonneg nudgeBps
  have hhigh := ofU64_div_lt_one hnudge
  rcases rawCounterPrice_eq nudgeBps hside with ⟨-, -, hraw⟩ | ⟨-, -, hraw⟩
  · rw [hraw]
    exact mul_le_mul_of_nonneg_left (by linarith) hprice.le
  · rw [hraw]
    exact mul_le_mul_of_nonneg_left (by linarith) hprice.le

/-- Only the absolute floor decides. -/
lemma relativeFloor_le_iff (hprice : 0 < p.price) (hside : p.side = "BUY" ∨ p.side = "SELL")
    (hnudge : nudgeBps.toNat < 10000) :
    relativeFloor p ≤ rawCounterPrice p nudgeBps ↔ minPriceFloor ≤ rawCounterPrice p nudgeBps := by
  have hle := le_rawCounterPrice hprice hside hnudge
  rw [relativeFloor, max_le_iff]
  refine and_iff_right ?_
  linarith

end Counter

/-- **Every positive fill of an accepted order can be taken back, at prices from one cent on.**  For
an order that `build_safe_order` accepted, a nudge below 10000 basis points and a positive fill,
`build_counter_order` builds the unwinding order if the nudged price is at least one cent, and
nothing otherwise. -/
theorem acceptedOrder_unwound (toUppercase : String → String) (req : SafeOrderRequest)
    (orderMs : UInt64) (clientOrderId : String) (p : SafeOrderPayload)
    (haccepted : buildSafeOrder toUppercase req orderMs clientOrderId = .ok p) (nudgeBps : UInt64)
    (hnudge : nudgeBps.toNat < 10000) (filled : Decimal) (hfilled : 0 < filled)
    (timestampMs seq : UInt64) :
    if minPriceFloor ≤ rawCounterPrice p nudgeBps then
      ∃ counter, buildCounterOrder p nudgeBps (some filled) timestampMs seq = some counter ∧
        Unwinds p filled counter ∧ counter.price = rawCounterPrice p nudgeBps
    else buildCounterOrder p nudgeBps (some filled) timestampMs seq = none := by
  obtain ⟨hprice, -, hside⟩ := of_buildSafeOrder haccepted
  have hfloor := relativeFloor_le_iff hprice hside hnudge
  have hfactor : 0 ≤ Decimal.ofU64 nudgeBps / 10000 :=
    div_nonneg (Decimal.ofU64_nonneg nudgeBps) (by norm_num)
  by_cases hcent : minPriceFloor ≤ rawCounterPrice p nudgeBps
  · have hpos : 0 < rawCounterPrice p nudgeBps :=
      lt_of_lt_of_le (by norm_num [minPriceFloor]) hcent
    have hguard : ¬ (rawCounterPrice p nudgeBps ≤ 0 ∨
        rawCounterPrice p nudgeBps < relativeFloor p) := by
      rintro (hle | hlt)
      · exact absurd hpos (not_lt.mpr hle)
      · exact absurd (hfloor.mpr hcent) (not_le.mpr hlt)
    have hquantity : counterQuantity p (some filled) = filled := by
      simp [counterQuantity, Option.filter, hfilled]
    rw [if_pos hcent, buildCounterOrder, if_neg hguard]
    refine ⟨_, rfl, ⟨?_, hquantity, rfl, hpos⟩, rfl⟩
    rcases rawCounterPrice_eq nudgeBps hside with
      ⟨hbuy, hcounter, hraw⟩ | ⟨hsell, hcounter, hraw⟩
    · refine Or.inl ⟨hbuy, hcounter, ?_⟩
      dsimp only
      rw [hraw]
      exact mul_le_of_le_one_right hprice.le (by linarith)
    · refine Or.inr ⟨hsell, hcounter, ?_⟩
      dsimp only
      rw [hraw]
      exact le_mul_of_one_le_right hprice.le (by linarith)
  · rw [if_neg hcent, buildCounterOrder, if_pos]
    exact Or.inr (not_le.mp (mt hfloor.mp hcent))

/-- An order to buy 1000 units of a token at half a cent. -/
def halfCentRequest : SafeOrderRequest :=
  { symbol := "SHITUSDT", side := "BUY", orderType := .ioc, price := 5 / 1000, quantity := 1000,
    exchangeId := 0, bestBid := some (4 / 1000), bestAsk := some (5 / 1000) }

/-- An order to buy 100 units of a token at two cents. -/
def twoCentRequest : SafeOrderRequest :=
  { symbol := "SMALLUSDT", side := "BUY", orderType := .ioc, price := 2 / 100, quantity := 100,
    exchangeId := 0, bestBid := some (19 / 1000), bestAsk := some (2 / 100) }

/-- The order that is built for a request that passes all guards. -/
def payloadOf (req : SafeOrderRequest) : SafeOrderPayload :=
  { symbol := req.symbol, side := req.side, orderType := req.orderType, price := req.price,
    quantity := req.quantity, timeInForce := tif req.orderType, clientOrderId := "0-1000-0-1",
    timestampMs := 1000, exchangeId := req.exchangeId }

theorem acceptedOrder_unwound_twoCents :
    buildSafeOrder id twoCentRequest 1000 "0-1000-0-1" = .ok (payloadOf twoCentRequest) ∧
      ∃ counter, buildCounterOrder (payloadOf twoCentRequest) 10 (some 40) 1001 2 = some counter ∧
        Unwinds (payloadOf twoCentRequest) 40 counter ∧
          counter.price = rawCounterPrice (payloadOf twoCentRequest) 10 := by
  have haccepted :
      buildSafeOrder id twoCentRequest 1000 "0-1000-0-1" = .ok (payloadOf twoCentRequest) := by
    decide +kernel
  have hunwound := acceptedOrder_unwound id twoCentRequest 1000 "0-1000-0-1" _ haccepted 10
    (by decide) 40 (by norm_num) 1001 2
  rw [if_pos (by decide +kernel)] at hunwound
  exact ⟨haccepted, hunwound⟩

/-- The order at half a cent is accepted, and a fill of 500 units cannot be taken back. -/
theorem halfCentOrder_not_unwound :
    buildSafeOrder id halfCentRequest 1000 "0-1000-0-1" = .ok (payloadOf halfCentRequest) ∧
      ¬ CanBeUnwound (payloadOf halfCentRequest) 10 500 1001 2 := by
  refine ⟨by decide +kernel, ?_⟩
  rintro ⟨hfill, -⟩
  obtain ⟨counter, hcounter, -⟩ := hfill (by norm_num)
  have hnone : buildCounterOrder (payloadOf halfCentRequest) 10 (some 500) 1001 2 = none := by
    decide +kernel
  rw [hnone] at hcounter
  exact absurd hcounter (by simp)

end SafetyExecutionEngine

end HftArb
