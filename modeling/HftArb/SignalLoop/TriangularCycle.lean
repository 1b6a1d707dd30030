import HftArb.SignalLoop.Loop

/-!
# The cycle of a triangular signal

The three orders of a triangular signal buy the token A for dollars, sell A for B and sell B for
dollars, all in the same quantity.  `cycleChange` is what their complete fills at their own prices
add to the holding of an asset.

The second order sells one unit of A for `bidB` units of B, where `bidB` is the price of B in
dollars, and the third sells one unit of B whatever the second has brought in.  The cycle therefore
closes only when that price happens to be one (`triangular_closedCycle_iff`); the dollars it brings
in are covered by the simulation of the risk shield.
-/

namespace HftArb

/-- An order on the pair of a base and a quote asset. -/
structure PairOrder where
  base : String
  quote : String
  intent : OrderIntent

/-- What the complete fill of an order at its own price adds to the holding of an asset: a buying
order gains its quantity of the base and costs its notional of the quote. -/
def PairOrder.change (o : PairOrder) (asset : String) : Decimal :=
  (if asset = o.base then signedQty o.intent.isBuy o.intent.qty else 0) -
    (if asset = o.quote then signedQty o.intent.isBuy (o.intent.qty * o.intent.price) else 0)

/-- The orders of a triangular signal on their pairs. -/
def cycleOrders (env : SignalEnv) (tokenA tokenB : UInt16)
    (legs : OrderIntent × OrderIntent × OrderIntent) : List PairOrder :=
  let symA := env.allocator.symbolOrToken tokenA
  let symB := env.allocator.symbolOrToken tokenB
  [⟨symA, "USDT", legs.1⟩, ⟨symA, symB, legs.2.1⟩, ⟨symB, "USDT", legs.2.2⟩]

/-- What the orders of a triangular signal add to the holding of an asset. -/
def cycleChange (env : SignalEnv) (tokenA tokenB : UInt16)
    (legs : OrderIntent × OrderIntent × OrderIntent) (asset : String) : Decimal :=
  ((cycleOrders env tokenA tokenB legs).map fun o => o.change asset).sum

/-- The orders change no holding but that of dollars, and do not decrease it. -/
def ClosedCycle (env : SignalEnv) (tokenA tokenB : UInt16)
    (legs : OrderIntent × OrderIntent × OrderIntent) : Prop :=
  (∀ asset, asset ≠ "USDT" → cycleChange env tokenA tokenB legs asset = 0) ∧
    0 ≤ cycleChange env tokenA tokenB legs "USDT"

section

variable {cfg : LoopConfig} {env : SignalEnv} {exch tokenA tokenB tokenC : UInt16}
  {legs : OrderIntent × OrderIntent × OrderIntent}

/-- The orders of a signal that passes its checks, and the prices the simulation has looked at. -/
lemma planTriangular_spec (h : planTriangular cfg env exch tokenA tokenB tokenC = some legs) :
    legs = triangularLegs cfg env exch tokenA tokenB tokenC ∧
      (env.ticker exch tokenA).askPrice ≤ (env.ticker exch tokenC).bidPrice := by
  rw [planTriangular, Option.ite_none_left_eq_some] at h
  obtain ⟨-, h⟩ := h
  rw [Option.ite_none_right_eq_some] at h
  obtain ⟨hverified, heq⟩ := h
  refine ⟨(Option.some.inj heq).symm, ?_⟩
  rw [triangularVerified, one_mul] at hverified
  obtain ⟨profit, hprofit⟩ := Option.isSome_iff_exists.mp hverified
  obtain ⟨⟨hfee0, hfee1⟩, ⟨hA, -, hC⟩, -⟩ := RiskShield.verifyTriangularLoop_guards hprofit
  obtain ⟨hB, hmargin⟩ := RiskShield.verifyTriangularLoop_margin rfl hprofit
  have hkeep : 0 < 1 - env.takerRate exch := sub_pos.mpr hfee1
  have hsq : (1 - env.takerRate exch) ^ 2 ≤ 1 := pow_le_one₀ hkeep.le (by linarith)
  have hlt : (1 - env.takerRate exch) * (env.ticker exch tokenA).askPrice <
      (1 - env.takerRate exch) *
        ((1 - env.takerRate exch) ^ 2 * (env.ticker exch tokenC).bidPrice) := by
    calc (1 - env.takerRate exch) * (env.ticker exch tokenA).askPrice
        ≤ (env.ticker exch tokenB).askPrice * (env.ticker exch tokenA).askPrice :=
          mul_le_mul_of_nonneg_right hB hA.le
      _ = (env.ticker exch tokenA).askPrice * (env.ticker exch tokenB).askPrice := mul_comm _ _
      _ < (1 - env.takerRate exch) ^ 3 * (env.ticker exch tokenC).bidPrice := hmargin
      _ = (1 - env.takerRate exch) *
          ((1 - env.takerRate exch) ^ 2 * (env.ticker exch tokenC).bidPrice) := by ring
  have hask := lt_of_mul_lt_mul_left hlt hkeep.le
  exact (hask.trans_le (mul_le_of_le_one_left hC.le hsq)).le

/-- The orders carry the symbols of their pairs. -/
lemma cycleOrders_symbol (h : planTriangular cfg env exch tokenA tokenB tokenC = some legs) :
    ∀ o ∈ cycleOrders env tokenA tokenB legs,
      o.intent.symbol = buildPairSymbol o.base o.quote exch := by
  obtain ⟨rfl, -⟩ := planTriangular_spec h
  simp [cycleOrders, triangularLegs]

/-- The holding of A does not change, that of B changes by what the second order brings in beyond
one unit, and that of dollars by the prices of the third and the first order. -/
lemma cycleChange_eq (cfg : LoopConfig) (env : SignalEnv) (exch tokenA tokenB tokenC : UInt16)
    (asset : String) :
    cycleChange env tokenA tokenB (triangularLegs cfg env exch tokenA tokenB tokenC) asset =
      env.lot cfg exch tokenA *
        ((if asset = env.allocator.symbolOrToken tokenB then
            (env.ticker exch tokenB).bidPrice - 1 else 0) +
          (if asset = "USDT" then
            (env.ticker exch tokenC).bidPrice - (env.ticker exch tokenA).askPrice else 0)) := by
  simp only [cycleChange, cycleOrders, triangularLegs, PairOrder.change, List.map_cons,
    List.map_nil, List.sum_cons, List.sum_nil, signedQty, if_true, Bool.false_eq_true, if_false]
  split_ifs <;> ring

end

/-- The orders of a triangular signal that passes its checks form a closed cycle that loses nothing
exactly when either B is not the dollar and has a bid of one dollar, or B is the dollar and its bid
and that of C together cover one unit and the ask of A. -/
theorem triangular_closedCycle_iff (cfg : LoopConfig) (env : SignalEnv)
    (exch tokenA tokenB tokenC : UInt16) (legs : OrderIntent × OrderIntent × OrderIntent)
    (h : planTriangular cfg env exch tokenA tokenB tokenC = some legs) :
    ClosedCycle env tokenA tokenB legs ↔
      (env.allocator.symbolOrToken tokenB ≠ "USDT" ∧ (env.ticker exch tokenB).bidPrice = 1) ∨
      (env.allocator.symbolOrToken tokenB = "USDT" ∧
        (env.ticker exch tokenA).askPrice + 1 ≤
          (env.ticker exch tokenB).bidPrice + (env.ticker exch tokenC).bidPrice) := by
  obtain ⟨rfl, hle⟩ := planTriangular_spec h
  have hlot := env.lot_pos cfg exch tokenA
  by_cases hB : env.allocator.symbolOrToken tokenB = "USDT"
  · have hother : ∀ asset, asset ≠ "USDT" → cycleChange env tokenA tokenB
        (triangularLegs cfg env exch tokenA tokenB tokenC) asset = 0 := by
      intro asset hasset
      rw [cycleChange_eq, hB, if_neg hasset, if_neg hasset, add_zero, mul_zero]
    have husdt : cycleChange env tokenA tokenB
        (triangularLegs cfg env exch tokenA tokenB tokenC) "USDT" =
          env.lot cfg exch tokenA * ((env.ticker exch tokenB).bidPrice - 1 +
            ((env.ticker exch tokenC).bidPrice - (env.ticker exch tokenA).askPrice)) := by
      rw [cycleChange_eq, hB, if_pos rfl, if_pos rfl]
    rw [ClosedCycle, and_iff_right hother, husdt, mul_nonneg_iff_of_pos_left hlot]
    simp only [ne_eq, hB, not_true_eq_false, false_and, true_and, false_or]
    constructor
    · intro hnn
      linarith
    · intro hcover
      linarith
  · have husdt : 0 ≤ cycleChange env tokenA tokenB
        (triangularLegs cfg env exch tokenA tokenB tokenC) "USDT" := by
      rw [cycleChange_eq, if_neg (Ne.symm hB), if_pos rfl, zero_add]
      exact mul_nonneg hlot.le (sub_nonneg.mpr hle)
    rw [ClosedCycle, and_iff_left husdt]
    simp only [ne_eq, hB, not_false_eq_true, true_and, false_and, or_false]
    constructor
    · intro hclosed
      have hsym := hclosed _ hB
      rw [cycleChange_eq, if_pos rfl, if_neg hB, add_zero, mul_eq_zero] at hsym
      exact sub_eq_zero.mp (hsym.resolve_left hlot.ne')
    · intro hbid asset hasset
      rw [cycleChange_eq, hbid, if_neg hasset, sub_self, ite_self, add_zero, mul_zero]

/-- The small market with the second token worth one dollar. -/
def evenTriangleEnv : SignalEnv :=
  { testTriangleEnv with
    arena := { testTriangleArena with
      bidPrices := fun i => if i = 2 then 1000000000 else testTriangleArena.bidPrices i
      askPrices := fun i => if i = 2 then 1000000000 else testTriangleArena.askPrices i } }

/-- With a second token worth one dollar the cycle of the small market is closed. -/
theorem triangular_closedCycle_even :
    ∃ legs, planTriangular testLoopConfig evenTriangleEnv 0 1 2 3 = some legs ∧
      ClosedCycle evenTriangleEnv 1 2 legs := by
  have hplan : planTriangular testLoopConfig evenTriangleEnv 0 1 2 3 =
      some (triangularLegs testLoopConfig evenTriangleEnv 0 1 2 3) := by
    decide +kernel
  refine ⟨_, hplan, (triangular_closedCycle_iff _ _ _ _ _ _ _ hplan).mpr (Or.inl ?_)⟩
  decide +kernel

/-- The triangular signal of the small market leaves one unit of its second token per unit
traded. -/
theorem triangle_leaves_second_token :
    .triangular 0 1 2 3 1000 ∈ testTriangleArena.evaluateTick 0 1 10 10 ∧
      ∃ legs, planTriangular testLoopConfig testTriangleEnv 0 1 2 3 = some legs ∧
        cycleChange testTriangleEnv 1 2 legs "TOKEN2" = 1 / 1000 ∧
        ¬ ClosedCycle testTriangleEnv 1 2 legs := by
  have hplan : planTriangular testLoopConfig testTriangleEnv 0 1 2 3 =
      some (triangularLegs testLoopConfig testTriangleEnv 0 1 2 3) := by
    decide +kernel
  have hleft : cycleChange testTriangleEnv 1 2
      (triangularLegs testLoopConfig testTriangleEnv 0 1 2 3) "TOKEN2" = 1 / 1000 := by
    decide +kernel
  refine ⟨by decide +kernel, _, hplan, hleft, ?_⟩
  rintro ⟨hclosed, -⟩
  rw [hclosed "TOKEN2" (by decide)] at hleft
  exact absurd hleft (by decide +kernel)

end HftArb
