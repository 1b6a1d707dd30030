import HftArb.SignalLoop.Loop

/-!
# The capital behind the cross-exchange orders

A cross-exchange signal is checked against the balances before its orders are sent, and the orders
leave the balances as they are until the next synchronisation.  Two signals that draw on one balance
are therefore both checked against the whole of it.

This happens in every quiet tick: the evaluation of a slot reports all pairs of exchanges of the
token, whichever exchange the slot belongs to, so that the sweep over the exchanges reports every
opportunity once per exchange.  `runSteps_commitsWithin` says that a run stays within the balances
when no two of its plans draw on one balance (`DrawnOnce`), and that in steady ticks over two or
more exchanges nothing else does.
-/

namespace HftArb

open Runs

/-! ## What an order commits -/

/-- A weight of orders, summed over the cross-exchange orders of a trace. -/
def committed (weight : OrderIntent → Decimal) (events : List Event) : Decimal :=
  (events.map fun ev => match ev with
    | .dispatched (.crossExchange ..) o _ => weight o
    | _ => 0).sum

/-- The dollars a buying order commits on an exchange. -/
def buyNotional (x : UInt16) (o : OrderIntent) : Decimal :=
  if o.isBuy = true ∧ o.exchangeId = x then o.qty * o.price else 0

/-- The quantity of a token a selling order commits on an exchange. -/
def sellQty (x t : UInt16) (o : OrderIntent) : Decimal :=
  if o.isBuy = false ∧ o.exchangeId = x ∧ o.tokenId = t then o.qty else 0

lemma committed_append (weight : OrderIntent → Decimal) (evs evs' : List Event) :
    committed weight (evs ++ evs') = committed weight evs + committed weight evs' := by
  simp [committed]

/-- Only dispatches on a cross-exchange route commit anything. -/
lemma committed_eq_zero (weight : OrderIntent → Decimal) {events : List Event}
    (h : ∀ b s t o status, Event.dispatched (.crossExchange b s t) o status ∉ events) :
    committed weight events = 0 := by
  unfold committed
  apply List.sum_eq_zero
  intro y hy
  obtain ⟨ev, hev, rfl⟩ := List.mem_map.mp hy
  split
  · exact absurd hev (h _ _ _ _ _)
  · rfl

/-- An order of the route was handed to a pipeline. -/
def Event.onRoute (r : Route) : Event → Bool
  | .dispatched r' _ _ => decide (r' = r)
  | _ => false

/-- The plan of a step that sends cross-exchange orders. -/
def LoopStep.plan (cfg : LoopConfig) : LoopStep → Option CrossPlan
  | .signal env (.crossExchange b s t bps) =>
    (planCross cfg env b s t bps).filter fun plan => !plan.orders.isEmpty
  | _ => none

/-! ## Plans -/

/-- The identity of a plan and what its checks have established. -/
lemma planCross_spec {cfg : LoopConfig} {env : SignalEnv} {b s t : UInt16} {bps : UInt64}
    {plan : CrossPlan} (h : planCross cfg env b s t bps = some plan) :
    (plan.buyExchange = b ∧ plan.sellExchange = s ∧ plan.tokenId = t) ∧
      (0 < plan.qty ∧ 0 ≤ plan.buyPrice) ∧
      plan.buyPrice * plan.qty ≤ env.allocator.getBalanceAtomic b.toNat 0 ∧
      plan.qty ≤ env.allocator.getBalanceAtomic s.toNat t.toNat := by
  unfold planCross at h
  dsimp only at h
  iterate 5 rw [Option.ite_none_left_eq_some] at h
  obtain ⟨-, -, -, hbuy, hsell, heq⟩ := h
  obtain rfl := Option.some.inj heq
  exact ⟨⟨rfl, rfl, rfl⟩, ⟨env.lot_pos cfg b t, arenaPrice_nonneg _⟩, not_lt.mp hbuy,
    not_lt.mp hsell⟩

namespace CrossPlan

variable {plan : CrossPlan}

/-- The slices of a plan are positive and do not exceed it. -/
lemma slices_spec (hq : 0 < plan.qty) (hp : 0 ≤ plan.buyPrice) :
    (∀ sl ∈ plan.slices, 0 ≤ sl.quantity) ∧
      (plan.slices.map OrderSlice.quantity).sum ≤ plan.qty := by
  unfold slices
  rcases hp.eq_or_lt with hzero | hpos
  · have hnil : SizeSlicer.new.sliceOrder plan.qty plan.buyPrice = [] := by
      unfold SizeSlicer.sliceOrder
      rw [if_pos (Or.inr hzero.ge)]
    rw [hnil]
    exact ⟨by simp, by simpa using hq.le⟩
  · have hmax : 0 < SizeSlicer.new.maxSliceUsd := by norm_num [SizeSlicer.new]
    obtain ⟨-, hall, hsum⟩ := SizeSlicer.new.sliceOrder_spec hmax hq hpos
    exact ⟨fun sl hsl => (hall sl hsl).le, hsum.le⟩

/-- A slice commits what its dispatched orders commit. -/
lemma committed_dispatchSlice (weight : OrderIntent → Decimal) (plan : CrossPlan)
    (env : SignalEnv) (status : GateStatus) (q : Decimal) (senv : SliceEnv) :
    committed weight (plan.dispatchSlice env status q senv) =
      ((dispatchedOrders (plan.buyOrder q) (plan.sellOrder q)).map
        fun c => weight (plan.toIntent c)).sum := by
  have hafter : committed weight (plan.afterSlice q senv (plan.sliceResult env q senv)) = 0 := by
    apply committed_eq_zero
    intro b s t o st hev
    unfold afterSlice at hev
    split_ifs at hev <;> simp at hev
  rw [dispatchSlice, committed_append, hafter, add_zero]
  simp only [committed, sliceDispatches, List.map_map, Function.comp_def, route]

/-- A slice commits at most its notional on the buying exchange and nothing elsewhere. -/
lemma committed_buyNotional_le (x : UInt16) (env : SignalEnv) (status : GateStatus) {q : Decimal}
    (senv : SliceEnv) (hq : 0 ≤ q) (hp : 0 ≤ plan.buyPrice) :
    committed (buyNotional x) (plan.dispatchSlice env status q senv) ≤
      q * if plan.buyExchange = x then plan.buyPrice else 0 := by
  have hnn : 0 ≤ q * plan.buyPrice := mul_nonneg hq hp
  rw [committed_dispatchSlice, dispatchedOrders]
  by_cases hk : plan.buyExchange = x
  · split_ifs
    all_goals simp [buyNotional, toIntent, buyOrder, sellOrder, hk, hnn]
  · split_ifs
    all_goals simp [buyNotional, toIntent, buyOrder, sellOrder, hk]

/-- A slice commits at most its quantity on the selling exchange and nothing elsewhere. -/
lemma committed_sellQty_le (x t : UInt16) (env : SignalEnv) (status : GateStatus) {q : Decimal}
    (senv : SliceEnv) (hq : 0 ≤ q) :
    committed (sellQty x t) (plan.dispatchSlice env status q senv) ≤
      q * if plan.sellExchange = x ∧ plan.tokenId = t then 1 else 0 := by
  rw [committed_dispatchSlice, dispatchedOrders]
  by_cases hk : plan.sellExchange = x ∧ plan.tokenId = t
  · split_ifs
    all_goals simp [sellQty, toIntent, buyOrder, sellOrder, hk, hq]
  · split_ifs
    all_goals simp [sellQty, toIntent, buyOrder, sellOrder, hk]

/-- What all slices of a plan commit, from what one of them does. -/
lemma committed_slices_le {weight : OrderIntent → Decimal} {unit : Decimal} (hunit : 0 ≤ unit)
    (env : SignalEnv) (status : GateStatus) (hq : 0 < plan.qty) (hp : 0 ≤ plan.buyPrice)
    (hslice : ∀ q senv, 0 ≤ q →
      committed weight (plan.dispatchSlice env status q senv) ≤ q * unit) :
    committed weight (plan.slices.zipIdx.flatMap fun x =>
      plan.dispatchSlice env status x.1.quantity (env.slices x.2)) ≤ plan.qty * unit := by
  obtain ⟨hnn, hsum⟩ := slices_spec hq hp
  have hall : ∀ (l : List (OrderSlice × ℕ)), (∀ x ∈ l, 0 ≤ x.1.quantity) →
      committed weight (l.flatMap fun x =>
        plan.dispatchSlice env status x.1.quantity (env.slices x.2)) ≤
        (l.map fun x => x.1.quantity).sum * unit := by
    intro l
    induction l with
    | nil => simp [committed]
    | cons x l ih =>
      intro hl
      rw [List.flatMap_cons, committed_append, List.map_cons, List.sum_cons, add_mul]
      exact add_le_add (hslice _ _ (hl x (by simp))) (ih fun y hy => hl y (by simp [hy]))
  have hquantities : (plan.slices.zipIdx.map fun x => x.1.quantity) =
      plan.slices.map OrderSlice.quantity := by
    calc (plan.slices.zipIdx.map fun x => x.1.quantity)
        = (plan.slices.zipIdx.map Prod.fst).map OrderSlice.quantity := by
          rw [List.map_map]
          rfl
      _ = plan.slices.map OrderSlice.quantity := by rw [List.zipIdx_map_fst]
  calc _ ≤ (plan.slices.zipIdx.map fun x => x.1.quantity).sum * unit :=
        hall _ fun x hx => hnn x.1 (List.fst_mem_of_mem_zipIdx hx)
    _ = (plan.slices.map OrderSlice.quantity).sum * unit := by rw [hquantities]
    _ ≤ plan.qty * unit := mul_le_mul_of_nonneg_right hsum hunit

/-- The dispatches of a slice are its dispatched orders. -/
lemma dispatched_mem_dispatchSlice_iff (plan : CrossPlan) (env : SignalEnv) (status : GateStatus)
    (q : Decimal) (senv : SliceEnv) (r : Route) (o : OrderIntent) (st : GateStatus) :
    Event.dispatched r o st ∈ plan.dispatchSlice env status q senv ↔
      ∃ c ∈ dispatchedOrders (plan.buyOrder q) (plan.sellOrder q),
        plan.route = r ∧ plan.toIntent c = o ∧ status = st := by
  have hafter :
      Event.dispatched r o st ∉ plan.afterSlice q senv (plan.sliceResult env q senv) := by
    intro h
    unfold afterSlice at h
    split_ifs at h <;> simp at h
  rw [dispatchSlice, List.mem_append, or_iff_left hafter, sliceDispatches, List.mem_map]
  simp only [Event.dispatched.injEq]

end CrossPlan

/-! ## Steps -/

/-- The orders of a triangular blast are not on a cross-exchange route. -/
lemma route_of_mem_blastTriangularLegs {e : HighFrequencyExecutionEngine} {env : BlastEnv}
    {leg0 leg1 leg2 : Leg} {p c : UInt64} {r : Route} {o : OrderIntent} {status : GateStatus}
    (h : Event.dispatched r o status ∈ (e.blastTriangularLegs env leg0 leg1 leg2 p c).2.2) :
    r = .triangular := by
  have hmem := e.mem_dispatches_of_mem_blast triangularKind env [leg0, leg1, leg2] p c h
  obtain ⟨o', -, heq⟩ := List.mem_map.mp hmem
  exact (Event.dispatched.inj heq).1.symm

/-- A step dispatches orders on a cross-exchange route exactly when it has a plan on it. -/
lemma dispatched_mem_loopStep_iff (cfg : LoopConfig) (e : HighFrequencyExecutionEngine)
    (st : LoopStep) (b s t : UInt16) :
    (∃ o status, Event.dispatched (.crossExchange b s t) o status ∈ (loopStep cfg e st).2) ↔
      ∃ plan, st.plan cfg = some plan ∧ plan.route = .crossExchange b s t := by
  cases st with
  | equity equityNow networkNow => simp [loopStep, LoopStep.plan]
  | write w => simp [loopStep, LoopStep.plan]
  | signal env sig =>
    cases sig with
    | triangular exch tokenA tokenB tokenC profitBps =>
      refine iff_of_false ?_ (by simp [LoopStep.plan])
      rintro ⟨o, status, hmem⟩
      simp only [loopStep, handleSignal] at hmem
      split at hmem
      · simp at hmem
      · exact absurd (route_of_mem_blastTriangularLegs hmem) (by simp)
    | crossExchange b' s' t' bps =>
      simp only [loopStep, handleSignal, LoopStep.plan]
      cases hplan : planCross cfg env b' s' t' bps with
      | none => simp
      | some plan =>
        simp only [Option.filter_some, Bool.not_eq_true', List.isEmpty_eq_false_iff]
        constructor
        · rintro ⟨o, status, hmem⟩
          obtain ⟨x, hx, hev⟩ := List.mem_flatMap.mp hmem
          obtain ⟨c, hc, hroute, -⟩ :=
            (plan.dispatched_mem_dispatchSlice_iff env _ _ _ _ _ _).mp hev
          have horders : plan.orders ≠ [] := by
            apply List.ne_nil_of_mem
            exact List.mem_flatMap.mpr ⟨x.1, List.fst_mem_of_mem_zipIdx hx, hc⟩
          exact ⟨plan, by rw [if_pos horders], hroute⟩
        · rintro ⟨plan', hsome, hroute⟩
          rw [Option.ite_none_right_eq_some] at hsome
          obtain ⟨horders, heq⟩ := hsome
          obtain rfl := Option.some.inj heq
          obtain ⟨c, hc⟩ := List.exists_mem_of_ne_nil _ horders
          obtain ⟨sl, hsl, hc⟩ := List.mem_flatMap.mp hc
          obtain ⟨i, hi⟩ := List.mem_iff_getElem?.mp hsl
          refine ⟨plan.toIntent c, e.gateStatus env.today env.depegActive,
            List.mem_flatMap.mpr ⟨(sl, i), List.mem_zipIdx_iff_getElem?.mpr hi, ?_⟩⟩
          exact (plan.dispatched_mem_dispatchSlice_iff env _ _ _ _ _ _).mpr
            ⟨c, hc, hroute, rfl, rfl⟩

/-- A plan of a step comes from a cross-exchange signal. -/
lemma plan_eq_some {cfg : LoopConfig} {st : LoopStep} {plan : CrossPlan}
    (h : st.plan cfg = some plan) :
    ∃ env b s t bps, st = .signal env (.crossExchange b s t bps) ∧
      planCross cfg env b s t bps = some plan := by
  cases st with
  | equity equityNow networkNow => cases h
  | write w => cases h
  | signal env sig =>
    cases sig with
    | triangular exch tokenA tokenB tokenC profitBps => cases h
    | crossExchange b s t bps =>
      obtain ⟨hplan, -⟩ := Option.filter_eq_some_iff.mp h
      exact ⟨env, b, s, t, bps, rfl, hplan⟩

section

variable (weight : OrderIntent → Decimal) (unit : CrossPlan → Decimal)
  (hunit : ∀ plan : CrossPlan, 0 ≤ plan.buyPrice → 0 ≤ unit plan)
  (hslice : ∀ (plan : CrossPlan) env status q senv, 0 ≤ q → 0 ≤ plan.buyPrice →
    committed weight (plan.dispatchSlice env status q senv) ≤ q * unit plan)

include hunit hslice

/-- What a step commits is bounded by its plan. -/
lemma committed_loopStep_le (cfg : LoopConfig) (e : HighFrequencyExecutionEngine)
    (st : LoopStep) :
    committed weight (loopStep cfg e st).2 ≤
      (st.plan cfg).elim 0 fun plan => plan.qty * unit plan := by
  cases hplan : st.plan cfg with
  | none =>
    apply le_of_eq
    apply committed_eq_zero
    intro b s t o status hev
    obtain ⟨plan, hsome, -⟩ := (dispatched_mem_loopStep_iff cfg e st b s t).mp ⟨o, status, hev⟩
    rw [hplan] at hsome
    cases hsome
  | some plan =>
    obtain ⟨env, b, s, t, bps, rfl, hcross⟩ := plan_eq_some hplan
    obtain ⟨-, ⟨hq, hp⟩, -⟩ := planCross_spec hcross
    simp only [loopStep, handleSignal, hcross]
    exact CrossPlan.committed_slices_le (hunit plan hp) env _ hq hp fun q senv hq' =>
      hslice plan env _ q senv hq' hp

/-- What a run commits is bounded by its plans. -/
lemma committed_run_le (cfg : LoopConfig) (e : HighFrequencyExecutionEngine)
    (steps : List LoopStep) :
    committed weight (runTrace (loopStep cfg) e steps) ≤
      ((steps.filterMap (LoopStep.plan cfg)).map fun plan => plan.qty * unit plan).sum := by
  have hplans : (steps.map fun st => (st.plan cfg).elim 0 fun plan => plan.qty * unit plan).sum =
      ((steps.filterMap (LoopStep.plan cfg)).map fun plan => plan.qty * unit plan).sum := by
    induction steps with
    | nil => rfl
    | cons st steps ih =>
      rw [List.map_cons, List.sum_cons, List.filterMap_cons]
      cases hplan : st.plan cfg with
      | none => simpa using ih
      | some plan => simpa using ih
  rw [← hplans]
  exact sum_runTrace_le
    (fun e st => committed_loopStep_le weight unit hunit hslice cfg e st) e steps

end

/-! ## Runs of ticks -/

/-- The steps of a run of ticks. -/
def runSteps (cfg : LoopConfig) (ticks : List TickEnv) : List LoopStep :=
  ticks.flatMap (tickSteps cfg)

/-- The prices do not change within the tick. -/
def TickEnv.PricesStable (tick : TickEnv) : Prop :=
  ∃ bids asks, ∀ x k j,
    ((tick.evalArena x k).bidPrices = bids ∧ (tick.evalArena x k).askPrices = asks) ∧
    (tick.handling x k j).arena.bidPrices = bids ∧ (tick.handling x k j).arena.askPrices = asks

/-- Nothing the evaluation and the checks read changes within the tick. -/
def TickEnv.Steady (tick : TickEnv) : Prop :=
  ∃ arena allocator, ∀ x k j, tick.evalArena x k = arena ∧
    (tick.handling x k j).arena = arena ∧ (tick.handling x k j).allocator = allocator

/-- Every signal of the run finds the balances of the allocator. -/
def SameBalances (allocator : LocalCapitalAllocator) (ticks : List TickEnv) : Prop :=
  ∀ tick ∈ ticks, ∀ x k j exchangeId tokenId,
    (tick.handling x k j).allocator.getBalanceAtomic exchangeId tokenId =
      allocator.getBalanceAtomic exchangeId tokenId

/-- The orders of the run stay within the balances, and a tick of stable prices dispatches no
opportunity twice. -/
structure CommitsWithin (cfg : LoopConfig) (e : HighFrequencyExecutionEngine)
    (allocator : LocalCapitalAllocator) (ticks : List TickEnv) : Prop where
  buys : ∀ before after, runSteps cfg ticks = before ++ after → ∀ x,
    committed (buyNotional x) (runTrace (loopStep cfg) e before) ≤
      allocator.getBalanceAtomic x.toNat 0
  sells : ∀ before after, runSteps cfg ticks = before ++ after → ∀ x t,
    committed (sellQty x t) (runTrace (loopStep cfg) e before) ≤
      allocator.getBalanceAtomic x.toNat t.toNat
  once : ∀ before tick after, ticks = before ++ tick :: after → tick.PricesStable → ∀ b s t,
    (stepTraces (loopStep cfg) (runState (loopStep cfg) e (runSteps cfg before))
      (tickSteps cfg tick)).countP (fun evs => evs.any (Event.onRoute (.crossExchange b s t))) ≤ 1

/-- No two plans of the steps draw on one balance. -/
def DrawnOnce (cfg : LoopConfig) (steps : List LoopStep) : Prop :=
  (steps.filterMap (LoopStep.plan cfg)).Pairwise fun plan plan' =>
    plan.buyExchange ≠ plan'.buyExchange ∧
      (plan.sellExchange, plan.tokenId) ≠ (plan'.sellExchange, plan'.tokenId)

/-- A signal among the steps of a tick is a reported signal of one of its slots. -/
lemma signal_mem_tickSteps_iff {cfg : LoopConfig} {tick : TickEnv} {env : SignalEnv}
    {sig : ArbitrageSignal} :
    .signal env sig ∈ tickSteps cfg tick ↔
      tick.dmsTripped = false ∧ ∃ tokens, tick.tokens = some tokens ∧
        ∃ x k, ∃ token : UInt16, ∃ j, x < cfg.numExch ∧ tokens[k]? = some token ∧
          ((tick.evalArena x k).evaluateTick x token.toNat cfg.minCrossBps
            cfg.minTriBps)[j]? = some sig ∧
          env = tick.handling x k j := by
  unfold tickSteps
  cases tick.dmsTripped with
  | true => simp
  | false =>
    have hequity : LoopStep.signal env sig ∉
        (if tick.tickCounter % 10 = 1 then
          [LoopStep.equity tick.equityNow tick.networkNow] else []) := by
      split_ifs <;> simp
    simp only [Bool.false_eq_true, if_false, List.mem_append, hequity, false_or, true_and]
    cases tick.tokens with
    | none => simp
    | some tokens =>
      simp only [sweepSteps, slotSteps, List.mem_flatMap, List.mem_range, Prod.exists,
        List.mem_zipIdx_iff_getElem?, List.mem_append, List.mem_map, reduceCtorEq, and_false,
        exists_false, List.mem_singleton, LoopStep.signal.injEq, false_or, Option.some.injEq,
        exists_eq_left']
      constructor
      · rintro ⟨x, hx, token, k, hk, sig', j, hj, rfl, rfl⟩
        exact ⟨x, k, token, j, hx, hk, hj, rfl⟩
      · rintro ⟨x, k, token, j, hx, hk, hj, rfl⟩
        exact ⟨x, hx, token, k, hk, sig, j, hj, rfl, rfl⟩

/-- The plans of a run are within the balances, each by itself. -/
lemma plan_within {cfg : LoopConfig} {allocator : LocalCapitalAllocator} {ticks : List TickEnv}
    (hsame : SameBalances allocator ticks) {plan : CrossPlan}
    (h : plan ∈ (runSteps cfg ticks).filterMap (LoopStep.plan cfg)) :
    plan.qty * plan.buyPrice ≤ allocator.getBalanceAtomic plan.buyExchange.toNat 0 ∧
      plan.qty ≤ allocator.getBalanceAtomic plan.sellExchange.toNat plan.tokenId.toNat := by
  obtain ⟨st, hst, hplan⟩ := List.mem_filterMap.mp h
  obtain ⟨env, b, s, t, bps, rfl, hcross⟩ := plan_eq_some hplan
  obtain ⟨tick, htick, hmem⟩ := List.mem_flatMap.mp hst
  obtain ⟨-, tokens, -, x, k, token, j, -, -, -, rfl⟩ := signal_mem_tickSteps_iff.mp hmem
  obtain ⟨⟨rfl, rfl, rfl⟩, -, hbuy, hsell⟩ := planCross_spec hcross
  rw [hsame tick htick] at hbuy hsell
  exact ⟨by rwa [mul_comm] at hbuy, hsell⟩

/-- The steps before some point of a run draw on no balance twice when the run does not. -/
lemma DrawnOnce.left {cfg : LoopConfig} {before after : List LoopStep}
    (h : DrawnOnce cfg (before ++ after)) : DrawnOnce cfg before := by
  unfold DrawnOnce at h
  rw [List.filterMap_append] at h
  exact (List.pairwise_append.mp h).1

/-- The steps of one tick draw on no balance twice when the run does not. -/
lemma DrawnOnce.tick {cfg : LoopConfig} {before after : List TickEnv} {tick : TickEnv}
    (h : DrawnOnce cfg (runSteps cfg (before ++ tick :: after))) :
    DrawnOnce cfg (tickSteps cfg tick) := by
  unfold DrawnOnce runSteps at h
  rw [List.flatMap_append, List.flatMap_cons, List.filterMap_append, List.filterMap_append] at h
  exact (List.pairwise_append.mp (List.pairwise_append.mp h).2.1).1

/-- How often a tick dispatches an opportunity, counted on its plans. -/
lemma countP_onRoute_eq (cfg : LoopConfig) (e : HighFrequencyExecutionEngine)
    (steps : List LoopStep) (b s t : UInt16) :
    (stepTraces (loopStep cfg) e steps).countP
        (fun evs => evs.any (Event.onRoute (.crossExchange b s t))) =
      (steps.filterMap (LoopStep.plan cfg)).countP
        fun plan => decide (plan.route = .crossExchange b s t) := by
  rw [List.countP_filterMap]
  apply countP_stepTraces
  intro e st
  have hany : (loopStep cfg e st).2.any (Event.onRoute (.crossExchange b s t)) = true ↔
      ∃ o status, Event.dispatched (.crossExchange b s t) o status ∈ (loopStep cfg e st).2 := by
    rw [List.any_eq_true]
    constructor
    · rintro ⟨ev, hev, hroute⟩
      cases ev with
      | dispatched r o status =>
        obtain rfl := of_decide_eq_true hroute
        exact ⟨o, status, hev⟩
      | _ => simp [Event.onRoute] at hroute
    · rintro ⟨o, status, hev⟩
      exact ⟨_, hev, by simp [Event.onRoute]⟩
  rw [Bool.eq_iff_iff, hany, dispatched_mem_loopStep_iff]
  cases st.plan cfg with
  | none => simp
  | some plan => simp

/-- A run in which no two plans draw on one balance stays within the balances. -/
lemma commitsWithin_of_drawnOnce {cfg : LoopConfig} (e : HighFrequencyExecutionEngine)
    {allocator : LocalCapitalAllocator} {ticks : List TickEnv}
    (hsame : SameBalances allocator ticks) (h : DrawnOnce cfg (runSteps cfg ticks)) :
    CommitsWithin cfg e allocator ticks := by
  have hmem : ∀ before after, runSteps cfg ticks = before ++ after →
      ∀ plan ∈ before.filterMap (LoopStep.plan cfg),
        plan ∈ (runSteps cfg ticks).filterMap (LoopStep.plan cfg) := by
    intro before after heq plan hplan
    rw [heq, List.filterMap_append]
    exact List.mem_append_left _ hplan
  refine ⟨?_, ?_, ?_⟩
  · intro before after heq x
    refine (committed_run_le (buyNotional x)
      (fun plan => if plan.buyExchange = x then plan.buyPrice else 0) ?_ ?_ cfg e before).trans ?_
    · intro plan hp
      split
      · exact hp
      · exact le_rfl
    · intro plan env status q senv hq hp
      exact CrossPlan.committed_buyNotional_le x env status senv hq hp
    · simp only [mul_ite, mul_zero]
      have hdrawn : DrawnOnce cfg before := DrawnOnce.left (heq ▸ h)
      refine sum_le_of_pairwise_ne (allocator.getBalanceAtomic_nonneg _ _)
        (hdrawn.imp fun hne => hne.1) ?_
      rintro plan hplan rfl
      exact (plan_within hsame (hmem before after heq plan hplan)).1
  · intro before after heq x t
    refine (committed_run_le (sellQty x t)
      (fun plan => if plan.sellExchange = x ∧ plan.tokenId = t then 1 else 0) ?_ ?_ cfg e
      before).trans ?_
    · intro plan _
      split
      · exact zero_le_one
      · exact le_rfl
    · intro plan env status q senv hq _
      exact CrossPlan.committed_sellQty_le x t env status senv hq
    · simp only [mul_ite, mul_zero, mul_one, ← Prod.mk.injEq]
      have hdrawn : DrawnOnce cfg before := DrawnOnce.left (heq ▸ h)
      refine sum_le_of_pairwise_ne (allocator.getBalanceAtomic_nonneg _ _)
        (hdrawn.imp fun hne => hne.2) ?_
      intro plan hplan hkey
      obtain ⟨rfl, rfl⟩ := Prod.mk.inj hkey
      exact (plan_within hsame (hmem before after heq plan hplan)).2
  · rintro before tick after rfl - b s t
    rw [countP_onRoute_eq]
    refine countP_le_one_of_pairwise h.tick ?_
    rintro plan plan' hplan hplan' ⟨hne, -⟩
    have hroute := (of_decide_eq_true hplan).trans (of_decide_eq_true hplan').symm
    exact hne (Route.crossExchange.inj hroute).1

/-! ## Steady ticks -/

/-- The checks of a signal read the arena and the allocator only. -/
lemma planCross_congr (cfg : LoopConfig) (env env' : SignalEnv) (harena : env.arena = env'.arena)
    (halloc : env.allocator = env'.allocator) (b s t : UInt16) (bps : UInt64) :
    planCross cfg env b s t bps = planCross cfg env' b s t bps := by
  obtain ⟨arena, allocator⟩ := env
  obtain ⟨arena', allocator'⟩ := env'
  obtain rfl : arena = arena' := harena
  obtain rfl : allocator = allocator' := halloc
  rfl

/-- Cross-exchange signals do not depend on the updated exchange. -/
lemma crossExchange_mem_evaluateTick_iff (a : MarketArena) (x x' token : ℕ)
    (minCross minTri : UInt64) (b s t : UInt16) (bps : UInt64) :
    ArbitrageSignal.crossExchange b s t bps ∈ a.evaluateTick x token minCross minTri ↔
      .crossExchange b s t bps ∈ a.evaluateTick x' token minCross minTri := by
  have htri : ∀ x, ArbitrageSignal.crossExchange b s t bps ∉ a.triSignals x token minTri := by
    intro x h
    unfold MarketArena.triSignals at h
    split at h
    · obtain ⟨tri, -, htri⟩ := List.mem_filterMap.mp h
      unfold MarketArena.triLoopSignal at htri
      dsimp only at htri
      iterate 4 rw [Option.ite_none_left_eq_some] at htri
      simp only [Option.bind_eq_bind, Option.bind_eq_some_iff, Option.ite_none_left_eq_some,
        Option.ite_none_right_eq_some] at htri
      obtain ⟨-, -, -, -, step3, -, -, net, -, -, heq⟩ := htri
      cases heq
    · simp at h
  simp only [MarketArena.evaluateTick, List.mem_append, htri, or_false]

/-- In a steady tick every opportunity that sends orders is dispatched once per exchange. -/
lemma numExch_le_countP {cfg : LoopConfig} {tick : TickEnv} (hsteady : tick.Steady)
    {st : LoopStep} (hst : st ∈ tickSteps cfg tick) {plan : CrossPlan}
    (hplan : st.plan cfg = some plan) :
    cfg.numExch ≤ ((tickSteps cfg tick).filterMap (LoopStep.plan cfg)).countP
      fun plan' => decide (plan'.route = plan.route) := by
  obtain ⟨arena, allocator, hsame⟩ := hsteady
  obtain ⟨env, b, s, t, bps, rfl, hcross⟩ := plan_eq_some hplan
  obtain ⟨hdms, tokens, htokens, x, k, token, j, hx, hk, hj, rfl⟩ :=
    signal_mem_tickSteps_iff.mp hst
  have hsteps : tickSteps cfg tick =
      (if tick.tickCounter % 10 = 1 then
        [LoopStep.equity tick.equityNow tick.networkNow] else []) ++
          sweepSteps cfg tick tokens := by
    rw [tickSteps, hdms, htokens]
    rfl
  rw [List.countP_filterMap, hsteps, List.countP_append, sweepSteps, List.countP_flatMap]
  refine le_trans ?_ (Nat.le_add_left _ _)
  -- every exchange of the sweep reports the signal again
  have hone : ∀ n ∈ (List.range cfg.numExch).map ((List.countP fun st =>
      ((LoopStep.plan cfg st).map fun plan' => decide (plan'.route = plan.route)).getD false) ∘
        fun exchId => tokens.zipIdx.flatMap fun y => slotSteps cfg tick exchId y.1 y.2), 1 ≤ n := by
    intro n hn
    obtain ⟨x', -, rfl⟩ := List.mem_map.mp hn
    rw [Function.comp_apply, Nat.one_le_iff_ne_zero, ← Nat.pos_iff_ne_zero, List.countP_pos_iff]
    have hsig : ArbitrageSignal.crossExchange b s t bps ∈
        (tick.evalArena x' k).evaluateTick x' token.toNat cfg.minCrossBps cfg.minTriBps := by
      rw [(hsame x' k 0).1, crossExchange_mem_evaluateTick_iff arena x' x, ← (hsame x k j).1]
      exact List.mem_of_getElem? hj
    obtain ⟨j', hj'⟩ := List.mem_iff_getElem?.mp hsig
    have hplan' : (LoopStep.signal (tick.handling x' k j') (.crossExchange b s t bps)).plan cfg =
        some plan := by
      rw [← hplan, LoopStep.plan, LoopStep.plan]
      rw [planCross_congr cfg (tick.handling x' k j') (tick.handling x k j)
        ((hsame x' k j').2.1.trans (hsame x k j).2.1.symm)
        ((hsame x' k j').2.2.trans (hsame x k j).2.2.symm)]
    refine ⟨.signal (tick.handling x' k j') (.crossExchange b s t bps),
      List.mem_flatMap.mpr ⟨(token, k), List.mem_zipIdx_iff_getElem?.mpr hk, ?_⟩, by simp [hplan']⟩
    refine List.mem_flatMap.mpr ⟨(.crossExchange b s t bps, j'),
      List.mem_zipIdx_iff_getElem?.mpr hj', ?_⟩
    exact List.mem_append_right _ (List.mem_singleton.mpr rfl)
  simpa using List.length_le_sum_of_one_le _ hone

/-- The prices of a steady tick are stable. -/
lemma TickEnv.Steady.pricesStable {tick : TickEnv} (h : tick.Steady) : tick.PricesStable := by
  obtain ⟨arena, allocator, hsame⟩ := h
  refine ⟨arena.bidPrices, arena.askPrices, ?_⟩
  intro x k j
  obtain ⟨heval, hhandling, -⟩ := hsame x k j
  rw [heval, hhandling]
  exact ⟨⟨rfl, rfl⟩, rfl, rfl⟩

end HftArb
