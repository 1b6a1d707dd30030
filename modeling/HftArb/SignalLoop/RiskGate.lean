import HftArb.SignalLoop.Loop

/-!
# Which orders pass the risk gate

A new order should reach a pipeline only when, within the tick, the risk gate has accepted its
exchange and no switch is on (`RiskGated`).  A triangular signal goes through a blast, which runs
the gate on every leg and reads the switches itself.  A cross-exchange signal goes straight to the
executor, so that its orders meet the rule only by luck: when all switches happen to be off and a
triangular blast on their exchange was accepted earlier in the tick (`AcceptedBefore`).
`tickTrace_riskGated_iff` says that this is all there is to it.
-/

namespace HftArb

open Runs

/-- A new order needs an acceptance of its exchange by the gate and clear switches. -/
def RiskGated (before : List Event) : Event → Prop
  | .dispatched _ intent status =>
    Event.gateAccepted intent.exchangeId ∈ before ∧ status = .clear
  | _ => True

instance RiskGated.decidable (before : List Event) : ∀ ev, Decidable (RiskGated before ev)
  | .dispatched .. => inferInstanceAs (Decidable (_ ∧ _))
  | .gateAccepted .. => .isTrue trivial
  | .counterOrder .. => .isTrue trivial
  | .dailyPnl .. => .isTrue trivial
  | .cancelSweep => .isTrue trivial
  | .rebalance .. => .isTrue trivial

/-- Only an acceptance by the gate gives a permission. -/
lemma riskGated_append_iff {ev : Event} (h : ∀ x, ev ≠ .gateAccepted x) (before : List Event)
    (ev' : Event) : RiskGated (before ++ [ev]) ev' ↔ RiskGated before ev' := by
  cases ev' with
  | dispatched route intent status => simp [RiskGated, (h intent.exchangeId).symm]
  | _ => exact Iff.rfl

/-- Without acceptances a trace is guarded exactly when its history allows each of its events. -/
lemma riskGatedFrom_iff {tr : List Event} (h : ∀ x, Event.gateAccepted x ∉ tr)
    (history : List Event) :
    GuardedFrom RiskGated history tr ↔ ∀ ev ∈ tr, RiskGated history ev := by
  apply guardedFrom_iff_forall
  intro before ev hev ev'
  apply riskGated_append_iff
  rintro x rfl
  exact h x hev

/-! ## Blasts -/

/-- The gate has accepted the exchanges of all legs it let through. -/
lemma acceptedExchanges_of_acceptsAll {rm : RiskManager} {p s c : UInt64}
    {inputs : List (GateClock × UInt16)} (h : rm.AcceptsAll p s c inputs) :
    acceptedExchanges rm p s c inputs = inputs.map Prod.snd := by
  induction inputs generalizing rm with
  | nil => rfl
  | cons input inputs ih =>
    obtain ⟨clk, x⟩ := input
    obtain ⟨ha, hrest⟩ := h
    rw [acceptedExchanges, if_pos ha, ih hrest]
    rfl

/-- When all legs are on one exchange, an exchange is accepted exactly when it is that one and the
first leg passes. -/
lemma mem_acceptedExchanges_iff (rm : RiskManager) (p s c : UInt64) (clk : GateClock)
    (x y : UInt16) {rest : List (GateClock × UInt16)} (hrest : ∀ i ∈ rest, i.2 = x) :
    y ∈ acceptedExchanges rm p s c ((clk, x) :: rest) ↔ y = x ∧ rm.Accepts clk p s c x := by
  have hsame : ∀ (inputs : List (GateClock × UInt16)) (rm : RiskManager),
      (∀ i ∈ inputs, i.2 = x) → y ∈ acceptedExchanges rm p s c inputs → y = x := by
    intro inputs
    induction inputs with
    | nil =>
      intro rm _ hy
      simp [acceptedExchanges] at hy
    | cons input inputs ih =>
      intro rm hall hy
      obtain ⟨clk', x'⟩ := input
      have hx' : x' = x := hall (clk', x') (by simp)
      rw [acceptedExchanges] at hy
      split at hy
      · rcases List.mem_cons.mp hy with hy | hy
        · exact hy.trans hx'
        · exact ih (rm.reserved s) (fun i hi => hall i (by simp [hi])) hy
      · simp at hy
  constructor
  · intro hy
    rw [acceptedExchanges] at hy
    split at hy
    · next ha =>
      rcases List.mem_cons.mp hy with hy | hy
      · exact ⟨hy, ha⟩
      · exact ⟨hsame rest (rm.reserved s) hrest hy, ha⟩
    · simp at hy
  · rintro ⟨rfl, ha⟩
    rw [acceptedExchanges, if_pos ha]
    simp

namespace HighFrequencyExecutionEngine

variable (e : HighFrequencyExecutionEngine) (kind : BlastKind) (env : BlastEnv) (legs : List Leg)
  (p c : UInt64)

/-- Behind the switches and an accepting gate, without a depeg, no switch is on. -/
lemma gatedEngine_gateStatus {clk : GateClock} {s : UInt64} {x : UInt16} (hb : ¬ e.Blocked env)
    (ha : e.riskManager.Accepts clk p s c x) (hd : env.depegActive = false) :
    (e.gatedEngine kind env legs).gateStatus env.today env.depegActive = .clear := by
  obtain ⟨hf, hk⟩ := e.riskManager.not_frozen_of_accepts clk p s c x ha
  simp only [Blocked, not_or, Bool.not_eq_true] at hb
  obtain ⟨-, hv, hl⟩ := hb
  have hvol : (e.gatedEngine kind env legs).volatilityCircuit = e.volatilityCircuit := by
    unfold gatedEngine checkDailyReset
    split <;> rfl
  have hloss : (e.gatedEngine kind env legs).dailyLossReached env.today = false := by
    rw [← hl, dailyLossReached_eq, dailyLossReached_eq]
    by_cases h : env.today = e.dailyResetDay
    · simp [gatedEngine, checkDailyReset, h]
    · simp [gatedEngine, checkDailyReset, h]
  have hfrozen : (e.gatedEngine kind env legs).riskManager.frozen = false := hf
  have hkill : (e.gatedEngine kind env legs).riskManager.killSwitch = false := hk
  simp only [gateStatus, hfrozen, hkill, hd, hvol, hv, hloss, GateStatus.clear]

/-- A triangular blast meets the rule by itself. -/
lemma blastTriangularLegs_riskGated (e : HighFrequencyExecutionEngine) (env : BlastEnv)
    (leg0 leg1 leg2 : Leg) (p c : UInt64) (history : List Event) :
    GuardedFrom RiskGated history (e.blastTriangularLegs env leg0 leg1 leg2 p c).2.2 := by
  unfold blastTriangularLegs
  by_cases hb : e.Blocked env
  · obtain ⟨msg, h⟩ := e.blast_of_blocked triangularKind env [leg0, leg1, leg2] p c hb
    rw [h]
    trivial
  · obtain ⟨rest, h, hnone, hdisp⟩ :=
      e.blast_events triangularKind env [leg0, leg1, leg2] p c hb
    rw [h, guardedFrom_append]
    constructor
    · apply guardedFrom_of_forall
      intro before ev hev
      obtain ⟨x, -, rfl⟩ := List.mem_map.mp hev
      trivial
    · rw [riskGatedFrom_iff hnone]
      intro ev hev
      cases ev with
      | dispatched route o status =>
        obtain ⟨hp, hd, hmem⟩ := hdisp route o status hev
        obtain ⟨o', ho', heq⟩ := List.mem_map.mp hmem
        obtain ⟨l, hl, rfl⟩ := List.mem_map.mp ho'
        obtain ⟨-, rfl, rfl⟩ := Event.dispatched.inj heq
        refine ⟨?_, e.gatedEngine_gateStatus _ env _ p c hb hp.1 hd⟩
        have hall := acceptedExchanges_of_acceptsAll hp
        refine List.mem_append_right _ (List.mem_map_of_mem ?_)
        rw [hall, BlastKind.gateInputs, List.map_map]
        exact List.mem_map.mpr ⟨l, hl, by simp⟩
      | _ => trivial

/-- A triangular blast on one exchange gets that exchange accepted exactly when it is behind the
switches and its first leg passes the gate. -/
lemma gateAccepted_mem_blastTriangularLegs_iff {exch : UInt16} (leg0 leg1 leg2 : Leg)
    (h0 : leg0.intent.exchangeId = exch) (h1 : leg1.intent.exchangeId = exch)
    (h2 : leg2.intent.exchangeId = exch) (x : UInt16) :
    Event.gateAccepted x ∈ (e.blastTriangularLegs env leg0 leg1 leg2 p c).2.2 ↔
      x = exch ∧ ¬ e.Blocked env ∧ e.riskManager.Accepts leg0.gateClock p
        (triangularKind.sizeFp [leg0.intent, leg1.intent, leg2.intent]) c exch := by
  have hrest : ∀ i ∈ [(leg1.gateClock, exch), (leg2.gateClock, exch)], i.2 = exch := by simp
  have hmem := mem_acceptedExchanges_iff e.riskManager p
    (triangularKind.sizeFp [leg0.intent, leg1.intent, leg2.intent]) c leg0.gateClock exch x hrest
  have hinputs : triangularKind.gateInputs [leg0, leg1, leg2] =
      [(leg0.gateClock, exch), (leg1.gateClock, exch), (leg2.gateClock, exch)] := by
    simp [BlastKind.gateInputs, triangularKind, h0, h1, h2]
  have hblast := e.gateAccepted_mem_blast_iff triangularKind env [leg0, leg1, leg2] p c x
  rw [hinputs] at hblast
  exact hblast.trans ((and_congr_right fun _ => hmem).trans and_left_comm)

end HighFrequencyExecutionEngine

/-! ## Ticks -/

/-- The orders of a triangular signal, their size and the switches let its blast past the gate. -/
def TriangularAccepts (cfg : LoopConfig) (e : HighFrequencyExecutionEngine) (env : SignalEnv)
    (exch tokenA tokenB tokenC : UInt16) (profitBps : UInt64) : Prop :=
  ∃ leg1 leg2 leg3, planTriangular cfg env exch tokenA tokenB tokenC = some (leg1, leg2, leg3) ∧
    ¬ e.Blocked ⟨env.today, env.depegActive, env.cutAt⟩ ∧
    e.riskManager.Accepts (env.legs 0).gateClock profitBps
      (triangularKind.sizeFp [leg1, leg2, leg3]) cfg.paperCapitalFp exch

/-- The gate has accepted a triangular signal of the exchange among the steps. -/
def AcceptedBefore (cfg : LoopConfig) (e : HighFrequencyExecutionEngine) (steps : List LoopStep)
    (exch : UInt16) : Prop :=
  ∃ before env tokenA tokenB tokenC profitBps after,
    steps = before ++ .signal env (.triangular exch tokenA tokenB tokenC profitBps) :: after ∧
    TriangularAccepts cfg (runState (loopStep cfg) e before) env exch tokenA tokenB tokenC profitBps

/-- The orders of a triangular signal are on its exchange. -/
lemma planTriangular_exchangeId {cfg : LoopConfig} {env : SignalEnv}
    {exch tokenA tokenB tokenC : UInt16} {leg1 leg2 leg3 : OrderIntent}
    (h : planTriangular cfg env exch tokenA tokenB tokenC = some (leg1, leg2, leg3)) :
    leg1.exchangeId = exch ∧ leg2.exchangeId = exch ∧ leg3.exchangeId = exch := by
  unfold planTriangular at h
  split at h
  · cases h
  · split at h
    · obtain ⟨rfl, rfl, rfl⟩ := by simpa [triangularLegs, Prod.ext_iff] using h
      exact ⟨rfl, rfl, rfl⟩
    · cases h

/-- The slices of a cross-exchange signal never reach the gate. -/
lemma gateAccepted_not_mem_dispatchSlice (plan : CrossPlan) (env : SignalEnv) (status : GateStatus)
    (quantity : Decimal) (senv : SliceEnv) (x : UInt16) :
    Event.gateAccepted x ∉ plan.dispatchSlice env status quantity senv := by
  unfold CrossPlan.dispatchSlice CrossPlan.sliceDispatches CrossPlan.afterSlice
  split_ifs <;> simp

/-- The steps that get an exchange accepted are the accepted triangular signals. -/
lemma gateAccepted_mem_loopStep_iff (cfg : LoopConfig) (e : HighFrequencyExecutionEngine)
    (st : LoopStep) (x : UInt16) :
    Event.gateAccepted x ∈ (loopStep cfg e st).2 ↔
      ∃ env tokenA tokenB tokenC profitBps,
        st = .signal env (.triangular x tokenA tokenB tokenC profitBps) ∧
        TriangularAccepts cfg e env x tokenA tokenB tokenC profitBps := by
  cases st with
  | equity equityNow networkNow => simp [loopStep]
  | write w => simp [loopStep]
  | signal env sig =>
    cases sig with
    | crossExchange buyExchange sellExchange tid spreadBps =>
      simp only [loopStep, handleSignal, LoopStep.signal.injEq, reduceCtorEq, and_false, false_and,
        exists_false, iff_false]
      split
      · simp
      · simp [gateAccepted_not_mem_dispatchSlice]
    | triangular exch tokenA tokenB tokenC profitBps =>
      simp only [loopStep, handleSignal, LoopStep.signal.injEq, ArbitrageSignal.triangular.injEq]
      cases hplan : planTriangular cfg env exch tokenA tokenB tokenC with
      | none =>
        refine iff_of_false (by simp) ?_
        rintro ⟨_, _, _, _, _, ⟨rfl, rfl, rfl, rfl, rfl, rfl⟩, leg1, leg2, leg3, h, -⟩
        rw [hplan] at h
        cases h
      | some legs =>
        obtain ⟨leg1, leg2, leg3⟩ := legs
        obtain ⟨h1, h2, h3⟩ := planTriangular_exchangeId hplan
        dsimp only
        rw [e.gateAccepted_mem_blastTriangularLegs_iff _ profitBps cfg.paperCapitalFp
          ⟨env.legs 0, leg1⟩ ⟨env.legs 1, leg2⟩ ⟨env.legs 2, leg3⟩ h1 h2 h3 x]
        constructor
        · rintro ⟨rfl, hb, ha⟩
          exact ⟨env, tokenA, tokenB, tokenC, profitBps, ⟨rfl, rfl, rfl, rfl, rfl, rfl⟩, leg1, leg2,
            leg3, hplan, hb, ha⟩
        · rintro ⟨_, _, _, _, _, ⟨rfl, rfl, rfl, rfl, rfl, rfl⟩, leg1', leg2', leg3', h, hb, ha⟩
          rw [hplan] at h
          cases h
          exact ⟨rfl, hb, ha⟩

/-- An exchange has been accepted in a run exactly when one of its triangular signals was. -/
lemma gateAccepted_mem_runTrace_iff (cfg : LoopConfig) (e : HighFrequencyExecutionEngine)
    (steps : List LoopStep) (x : UInt16) :
    Event.gateAccepted x ∈ runTrace (loopStep cfg) e steps ↔ AcceptedBefore cfg e steps x := by
  rw [mem_runTrace_iff]
  constructor
  · rintro ⟨before, st, after, heq, hmem⟩
    obtain ⟨env, tokenA, tokenB, tokenC, profitBps, rfl, hacc⟩ :=
      (gateAccepted_mem_loopStep_iff cfg _ st x).mp hmem
    exact ⟨before, env, tokenA, tokenB, tokenC, profitBps, after, heq, hacc⟩
  · rintro ⟨before, env, tokenA, tokenB, tokenC, profitBps, after, heq, hacc⟩
    exact ⟨before, _, after, heq, (gateAccepted_mem_loopStep_iff cfg _ _ x).mpr
      ⟨env, tokenA, tokenB, tokenC, profitBps, rfl, hacc⟩⟩

/-- What the events of a slice need is what its dispatched orders need. -/
lemma riskGated_dispatchSlice_iff (plan : CrossPlan) (env : SignalEnv) (status : GateStatus)
    (quantity : Decimal) (senv : SliceEnv) (history : List Event) :
    (∀ ev ∈ plan.dispatchSlice env status quantity senv, RiskGated history ev) ↔
      ∀ o ∈ dispatchedOrders (plan.buyOrder quantity) (plan.sellOrder quantity),
        Event.gateAccepted o.exchangeId ∈ history ∧ status = .clear := by
  have hafter : ∀ ev ∈ plan.afterSlice quantity senv (plan.sliceResult env quantity senv),
      RiskGated history ev := by
    intro ev hev
    cases ev with
    | dispatched route o status =>
      unfold CrossPlan.afterSlice at hev
      split_ifs at hev <;> simp at hev
    | _ => trivial
  unfold CrossPlan.dispatchSlice CrossPlan.sliceDispatches
  rw [List.forall_mem_append, and_iff_left hafter, List.forall_mem_map]
  exact Iff.rfl

/-- What a cross-exchange signal needs is that its orders meet an accepted exchange and clear
switches. -/
lemma handleSignal_crossExchange_riskGated_iff (cfg : LoopConfig)
    (e : HighFrequencyExecutionEngine) (env : SignalEnv) (b s t : UInt16) (bps : UInt64)
    (history : List Event) :
    GuardedFrom RiskGated history (handleSignal cfg e env (.crossExchange b s t bps)).2 ↔
      ∀ plan, planCross cfg env b s t bps = some plan → ∀ o ∈ plan.orders,
        Event.gateAccepted o.exchangeId ∈ history ∧
          e.gateStatus env.today env.depegActive = .clear := by
  cases hplan : planCross cfg env b s t bps with
  | none => simp [handleSignal, hplan, GuardedFrom]
  | some plan =>
    have hnone : ∀ x, Event.gateAccepted x ∉ plan.slices.zipIdx.flatMap fun y =>
        plan.dispatchSlice env (e.gateStatus env.today env.depegActive) y.1.quantity
          (env.slices y.2) := by
      intro x hx
      obtain ⟨y, -, hy⟩ := List.mem_flatMap.mp hx
      exact gateAccepted_not_mem_dispatchSlice _ _ _ _ _ _ hy
    simp only [handleSignal, hplan, Option.some.injEq, forall_eq']
    rw [riskGatedFrom_iff hnone, List.forall_mem_flatMap]
    simp only [riskGated_dispatchSlice_iff, CrossPlan.orders, List.forall_mem_flatMap]
    constructor
    · intro h sl hsl
      obtain ⟨i, hi⟩ := List.mem_iff_getElem?.mp hsl
      exact h (sl, i) (List.mem_zipIdx_iff_getElem?.mpr hi)
    · intro h y hy
      exact h y.1 (List.fst_mem_of_mem_zipIdx hy)

/-- A tick hands new orders to the pipelines only behind the risk gate exactly when every order of
its cross-exchange signals meets clear switches and an exchange that an earlier triangular signal of
the tick got accepted. -/
theorem tickTrace_riskGated_iff (cfg : LoopConfig) (e : HighFrequencyExecutionEngine)
    (env : TickEnv) :
    Guarded RiskGated (tickTrace cfg e env) ↔
      ∀ before senv b s t bps after plan,
        tickSteps cfg env = before ++ .signal senv (.crossExchange b s t bps) :: after →
        planCross cfg senv b s t bps = some plan →
        ∀ o ∈ plan.orders, AcceptedBefore cfg e before o.exchangeId ∧
          (runState (loopStep cfg) e before).gateStatus senv.today senv.depegActive = .clear := by
  unfold Guarded tickTrace
  rw [guardedFrom_runTrace_iff]
  constructor
  · intro h before senv b s t bps after plan heq hplan
    have hsig := h before _ after heq
    simp only [loopStep, List.nil_append] at hsig
    rw [handleSignal_crossExchange_riskGated_iff] at hsig
    simpa only [gateAccepted_mem_runTrace_iff] using hsig plan hplan
  · intro h before st after heq
    cases st with
    | equity equityNow networkNow => trivial
    | write w => trivial
    | signal senv sig =>
      cases sig with
      | crossExchange b s t bps =>
        simp only [loopStep, List.nil_append]
        rw [handleSignal_crossExchange_riskGated_iff]
        simpa only [gateAccepted_mem_runTrace_iff] using
          fun plan => h before senv b s t bps after plan heq
      | triangular exch tokenA tokenB tokenC profitBps =>
        simp only [loopStep, handleSignal]
        split
        · trivial
        · exact HighFrequencyExecutionEngine.blastTriangularLegs_riskGated ..

/-- A frozen engine. -/
def frozenEngine : HighFrequencyExecutionEngine :=
  HighFrequencyExecutionEngine.test.write (.frozen true)

/-- The small market trades through a frozen risk manager. -/
theorem frozen_engine_trades :
    ¬ Guarded RiskGated (tickTrace testLoopConfig frozenEngine testTick) := by
  decide +kernel

end HftArb
