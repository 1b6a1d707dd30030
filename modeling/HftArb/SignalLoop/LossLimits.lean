import HftArb.SignalLoop.Loop
import HftArb.SignalLoop.SmokeTest

/-!
# The loss limits of the gate

The layers 4 to 6 of the gate compare the session result and the drawdown with the configured
limits.  The blasts book their results in the daily counters of the engine and nowhere else, and
the signal loop reports its capital as the equity over and over.  In a run the session result
therefore stays zero and the drawdown that of the reported capital (`NoLossSeen`), whatever was
lost, and the layers let everything through that they would let through without a loss.

The blasts of the signal loop book gains only (`gains_run`); a loss can only come from the
two-leg blast of the smoke test.  `losses_reach_limits_spec` says what follows for every run: when
the smoke test books no loss beyond a limit, no loss is ever beyond one; when it does, the next
signal that the other layers let through is traded.
-/

namespace HftArb

open Saturating Runs

/-! ## Losses -/

/-- The losses less the profits that are booked in a list of events, in cents. -/
def bookedLoss (events : List Event) : ℤ := -(dailyResults events).sum

@[simp] lemma bookedLoss_nil : bookedLoss [] = 0 := rfl

@[simp] lemma bookedLoss_append (events events' : List Event) :
    bookedLoss (events ++ events') = bookedLoss events + bookedLoss events' := by
  rw [bookedLoss, dailyResults_append, List.sum_append, neg_add]
  rfl

/-- The blast of a step. -/
def LoopStep.call (cfg : LoopConfig) : LoopStep → Option BlastCall
  | .signal env (.triangular exch tokenA tokenB tokenC profitBps) =>
    (planTriangular cfg env exch tokenA tokenB tokenC).map fun legs =>
      .triangular ⟨env.today, env.depegActive, env.cutAt⟩ ⟨env.legs 0, legs.1⟩
        ⟨env.legs 1, legs.2.1⟩ ⟨env.legs 2, legs.2.2⟩ profitBps cfg.paperCapitalFp
  | _ => none

namespace RiskManager

/-- A loss beyond the absolute cap, the percentage cap of the capital or the drawdown limit of the
capital. -/
def LossExceeds (rm : RiskManager) (capitalFp : UInt64) (loss : ℤ) : Prop :=
  rm.absLossCapCents < loss ∨ bpsOfCapitalCents rm.pctLossCapBps capitalFp < loss ∨
    (rm.maxDrawdownBps.toNat : ℤ) < loss * 100000000 / capitalFp.toNat

/-- The layers that do not look at losses let the leg through: 0 to 3 and 7 to 14. -/
def OtherLayersAccept (rm : RiskManager) (clk : GateClock) (p s c : UInt64) (e : UInt16) : Prop :=
  (rm.killSwitch = false ∧ rm.frozen = false ∧ rm.minProfitBps ≤ p ∧
    satSubI64 clk.equityNow rm.lastUpdate ≤ rm.maxStalenessMs) ∧
  satAdd rm.totalExposure s ≤ rm.maxExposureFp c ∧ rm.layersAfterReserve clk s c e = none

instance (rm : RiskManager) (capitalFp : UInt64) (loss : ℤ) :
    Decidable (rm.LossExceeds capitalFp loss) :=
  inferInstanceAs (Decidable (_ ∨ _))

instance (rm : RiskManager) (clk : GateClock) (p s c : UInt64) (e : UInt16) :
    Decidable (rm.OtherLayersAccept clk p s c e) :=
  inferInstanceAs (Decidable ((_ ∧ _) ∧ _))

/-- A loss beyond a limit stays so when it grows. -/
lemma LossExceeds.mono {rm : RiskManager} {capitalFp : UInt64} {loss loss' : ℤ}
    (h : rm.LossExceeds capitalFp loss) (hle : loss ≤ loss') : rm.LossExceeds capitalFp loss' := by
  rcases h with h | h | h
  · exact Or.inl (h.trans_le hle)
  · exact Or.inr (Or.inl (h.trans_le hle))
  · refine Or.inr (Or.inr (h.trans_le ?_))
    rcases (Int.natCast_nonneg capitalFp.toNat).eq_or_lt with hzero | hpos
    · rw [← hzero, Int.ediv_zero, Int.ediv_zero]
    · exact Int.ediv_le_ediv hpos (by omega)

/-- Two managers with the same loss limits. -/
structure SameLossLimits (rm rm' : RiskManager) : Prop where
  absolute : rm'.absLossCapCents = rm.absLossCapCents
  percentage : rm'.pctLossCapBps = rm.pctLossCapBps
  drawdown : rm'.maxDrawdownBps = rm.maxDrawdownBps

lemma SameLossLimits.refl (rm : RiskManager) : rm.SameLossLimits rm := ⟨rfl, rfl, rfl⟩

lemma SameLossLimits.trans {rm rm' rm'' : RiskManager} (h : rm.SameLossLimits rm')
    (h' : rm'.SameLossLimits rm'') : rm.SameLossLimits rm'' :=
  ⟨h'.absolute.trans h.absolute, h'.percentage.trans h.percentage, h'.drawdown.trans h.drawdown⟩

lemma SameLimits.sameLossLimits {rm rm' : RiskManager} (h : rm.SameLimits rm') :
    rm.SameLossLimits rm' := by
  obtain ⟨exposure, health, rfl⟩ := h
  exact ⟨rfl, rfl, rfl⟩

lemma SameLossLimits.lossExceeds_iff {rm rm' : RiskManager} (h : rm.SameLossLimits rm')
    (capitalFp : UInt64) (loss : ℤ) :
    rm'.LossExceeds capitalFp loss ↔ rm.LossExceeds capitalFp loss := by
  rw [LossExceeds, LossExceeds, h.absolute, h.percentage, h.drawdown]

/-! ## What the loss layers see -/

/-- The equity after the smoke test. -/
def equityAtStart : DrawdownTracker := DrawdownTracker.update ⟨0, 0⟩ initialCapitalFp

/-- The trackers behind the loss layers show no loss: no session result, and the equity of the smoke
test or behind it that of the loop. -/
structure NoLossSeen (capitalFp : UInt64) (rm : RiskManager) : Prop where
  session : rm.sessionPnl = 0
  cap : 0 ≤ rm.absLossCapCents
  drawdown : rm.drawdown = equityAtStart ∨ rm.drawdown = equityAtStart.update capitalFp

/-- The absolute cap of a validated configuration is not negative. -/
lemma absLossCapCents_new_nonneg (config : ValidatedRiskConfig) (now : ℤ) :
    0 ≤ (new config now).absLossCapCents := by
  have hpos : 0 < config.absoluteHardLossCap * 100 :=
    mul_pos config.absoluteHardLossCap_pos (by norm_num)
  have hfloor : 0 ≤ ⌊|config.absoluteHardLossCap * 100|⌋ := Int.floor_nonneg.mpr (abs_nonneg _)
  unfold new dollarsToCents
  dsimp only
  rw [if_neg (not_lt.mpr hpos.le)]
  split
  · exact hfloor
  · norm_num

/-- Reporting the same capital again changes nothing. -/
lemma update_update (t : DrawdownTracker) (capitalFp : UInt64) :
    (t.update capitalFp).update capitalFp = t.update capitalFp := by
  unfold DrawdownTracker.update
  dsimp only
  by_cases h : capitalFp ≤ t.peakEquity
  · rw [if_pos h, if_pos h]
  · rw [if_neg h, if_pos (UInt64.le_refl _)]

/-- Reporting the capital shows no loss. -/
lemma NoLossSeen.equity {capitalFp : UInt64} {rm : RiskManager} (h : NoLossSeen capitalFp rm)
    (now now' : ℤ) :
    NoLossSeen capitalFp ((rm.updateEquity now capitalFp).touchNetworkCheck now') := by
  refine ⟨h.session, h.cap, Or.inr ?_⟩
  change rm.drawdown.update capitalFp = equityAtStart.update capitalFp
  rcases h.drawdown with hstart | hloop
  · rw [hstart]
  · rw [hloop, update_update]

/-- Trading does not touch the trackers. -/
lemma NoLossSeen.of_sameLimits {capitalFp : UInt64} {rm rm' : RiskManager}
    (h : NoLossSeen capitalFp rm) (hsame : rm.SameLimits rm') : NoLossSeen capitalFp rm' := by
  obtain ⟨exposure, health, rfl⟩ := hsame
  exact ⟨h.session, h.cap, h.drawdown⟩

/-- The equity of the smoke test is no drawdown. -/
lemma drawdownBps_equityAtStart : equityAtStart.drawdownBps = 0 := by decide +kernel

lemma bpsOfCapitalCents_nonneg (bps capitalFp : UInt64) : 0 ≤ bpsOfCapitalCents bps capitalFp := by
  unfold bpsOfCapitalCents
  split
  · exact le_rfl
  · exact le_min (Int.natCast_nonneg _) (by decide)

/-- Where the loss layers are silent, the switches, the least profit and the age of the equity are
left of the layers before the reservation. -/
lemma layersBeforeReserve_eq_none_iff {rm : RiskManager} {clk : GateClock} {p c : UInt64}
    (habs : ¬ rm.sessionPnl < -rm.absLossCapCents)
    (hpct : ¬ rm.sessionPnl < -bpsOfCapitalCents rm.pctLossCapBps c)
    (hdraw : ¬ rm.maxDrawdownBps < rm.drawdown.drawdownBps) :
    rm.layersBeforeReserve clk p c = none ↔
      rm.killSwitch = false ∧ rm.frozen = false ∧ rm.minProfitBps ≤ p ∧
        satSubI64 clk.equityNow rm.lastUpdate ≤ rm.maxStalenessMs := by
  unfold layersBeforeReserve
  rw [if_neg habs, if_neg hpct, if_neg hdraw]
  cases rm.killSwitch with
  | true => simp
  | false =>
    cases rm.frozen with
    | true => simp
    | false =>
      by_cases hp : p < rm.minProfitBps
      · simp [hp, UInt64.not_le.mpr hp]
      · by_cases hs : rm.maxStalenessMs < satSubI64 clk.equityNow rm.lastUpdate
        · simp [hp, hs, not_le.mpr hs]
        · simp [hp, hs, UInt64.not_lt.mp hp, not_lt.mp hs]

/-- Before the loss layers have seen a loss, the gate accepts what the other layers accept, when the
reported capital is no drawdown beyond the limit. -/
lemma NoLossSeen.accepts_iff {capitalFp : UInt64} {rm : RiskManager} (h : NoLossSeen capitalFp rm)
    (hcapital : (equityAtStart.update capitalFp).drawdownBps ≤ rm.maxDrawdownBps)
    (clk : GateClock) (p s c : UInt64) (e : UInt16) :
    rm.Accepts clk p s c e ↔ rm.OtherLayersAccept clk p s c e := by
  have habs : ¬ rm.sessionPnl < -rm.absLossCapCents := by
    rw [h.session]
    exact not_lt.mpr (neg_nonpos.mpr h.cap)
  have hpct : ¬ rm.sessionPnl < -bpsOfCapitalCents rm.pctLossCapBps c := by
    rw [h.session]
    exact not_lt.mpr (neg_nonpos.mpr (bpsOfCapitalCents_nonneg _ _))
  have hdraw : ¬ rm.maxDrawdownBps < rm.drawdown.drawdownBps := by
    rw [UInt64.not_lt]
    rcases h.drawdown with hstart | hloop
    · rw [hstart, drawdownBps_equityAtStart]
      exact UInt64.le_iff_toNat_le.mpr (Nat.zero_le _)
    · rw [hloop]
      exact hcapital
  unfold Accepts Reserves OtherLayersAccept
  rw [layersBeforeReserve_eq_none_iff habs hpct hdraw, and_assoc]

end RiskManager

/-! ## One step of the loop -/

variable {cfg : LoopConfig}

/-- A step with a blast handles a triangular signal whose plan stands. -/
lemma exists_plan_of_call {st : LoopStep} {call : BlastCall} (h : st.call cfg = some call) :
    ∃ env exch tokenA tokenB tokenC profitBps legs,
      st = .signal env (.triangular exch tokenA tokenB tokenC profitBps) ∧
        planTriangular cfg env exch tokenA tokenB tokenC = some legs ∧
        call = .triangular ⟨env.today, env.depegActive, env.cutAt⟩ ⟨env.legs 0, legs.1⟩
          ⟨env.legs 1, legs.2.1⟩ ⟨env.legs 2, legs.2.2⟩ profitBps cfg.paperCapitalFp := by
  cases st with
  | equity equityNow networkNow => cases h
  | write w => cases h
  | signal env sig =>
    cases sig with
    | crossExchange b s t bps => cases h
    | triangular exch tokenA tokenB tokenC profitBps =>
      obtain ⟨legs, hlegs, rfl⟩ := Option.map_eq_some_iff.mp h
      exact ⟨env, exch, tokenA, tokenB, tokenC, profitBps, legs, rfl, hlegs, rfl⟩

/-- A step with a blast is that blast. -/
lemma loopStep_of_call (e : HighFrequencyExecutionEngine) {st : LoopStep} {call : BlastCall}
    (h : st.call cfg = some call) : loopStep cfg e st = (e.run call).2 := by
  obtain ⟨env, exch, tokenA, tokenB, tokenC, profitBps, legs, rfl, hlegs, rfl⟩ :=
    exists_plan_of_call h
  simp only [loopStep, handleSignal, hlegs]
  rfl

/-- The blast of a step is triangular and is handed the capital of the loop. -/
lemma kind_of_call {st : LoopStep} {call : BlastCall} (h : st.call cfg = some call) :
    call.kind = triangularKind ∧ call.capitalFp = cfg.paperCapitalFp := by
  obtain ⟨env, exch, tokenA, tokenB, tokenC, profitBps, legs, -, -, rfl⟩ := exists_plan_of_call h
  exact ⟨rfl, rfl⟩

/-- A slice of a cross-exchange signal books nothing. -/
lemma dailyResults_dispatchSlice (plan : CrossPlan) (env : SignalEnv) (status : GateStatus)
    (quantity : Decimal) (senv : SliceEnv) :
    dailyResults (plan.dispatchSlice env status quantity senv) = [] := by
  unfold CrossPlan.dispatchSlice CrossPlan.sliceDispatches CrossPlan.afterSlice
  rw [dailyResults_append, dailyResults_map_eq_nil fun _ => rfl, List.nil_append]
  split
  · rw [dailyResults_append]
    have hcounter : ∀ (b : Prop) [Decidable b] (orders : List OrderIntent),
        dailyResults (if b then orders.map Event.counterOrder else []) = [] := by
      intro b _ orders
      split
      · exact dailyResults_map_eq_nil (fun _ => rfl) orders
      · rfl
    rw [hcounter, List.nil_append]
    split
    · rfl
    · rfl
  · rfl

/-- A step without a blast books nothing, and leaves the loss limits and what the loss layers
see. -/
lemma loopStep_of_not_call (e : HighFrequencyExecutionEngine) {st : LoopStep}
    (h : st.call cfg = none) :
    dailyResults (loopStep cfg e st).2 = [] ∧
      e.riskManager.SameLossLimits (loopStep cfg e st).1.riskManager ∧
      (RiskManager.NoLossSeen cfg.paperCapitalFp e.riskManager →
        RiskManager.NoLossSeen cfg.paperCapitalFp (loopStep cfg e st).1.riskManager) := by
  cases st with
  | equity equityNow networkNow => exact ⟨rfl, ⟨rfl, rfl, rfl⟩, fun hseen => hseen.equity _ _⟩
  | write w =>
    refine ⟨rfl, ?_⟩
    cases w with
    | volatilityCircuit on | paperMode on => exact ⟨.refl _, id⟩
    | killSwitch on | frozen on | depegActive on =>
      exact ⟨⟨rfl, rfl, rfl⟩, fun hseen => ⟨hseen.session, hseen.cap, hseen.drawdown⟩⟩
  | signal env sig =>
    cases sig with
    | crossExchange b s t bps =>
      simp only [loopStep, handleSignal]
      split
      · exact ⟨rfl, .refl _, id⟩
      · next plan _ =>
        refine ⟨?_, .refl _, id⟩
        rw [dailyResults, List.filterMap_flatMap, List.flatMap_eq_nil_iff]
        exact fun x _ => dailyResults_dispatchSlice plan env _ _ _
    | triangular exch tokenA tokenB tokenC profitBps =>
      have hnone : planTriangular cfg env exch tokenA tokenB tokenC = none :=
        Option.map_eq_none_iff.mp h
      simp only [loopStep, handleSignal, hnone]
      exact ⟨rfl, .refl _, id⟩

/-- The blast of a step books a gain or nothing, and leaves the loss limits and what the loss layers
see. -/
lemma loopStep_of_blast (e : HighFrequencyExecutionEngine) {st : LoopStep} {call : BlastCall}
    (h : st.call cfg = some call) :
    bookedLoss (loopStep cfg e st).2 ≤ 0 ∧
      e.riskManager.SameLimits (loopStep cfg e st).1.riskManager := by
  rw [loopStep_of_call e h, HighFrequencyExecutionEngine.run_eq_blast]
  refine ⟨?_, e.blast_sameLimits _ _ _ _ _⟩
  rcases (e.blast_dailyBooks call.kind call.env call.legs call.profitBps call.capitalFp).2 with
    hnil | ⟨-, hbooked⟩
  · rw [bookedLoss, hnil]
    rfl
  · rw [bookedLoss, hbooked]
    have hgain : ∀ cents ∈ e.bookedCents call.kind call.legs call.profitBps, 0 ≤ cents := by
      rw [(kind_of_call h).1]
      intro cents hcents
      have hpnl : triangularPnl e.feeScheduleBps call.profitBps
          (sentOrders e.slippageToleranceFp call.legs) (triangularKind.results call.legs) =
            some cents := hcents
      rw [triangularPnl_eq] at hpnl
      split at hpnl
      · next hpos => exact Option.some.inj hpnl ▸ toCents_nonneg hpos.le
      · cases hpnl
    cases hcents : e.bookedCents call.kind call.legs call.profitBps with
    | none => exact le_rfl
    | some cents =>
      have hnonneg := hgain cents hcents
      simpa using hnonneg

/-! ## Whole runs -/

/-- What a run of the loop keeps: it books no loss, and leaves the loss limits and what the loss
layers see. -/
structure Gains (cfg : LoopConfig) (rm : RiskManager) (e : HighFrequencyExecutionEngine)
    (events : List Event) : Prop where
  booked : bookedLoss events ≤ 0
  limits : rm.SameLossLimits e.riskManager
  seen : RiskManager.NoLossSeen cfg.paperCapitalFp rm →
    RiskManager.NoLossSeen cfg.paperCapitalFp e.riskManager

/-- One step of the loop books no loss. -/
lemma Gains.step {rm : RiskManager} {e : HighFrequencyExecutionEngine} {events : List Event}
    (h : Gains cfg rm e events) (st : LoopStep) :
    Gains cfg rm (loopStep cfg e st).1 (events ++ (loopStep cfg e st).2) := by
  have hstep : bookedLoss (loopStep cfg e st).2 ≤ 0 ∧
      e.riskManager.SameLossLimits (loopStep cfg e st).1.riskManager ∧
      (RiskManager.NoLossSeen cfg.paperCapitalFp e.riskManager →
        RiskManager.NoLossSeen cfg.paperCapitalFp (loopStep cfg e st).1.riskManager) := by
    cases hcall : st.call cfg with
    | none =>
      obtain ⟨hnil, hrest⟩ := loopStep_of_not_call e hcall
      refine ⟨?_, hrest⟩
      rw [bookedLoss, hnil]
      rfl
    | some call =>
      obtain ⟨hbooked, hsame⟩ := loopStep_of_blast e hcall
      exact ⟨hbooked, hsame.sameLossLimits, fun hseen => hseen.of_sameLimits hsame⟩
  obtain ⟨hbooked, hlimits, hseen⟩ := hstep
  refine ⟨?_, h.limits.trans hlimits, fun hrm => hseen (h.seen hrm)⟩
  rw [bookedLoss_append]
  exact add_nonpos h.booked hbooked

/-- A run of the loop books no loss. -/
lemma gains_run (cfg : LoopConfig) (e : HighFrequencyExecutionEngine) (steps : List LoopStep) :
    Gains cfg e.riskManager (runState (loopStep cfg) e steps)
      (runTrace (loopStep cfg) e steps) := by
  have hstart : Gains cfg e.riskManager e [] := ⟨le_rfl, .refl _, id⟩
  have hrun : Gains cfg e.riskManager (runState (loopStep cfg) e steps)
      ([] ++ runTrace (loopStep cfg) e steps) :=
    run_induction (C := fun _ _ _ => True) (fun _ _ st h _ => h.step st) hstart
      (fun _ _ _ _ => trivial)
  exact hrun

/-- A call gets an exchange accepted exactly when it is behind the switches and its first leg passes
the gate. -/
lemma exists_gateAccepted_run_iff (e : HighFrequencyExecutionEngine) (call : BlastCall) :
    (∃ x, Event.gateAccepted x ∈ (e.run call).2.2) ↔
      ¬ e.Blocked call.env ∧ e.riskManager.Accepts call.first.gateClock call.profitBps call.sizeFp
        call.capitalFp call.first.intent.exchangeId := by
  rw [HighFrequencyExecutionEngine.run_eq_blast]
  obtain ⟨inputs, hinputs⟩ := HighFrequencyExecutionEngine.gateInputs_eq_cons call
  have hblast := e.gateAccepted_mem_blast_iff call.kind call.env call.legs call.profitBps
    call.capitalFp
  simp only [hinputs, acceptedExchanges] at hblast
  constructor
  · rintro ⟨x, hx⟩
    obtain ⟨hb, hmem⟩ := (hblast x).mp hx
    refine ⟨hb, ?_⟩
    by_contra hrejects
    rw [if_neg] at hmem
    · exact absurd hmem List.not_mem_nil
    · exact hrejects
  · rintro ⟨hb, haccepts⟩
    refine ⟨call.first.intent.exchangeId, (hblast _).mpr ⟨hb, ?_⟩⟩
    rw [if_pos]
    · exact List.mem_cons_self
    · exact haccepts

/-- While the losses booked since the start exceed a limit, no check of the gate succeeds. -/
def LossesReachLimits (cfg : LoopConfig) (e : HighFrequencyExecutionEngine) (lossAtStart : ℤ)
    (steps : List LoopStep) : Prop :=
  ∀ before st after, steps = before ++ st :: after → ∀ call, st.call cfg = some call →
    (runState (loopStep cfg) e before).riskManager.LossExceeds call.capitalFp
      (lossAtStart + bookedLoss (runTrace (loopStep cfg) e before)) →
    ∀ x, Event.gateAccepted x ∉ (loopStep cfg (runState (loopStep cfg) e before) st).2

/-- In a run of `main`, losses reach the limits when the smoke test books no loss beyond one: every
run of the loop behind it keeps what is booked within them.  When the smoke test does, and the
capital of the loop is no drawdown beyond the limit, they do not: as long as what is booked is
beyond a limit, every signal that the other layers let through is accepted. -/
theorem losses_reach_limits_spec (cfg : LoopConfig) (e e' : HighFrequencyExecutionEngine)
    (config : ValidatedRiskConfig) (now : ℤ) (h : e.riskManager = RiskManager.new config now)
    (env : SmokeTestEnv) (events : List Event) (hstart : e.smokeTest env = some (e', events)) :
    (¬ e'.riskManager.LossExceeds cfg.paperCapitalFp (bookedLoss events) →
        ∀ steps, LossesReachLimits cfg e' (bookedLoss events) steps) ∧
      ((RiskManager.equityAtStart.update cfg.paperCapitalFp).drawdownBps ≤
          e'.riskManager.maxDrawdownBps →
        ∀ before st after call, st.call cfg = some call →
          (runState (loopStep cfg) e' before).riskManager.LossExceeds cfg.paperCapitalFp
            (bookedLoss events + bookedLoss (runTrace (loopStep cfg) e' before)) →
          ¬ (runState (loopStep cfg) e' before).Blocked call.env →
          (runState (loopStep cfg) e' before).riskManager.OtherLayersAccept call.first.gateClock
            call.profitBps call.sizeFp call.capitalFp call.first.intent.exchangeId →
          ¬ LossesReachLimits cfg e' (bookedLoss events) (before ++ st :: after)) := by
  constructor
  · intro hwithin steps before st after _ call hcall hexceeds
    have hgains := gains_run cfg e' before
    rw [(kind_of_call hcall).2, hgains.limits.lossExceeds_iff] at hexceeds
    have hbooked := hgains.booked
    exact absurd (hexceeds.mono (by omega)) hwithin
  · intro hcapital before st after call hcall hexceeds hopen haccept hlimits
    have hgains := gains_run cfg e' before
    have hseen : RiskManager.NoLossSeen cfg.paperCapitalFp e'.riskManager := by
      refine RiskManager.NoLossSeen.of_sameLimits ?_
        (HighFrequencyExecutionEngine.riskManager_smokeTest hstart)
      rw [h]
      exact ⟨rfl, RiskManager.absLossCapCents_new_nonneg config now, Or.inl rfl⟩
    rw [← hgains.limits.drawdown] at hcapital
    have haccepted : ∃ x, Event.gateAccepted x ∈
        (loopStep cfg (runState (loopStep cfg) e' before) st).2 := by
      rw [loopStep_of_call _ hcall, exists_gateAccepted_run_iff]
      exact ⟨hopen, ((hgains.seen hseen).accepts_iff hcapital _ _ _ _ _).mpr haccept⟩
    obtain ⟨x, hx⟩ := haccepted
    rw [← (kind_of_call hcall).2] at hexceeds
    exact hlimits before st after rfl call hcall hexceeds x hx

/-! ## A live start with a cap of 20 dollars -/

/-- The limits of the tests with a hard-loss cap of 20 dollars. -/
def smallCapConfig : ValidatedRiskConfig :=
  { testRiskConfig with
    absoluteHardLossCap := 20
    absoluteHardLossCap_pos := by norm_num }

/-- A fresh engine in live mode with that cap. -/
def smallCapEngine : HighFrequencyExecutionEngine :=
  .new String.toUpper (RiskManager.new smallCapConfig 0) false

/-- The smoke test against exchanges that buy everything and sell the given quantity, by a clock
that stands at zero. -/
def smokeTestSelling (sold : Decimal) : SmokeTestEnv where
  equityNow := 0
  networkNow := 0
  legitimateClock := ⟨0, 0, 0⟩
  belowThresholdClock := ⟨0, 0, 0⟩
  firstFailureNow := 0
  secondFailureNow := 0
  blast := ⟨1, false, none⟩
  legA := ⟨⟨0, 0, 0⟩, .answered ⟨true, some "A-1", 1 / 1000, 50001, none, none⟩, ⟨0, 0⟩, 0⟩
  legB := ⟨⟨0, 0, 0⟩, .answered ⟨true, some "B-1", sold, 50099, none, none⟩, ⟨0, 0⟩, 0⟩
  frozenClock := ⟨0, 0, 0⟩
  unfrozenClock := ⟨0, 0, 0⟩

/-- When both orders fill, the losses of every run of the loop reach the limits. -/
theorem losses_reach_limits_bothFilled :
    ∃ e events, smallCapEngine.smokeTest (smokeTestSelling (1 / 1000)) = some (e, events) ∧
      ∀ steps, LossesReachLimits testLoopConfig e (bookedLoss events) steps := by
  have heval : (smallCapEngine.smokeTest (smokeTestSelling (1 / 1000))).map (fun x =>
      decide (x.1.riskManager.LossExceeds testLoopConfig.paperCapitalFp (bookedLoss x.2))) =
        some false := by
    decide +kernel
  obtain ⟨⟨e, events⟩, hstart, hwithin⟩ := Option.map_eq_some_iff.mp heval
  refine ⟨e, events, hstart, ?_⟩
  exact (losses_reach_limits_spec testLoopConfig smallCapEngine e smallCapConfig 0 rfl _ events
    hstart).1 (of_decide_eq_false hwithin)

/-- The triangular signal of the small market, on the day of the smoke test. -/
def triangularSignal : LoopStep :=
  .signal { testTriangleEnv with today := 1 } (.triangular 0 1 2 3 1000)

/-- When only a fifth is sold, the smoke test books a loss of 40.04 dollars, twice the cap, and the
next signal is accepted. -/
theorem trades_beyond_loss_cap :
    ∃ e events, smallCapEngine.smokeTest (smokeTestSelling (1 / 5000)) = some (e, events) ∧
      bookedLoss events = 4004 ∧ e.riskManager.absLossCapCents = 2000 ∧
      ¬ LossesReachLimits testLoopConfig e (bookedLoss events) [triangularSignal] := by
  have heval : (smallCapEngine.smokeTest (smokeTestSelling (1 / 5000))).map (fun x =>
      (bookedLoss x.2, x.1.riskManager.absLossCapCents,
        decide (Event.gateAccepted 0 ∈ (loopStep testLoopConfig x.1 triangularSignal).2))) =
          some (4004, 2000, true) := by
    decide +kernel
  obtain ⟨⟨e, events⟩, hstart, hfacts⟩ := Option.map_eq_some_iff.mp heval
  simp only [Prod.mk.injEq, decide_eq_true_eq] at hfacts
  obtain ⟨hbooked, hcap, haccepted⟩ := hfacts
  refine ⟨e, events, hstart, hbooked, hcap, fun hlimits => ?_⟩
  obtain ⟨call, hcall⟩ : ∃ call, triangularSignal.call testLoopConfig = some call := by
    rw [← Option.isSome_iff_exists]
    decide +kernel
  refine hlimits [] triangularSignal [] rfl call hcall (Or.inl ?_) 0 haccepted
  rw [runState_nil, runTrace_nil, bookedLoss_nil, hbooked, hcap]
  norm_num

end HftArb
