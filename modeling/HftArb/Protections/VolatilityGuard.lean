import Mathlib.Analysis.Convex.Basic
import HftArb.Decimal
import HftArb.Foundations.Runs

/-!
# The volatility guard

The guard compares the spread of a quote with a ceiling, which an exchange may have for itself, and
keeps an exponential average of the spreads that it accepts.  The weight of the average divides by
the period plus one, and the period may be any word: with the largest one the sum overflows.  Along
a run the guard does what it should exactly when no spread is accepted under that period
(`guardRight_iff`).
-/

namespace HftArb

open Runs Saturating

/-- `VolatilityGuard`. -/
structure VolatilityGuard where
  spreadCeilingBps : UInt64
  exchangeOverrides : UInt16 → Option UInt64
  rejectionCount : UInt64
  emaSpreadBps : Option Decimal
  emaPeriod : UInt64

namespace VolatilityGuard

/-! ## The guard -/

/-- `DEFAULT_SPREAD_CEILING_BPS`. -/
def defaultSpreadCeilingBps : UInt64 := 80

/-- `MAX_REASONABLE_SPREAD_BPS`. -/
def maxReasonableSpreadBps : Decimal := 1000000000000

/-- `DEFAULT_EMA_PERIOD`. -/
def defaultEmaPeriod : UInt64 := 20

/-- `with_ceiling_bps`. -/
def withCeilingBps (ceilingBps : UInt64) : VolatilityGuard where
  spreadCeilingBps := ceilingBps
  exchangeOverrides := fun _ => none
  rejectionCount := 0
  emaSpreadBps := none
  emaPeriod := defaultEmaPeriod

/-- `new`. -/
def new : VolatilityGuard := withCeilingBps defaultSpreadCeilingBps

/-- An addition of words; an overflow is none.  Without the overflow check of a debug build the sum
of the weight is zero, and the division by it fails. -/
def checkedAdd (a b : UInt64) : Option UInt64 :=
  if a.toNat + b.toNat < 2 ^ 64 then some (a + b) else none

/-- A division of decimals; a division by zero is none. -/
def checkedDiv (a b : Decimal) : Option Decimal := if b = 0 then none else some (a / b)

/-- The spread in basis points, as the guard computes it. -/
def currentSpreadBps (bestBid bestAsk : Decimal) : Option Decimal :=
  let mid := (bestBid + bestAsk) / 2
  let spread := bestAsk - bestBid
  checkedDiv (spread * 10000) mid

/-- The weight of a new spread. -/
def weight (period : UInt64) : Option Decimal :=
  (checkedAdd period 1).bind fun n => checkedDiv 2 (Decimal.ofU64 n)

/-- The update of the average. -/
def updateEma (g : VolatilityGuard) (spreadBps : Decimal) : Option VolatilityGuard :=
  (weight g.emaPeriod).map fun alpha =>
    { g with
      emaSpreadBps :=
        match g.emaSpreadBps with
        | none => some spreadBps
        | some oldEma => some (alpha * spreadBps + (1 - alpha) * oldEma) }

/-- The spread that is taken into the average, if there is one: the guards against prices and
spreads that make no sense. -/
def reasonableSpread (bestBid bestAsk : Decimal) : Option (Option Decimal) :=
  if bestBid ≤ 0 ∨ bestAsk ≤ 0 then some none
  else (currentSpreadBps bestBid bestAsk).map fun spreadBps =>
    if spreadBps ≤ 0 ∨ maxReasonableSpreadBps < spreadBps then none else some spreadBps

/-- `check_spread`, with the guard afterwards. -/
def checkSpread (g : VolatilityGuard) (exchangeId : UInt16) (bestBid bestAsk : Decimal) :
    Option (VolatilityGuard × Bool) :=
  (reasonableSpread bestBid bestAsk).bind fun reasonable =>
    match reasonable with
    | none => some (g, false)
    | some spreadBps =>
      (g.updateEma spreadBps).map fun g' =>
        let ceilingBps := (g'.exchangeOverrides exchangeId).getD g'.spreadCeilingBps
        if Decimal.ofU64 ceilingBps < spreadBps then
          ({ g' with rejectionCount := g'.rejectionCount + 1 }, false)
        else (g', true)

/-- `observe_spread`. -/
def observeSpread (g : VolatilityGuard) (bestBid bestAsk : Decimal) : Option VolatilityGuard :=
  (reasonableSpread bestBid bestAsk).bind fun reasonable =>
    match reasonable with
    | none => some g
    | some spreadBps => g.updateEma spreadBps

/-- `set_exchange_ceiling`. -/
def setExchangeCeiling (g : VolatilityGuard) (exchangeId : UInt16) (ceilingBps : UInt64) :
    VolatilityGuard :=
  { g with exchangeOverrides := Function.update g.exchangeOverrides exchangeId (some ceilingBps) }

/-- `set_ceiling_bps`. -/
def setCeilingBps (g : VolatilityGuard) (bps : UInt64) : VolatilityGuard :=
  { g with spreadCeilingBps := bps }

/-- `update_ema_period`. -/
def updateEmaPeriod (g : VolatilityGuard) (period : UInt64) : VolatilityGuard :=
  { g with
    emaPeriod := max period 2
    emaSpreadBps := none }

/-- `reset_ema`. -/
def resetEma (g : VolatilityGuard) : VolatilityGuard := { g with emaSpreadBps := none }

/-! ## Runs -/

/-- A call of the guard. -/
inductive Call
  | checkSpread (exchangeId : UInt16) (bestBid bestAsk : Decimal)
  | observeSpread (bestBid bestAsk : Decimal)
  | setCeilingBps (bps : UInt64)
  | setExchangeCeiling (exchangeId : UInt16) (ceilingBps : UInt64)
  | updateEmaPeriod (period : UInt64)
  | resetEma

/-- A call, with the answer of `check_spread`.  A panic is none. -/
def step (g : VolatilityGuard) : Call → Option (VolatilityGuard × Option Bool)
  | .checkSpread exchangeId bestBid bestAsk =>
    (g.checkSpread exchangeId bestBid bestAsk).map fun r => (r.1, some r.2)
  | .observeSpread bestBid bestAsk => (g.observeSpread bestBid bestAsk).map fun g' => (g', none)
  | .setCeilingBps bps => some (g.setCeilingBps bps, none)
  | .setExchangeCeiling exchangeId ceilingBps =>
    some (g.setExchangeCeiling exchangeId ceilingBps, none)
  | .updateEmaPeriod period => some (g.updateEmaPeriod period, none)
  | .resetEma => some (g.resetEma, none)

/-- The guard after a run of calls. -/
def run (g : VolatilityGuard) (calls : List Call) : Option VolatilityGuard :=
  calls.foldlM (fun g call => (g.step call).map Prod.fst) g

/-! ## What the guard should do -/

/-- The spread in basis points of the mid price. -/
def spreadBps (bid ask : Decimal) : Decimal := (ask - bid) * 10000 / ((bid + ask) / 2)

/-- The prices are positive and their spread is. -/
def IsSpread (bid ask : Decimal) : Prop := 0 < bid ∧ 0 < ask ∧ 0 < spreadBps bid ask

instance (bid ask : Decimal) : Decidable (IsSpread bid ask) :=
  inferInstanceAs (Decidable (_ ∧ _ ∧ _))

/-- The prices that a call passes. -/
def Call.prices : Call → Option (Decimal × Decimal)
  | checkSpread _ bid ask => some (bid, ask)
  | observeSpread bid ask => some (bid, ask)
  | _ => none

/-- The spread that a call has accepted. -/
def Call.accepted (call : Call) : Option Decimal :=
  call.prices.bind fun p => if IsSpread p.1 p.2 then some (spreadBps p.1 p.2) else none

/-- The call starts a new average. -/
def Call.restarts : Call → Bool
  | updateEmaPeriod _ => true
  | resetEma => true
  | _ => false

/-- The period that a call sets. -/
def Call.period : Call → Option UInt64
  | updateEmaPeriod period => some (max period 2)
  | _ => none

/-- The ceiling that a call sets for an exchange. -/
def Call.override (exchangeId : UInt16) : Call → Option UInt64
  | setExchangeCeiling id ceilingBps => if id = exchangeId then some ceilingBps else none
  | _ => none

/-- The ceiling that a call sets for all other exchanges. -/
def Call.ceiling : Call → Option UInt64
  | setCeilingBps bps => some bps
  | _ => none

/-- The spreads accepted since the average was last started. -/
def acceptedSince (calls : List Call) : List Decimal :=
  (calls.reverse.takeWhile fun call => !call.restarts).filterMap Call.accepted

/-- The last period that was set. -/
def periodInForce (calls : List Call) : UInt64 :=
  (calls.reverse.findSome? Call.period).getD defaultEmaPeriod

/-- The last ceiling that was set for the exchange, or else for all. -/
def ceilingInForce (initial : UInt64) (calls : List Call) (exchangeId : UInt16) : UInt64 :=
  (calls.reverse.findSome? (Call.override exchangeId)).getD
    ((calls.reverse.findSome? Call.ceiling).getD initial)

/-- The average, when present, is between the smallest and the largest spread accepted. -/
def EmaInRange (g : VolatilityGuard) (calls : List Call) : Prop :=
  ∀ ema, g.emaSpreadBps = some ema → ∃ lo hi, IsLeast {s | s ∈ acceptedSince calls} lo ∧
    IsGreatest {s | s ∈ acceptedSince calls} hi ∧ lo ≤ ema ∧ ema ≤ hi

/-- The call does not panic, a check is answered by the ceiling in force, and the average stays in
its range. -/
def CallRight (initial : UInt64) (before : List Call) (call : Call) : Prop :=
  ∃ g g' answer, run (withCeilingBps initial) before = some g ∧ g.step call = some (g', answer) ∧
    (∀ exchangeId bid ask, call = .checkSpread exchangeId bid ask →
      (answer = some true ↔
        0 < bid ∧ 0 < ask ∧ 0 < spreadBps bid ask ∧
          spreadBps bid ask ≤ Decimal.ofU64 (ceilingInForce initial before exchangeId))) ∧
    EmaInRange g' (before ++ [call])

/-- Every call of a run goes right. -/
def GuardRight (initial : UInt64) (calls : List Call) : Prop :=
  ∀ before call after, calls = before ++ call :: after → CallRight initial before call

/-! ## Spreads and weights -/

/-- The spread of positive prices is below 20000 basis points. -/
lemma spreadBps_lt {bid ask : Decimal} (hbid : 0 < bid) (hask : 0 < ask) :
    spreadBps bid ask < 20000 := by
  have hmid : 0 < (bid + ask) / 2 := by positivity
  rw [spreadBps, div_lt_iff₀ hmid]
  linarith

/-- Positive prices with a positive spread are reasonable, and no others. -/
lemma reasonableSpread_eq (bid ask : Decimal) :
    reasonableSpread bid ask =
      some (if IsSpread bid ask then some (spreadBps bid ask) else none) := by
  rw [reasonableSpread]
  by_cases hprices : bid ≤ 0 ∨ ask ≤ 0
  · rw [if_pos hprices, if_neg]
    rintro ⟨hbid, hask, -⟩
    rcases hprices with h | h
    · exact not_lt.mpr h hbid
    · exact not_lt.mpr h hask
  · obtain ⟨hbid, hask⟩ := not_or.mp hprices
    rw [not_le] at hbid hask
    have hmid : (bid + ask) / 2 ≠ 0 := by positivity
    have hlt := spreadBps_lt hbid hask
    have hreasonable : ¬ maxReasonableSpreadBps < spreadBps bid ask := by
      rw [maxReasonableSpreadBps, not_lt]
      linarith
    rw [if_neg hprices, currentSpreadBps, checkedDiv, if_neg hmid, Option.map_some, ← spreadBps]
    simp only [hreasonable, or_false, IsSpread, hbid, hask, true_and]
    split_ifs with hnonpos hpos hpos
    · exact absurd hpos (not_lt.mpr hnonpos)
    · rfl
    · rfl
    · exact absurd (not_le.mp hnonpos) hpos

lemma weight_eq_none_iff (period : UInt64) : weight period = none ↔ period = maxWord := by
  have hbound := period.toNat_lt
  rw [weight, checkedAdd]
  by_cases hmax : period = maxWord
  · subst hmax
    simp
  · have hlt : period.toNat + (1 : UInt64).toNat < 2 ^ 64 := by
      have hne : period.toNat ≠ maxWord.toNat := fun h => hmax (UInt64.toNat_inj.mp h)
      rw [maxWord_toNat] at hne
      rw [UInt64.toNat_one]
      omega
    have hsum : Decimal.ofU64 (period + 1) ≠ 0 := by
      rw [Decimal.ofU64, UInt64.toNat_add, Nat.mod_eq_of_lt hlt, UInt64.toNat_one]
      positivity
    rw [if_pos hlt, Option.bind_some, checkedDiv, if_neg hsum]
    exact iff_of_false nofun hmax

/-- From two on, the weight of a period is between zero and one. -/
lemma weight_mem {period : UInt64} {alpha : Decimal} (hperiod : 2 ≤ period.toNat)
    (h : weight period = some alpha) : 0 ≤ alpha ∧ alpha ≤ 1 := by
  rw [weight, Option.bind_eq_some_iff] at h
  obtain ⟨n, hn, halpha⟩ := h
  obtain ⟨hlt, hn⟩ := Option.ite_none_right_eq_some.mp hn
  obtain rfl := Option.some.inj hn
  obtain ⟨-, halpha⟩ := Option.ite_none_left_eq_some.mp halpha
  obtain rfl := Option.some.inj halpha
  have hle : (2 : ℚ) ≤ Decimal.ofU64 (period + 1) := by
    rw [Decimal.ofU64, UInt64.toNat_add, Nat.mod_eq_of_lt hlt]
    exact_mod_cast hperiod.trans (Nat.le_add_right _ _)
  constructor
  · exact div_nonneg (by norm_num) (Decimal.ofU64_nonneg _)
  · rw [div_le_one (by linarith)]
    exact hle

/-! ## What a call does -/

variable {g g' : VolatilityGuard} {call : Call} {answer : Option Bool}

lemma checkSpread_eq (g : VolatilityGuard) (exchangeId : UInt16) (bid ask : Decimal) :
    g.checkSpread exchangeId bid ask =
      if IsSpread bid ask then
        (g.updateEma (spreadBps bid ask)).map fun g' =>
          if Decimal.ofU64 ((g'.exchangeOverrides exchangeId).getD g'.spreadCeilingBps) <
              spreadBps bid ask then
            ({ g' with rejectionCount := g'.rejectionCount + 1 }, false)
          else (g', true)
      else some (g, false) := by
  rw [checkSpread, reasonableSpread_eq, Option.bind_some]
  split_ifs <;> rfl

lemma observeSpread_eq (g : VolatilityGuard) (bid ask : Decimal) :
    g.observeSpread bid ask =
      if IsSpread bid ask then g.updateEma (spreadBps bid ask) else some g := by
  rw [observeSpread, reasonableSpread_eq, Option.bind_some]
  split_ifs <;> rfl

lemma accepted_checkSpread (exchangeId : UInt16) (bid ask : Decimal) :
    (Call.checkSpread exchangeId bid ask).accepted =
      if IsSpread bid ask then some (spreadBps bid ask) else none := rfl

lemma accepted_observeSpread (bid ask : Decimal) :
    (Call.observeSpread bid ask).accepted =
      if IsSpread bid ask then some (spreadBps bid ask) else none := rfl

lemma updateEma_eq_none_iff (g : VolatilityGuard) (s : Decimal) :
    g.updateEma s = none ↔ g.emaPeriod = maxWord := by
  rw [updateEma, Option.map_eq_none_iff, weight_eq_none_iff]

/-- A call panics exactly when it accepts a spread under the largest period. -/
lemma step_eq_none_iff (g : VolatilityGuard) (call : Call) :
    g.step call = none ↔ call.accepted ≠ none ∧ g.emaPeriod = maxWord := by
  cases call with
  | checkSpread exchangeId bid ask =>
    rw [step, Option.map_eq_none_iff, checkSpread_eq, accepted_checkSpread]
    split_ifs
    · rw [Option.map_eq_none_iff, updateEma_eq_none_iff]
      exact (and_iff_right nofun).symm
    · exact iff_of_false nofun fun h => h.1 rfl
  | observeSpread bid ask =>
    rw [step, Option.map_eq_none_iff, observeSpread_eq, accepted_observeSpread]
    split_ifs
    · rw [updateEma_eq_none_iff]
      exact (and_iff_right nofun).symm
    · exact iff_of_false nofun fun h => h.1 rfl
  | setCeilingBps bps => exact iff_of_false nofun fun h => h.1 rfl
  | setExchangeCeiling exchangeId ceilingBps => exact iff_of_false nofun fun h => h.1 rfl
  | updateEmaPeriod period => exact iff_of_false nofun fun h => h.1 rfl
  | resetEma => exact iff_of_false nofun fun h => h.1 rfl

/-- The average after a spread. -/
def nextEma (alpha s : Decimal) : Option Decimal → Decimal
  | none => s
  | some oldEma => alpha * s + (1 - alpha) * oldEma

/-- What a call does to the average. -/
def EmaEffect (g : VolatilityGuard) (call : Call) (g' : VolatilityGuard) : Prop :=
  if call.restarts = true then g'.emaSpreadBps = none
  else match call.accepted with
    | none => g'.emaSpreadBps = g.emaSpreadBps
    | some s => ∃ alpha, weight g.emaPeriod = some alpha ∧
        g'.emaSpreadBps = some (nextEma alpha s g.emaSpreadBps)

/-- What a call does. -/
structure Effect (g : VolatilityGuard) (call : Call) (g' : VolatilityGuard)
    (answer : Option Bool) : Prop where
  period : g'.emaPeriod = call.period.getD g.emaPeriod
  overrides : ∀ exchangeId, g'.exchangeOverrides exchangeId =
    (call.override exchangeId).or (g.exchangeOverrides exchangeId)
  ceiling : g'.spreadCeilingBps = call.ceiling.getD g.spreadCeilingBps
  ema : EmaEffect g call g'
  answer_iff : ∀ exchangeId bid ask, call = .checkSpread exchangeId bid ask →
    (answer = some true ↔ IsSpread bid ask ∧
      spreadBps bid ask ≤
        Decimal.ofU64 ((g.exchangeOverrides exchangeId).getD g.spreadCeilingBps))

/-- The average of two numbers in an interval is in it. -/
lemma nextEma_mem_Icc {alpha s l u : Decimal} (hnonneg : 0 ≤ alpha) (hone : alpha ≤ 1)
    (hs : s ∈ Set.Icc l u) {ema : Option Decimal} (hema : ∀ old ∈ ema, old ∈ Set.Icc l u) :
    nextEma alpha s ema ∈ Set.Icc l u := by
  cases ema with
  | none => exact hs
  | some old =>
    have hconvex : Convex ℚ (Set.Icc l u) := convex_Icc l u
    exact hconvex hs (hema old rfl) hnonneg (sub_nonneg.mpr hone) (add_sub_cancel alpha 1)

/-- An update of the average changes nothing else. -/
lemma updateEma_spec {s : Decimal} (h : g.updateEma s = some g') :
    g'.emaPeriod = g.emaPeriod ∧ g'.exchangeOverrides = g.exchangeOverrides ∧
      g'.spreadCeilingBps = g.spreadCeilingBps ∧
      ∃ alpha, weight g.emaPeriod = some alpha ∧
        g'.emaSpreadBps = some (nextEma alpha s g.emaSpreadBps) := by
  obtain ⟨alpha, halpha, rfl⟩ := Option.map_eq_some_iff.mp h
  refine ⟨rfl, rfl, rfl, alpha, halpha, ?_⟩
  cases g.emaSpreadBps <;> rfl

/-- A check answers by the ceiling that it finds, whatever the average. -/
lemma effect_of_checkSpread {exchangeId : UInt16} {bid ask : Decimal} {passed : Bool}
    (h : g.checkSpread exchangeId bid ask = some (g', passed)) :
    Effect g (.checkSpread exchangeId bid ask) g' (some passed) := by
  rw [checkSpread_eq] at h
  by_cases hspread : IsSpread bid ask
  · rw [if_pos hspread] at h
    obtain ⟨g₁, hg₁, hanswer⟩ := Option.map_eq_some_iff.mp h
    obtain ⟨hperiod, hoverrides, hceiling, hema⟩ := updateEma_spec hg₁
    have haccepted : EmaEffect g (.checkSpread exchangeId bid ask) g₁ := by
      rw [EmaEffect, accepted_checkSpread, if_pos hspread]
      exact hema
    have hforce : (g₁.exchangeOverrides exchangeId).getD g₁.spreadCeilingBps =
        (g.exchangeOverrides exchangeId).getD g.spreadCeilingBps := by
      rw [hoverrides, hceiling]
    rw [hforce] at hanswer
    split_ifs at hanswer with hbreach
    · obtain ⟨rfl, rfl⟩ := Prod.mk.inj hanswer
      refine ⟨hperiod, fun _ => congrFun hoverrides _, hceiling, haccepted, ?_⟩
      rintro _ _ _ ⟨⟩
      exact iff_of_false nofun fun h => not_lt.mpr h.2 hbreach
    · obtain ⟨rfl, rfl⟩ := Prod.mk.inj hanswer
      refine ⟨hperiod, fun _ => congrFun hoverrides _, hceiling, haccepted, ?_⟩
      rintro _ _ _ ⟨⟩
      exact iff_of_true rfl ⟨hspread, not_lt.mp hbreach⟩
  · rw [if_neg hspread] at h
    obtain ⟨rfl, rfl⟩ := Prod.mk.inj (Option.some.inj h)
    refine ⟨rfl, fun _ => rfl, rfl, ?_, ?_⟩
    · rw [EmaEffect, accepted_checkSpread, if_neg hspread]
      rfl
    · rintro _ _ _ ⟨⟩
      exact iff_of_false nofun fun h => hspread h.1

/-- An observation changes the average only. -/
lemma effect_of_observeSpread {bid ask : Decimal} (h : g.observeSpread bid ask = some g') :
    Effect g (.observeSpread bid ask) g' none := by
  rw [observeSpread_eq] at h
  by_cases hspread : IsSpread bid ask
  · rw [if_pos hspread] at h
    obtain ⟨hperiod, hoverrides, hceiling, hema⟩ := updateEma_spec h
    refine ⟨hperiod, fun _ => congrFun hoverrides _, hceiling, ?_, nofun⟩
    rw [EmaEffect, accepted_observeSpread, if_pos hspread]
    exact hema
  · rw [if_neg hspread] at h
    obtain rfl := Option.some.inj h
    refine ⟨rfl, fun _ => rfl, rfl, ?_, nofun⟩
    rw [EmaEffect, accepted_observeSpread, if_neg hspread]
    rfl

lemma effect_of_step (h : g.step call = some (g', answer)) : Effect g call g' answer := by
  cases call with
  | checkSpread exchangeId bid ask =>
    obtain ⟨⟨g₁, passed⟩, hcheck, heq⟩ := Option.map_eq_some_iff.mp h
    obtain ⟨rfl, rfl⟩ := Prod.mk.inj heq
    exact effect_of_checkSpread hcheck
  | observeSpread bid ask =>
    obtain ⟨g₁, hobserve, heq⟩ := Option.map_eq_some_iff.mp h
    obtain ⟨rfl, rfl⟩ := Prod.mk.inj heq
    exact effect_of_observeSpread hobserve
  | setCeilingBps bps =>
    obtain ⟨rfl, rfl⟩ := Prod.mk.inj (Option.some.inj h)
    exact ⟨rfl, fun _ => rfl, rfl, rfl, nofun⟩
  | setExchangeCeiling exchangeId ceilingBps =>
    obtain ⟨rfl, rfl⟩ := Prod.mk.inj (Option.some.inj h)
    refine ⟨rfl, fun id => ?_, rfl, rfl, nofun⟩
    by_cases hid : exchangeId = id
    · subst hid
      simp [setExchangeCeiling, Call.override]
    · rw [Call.override, if_neg hid]
      exact Function.update_of_ne (Ne.symm hid) _ _
  | updateEmaPeriod period =>
    obtain ⟨rfl, rfl⟩ := Prod.mk.inj (Option.some.inj h)
    exact ⟨rfl, fun _ => rfl, rfl, rfl, nofun⟩
  | resetEma =>
    obtain ⟨rfl, rfl⟩ := Prod.mk.inj (Option.some.inj h)
    exact ⟨rfl, fun _ => rfl, rfl, rfl, nofun⟩

/-! ## The invariant -/

/-- The guard agrees with the calls so far. -/
structure Tracks (initial : UInt64) (before : List Call) (g : VolatilityGuard) : Prop where
  period : g.emaPeriod = periodInForce before
  two_le : 2 ≤ g.emaPeriod.toNat
  overrides : ∀ exchangeId,
    g.exchangeOverrides exchangeId = before.reverse.findSome? (Call.override exchangeId)
  ceiling : g.spreadCeilingBps = (before.reverse.findSome? Call.ceiling).getD initial
  ema_none : g.emaSpreadBps = none → acceptedSince before = []
  ema_some : ∀ ema, g.emaSpreadBps = some ema → acceptedSince before ≠ [] ∧
    ∀ l u, (∀ s ∈ acceptedSince before, s ∈ Set.Icc l u) → ema ∈ Set.Icc l u

lemma tracks_nil (initial : UInt64) : Tracks initial [] (withCeilingBps initial) :=
  ⟨rfl, show 2 ≤ defaultEmaPeriod.toNat by decide, fun _ => rfl, rfl, fun _ => rfl, nofun⟩

lemma two_le_max (period : UInt64) : 2 ≤ (max period 2).toNat := by
  rw [show max period 2 = if period ≤ 2 then 2 else period from rfl]
  split_ifs with hle
  · exact le_rfl
  · exact (UInt64.lt_iff_toNat_lt.mp (UInt64.not_le.mp hle)).le

lemma acceptedSince_append (before : List Call) (call : Call) :
    acceptedSince (before ++ [call]) =
      if call.restarts = true then [] else call.accepted.toList ++ acceptedSince before := by
  rw [acceptedSince, List.reverse_append, List.reverse_singleton, List.singleton_append,
    List.takeWhile_cons]
  cases call.restarts with
  | true => rfl
  | false =>
    simp only [Bool.not_false, if_true, Bool.false_eq_true, if_false, List.filterMap_cons]
    cases call.accepted <;> rfl

section Step

variable {initial : UInt64} {before : List Call} (h : Tracks initial before g)
  (heffect : EmaEffect g call g')

include h heffect

/-- Without an average no spread has been accepted. -/
lemma Tracks.ema_none_step (hnone : g'.emaSpreadBps = none) :
    acceptedSince (before ++ [call]) = [] := by
  rw [EmaEffect] at heffect
  rw [acceptedSince_append]
  split_ifs at heffect ⊢ with hrestarts
  · rfl
  · cases haccepted : call.accepted with
    | none =>
      rw [haccepted] at heffect
      exact h.ema_none (heffect ▸ hnone)
    | some s =>
      rw [haccepted] at heffect
      obtain ⟨alpha, -, hsome⟩ := heffect
      rw [hsome] at hnone
      cases hnone

/-- The average stays within all bounds of the spreads accepted. -/
lemma Tracks.ema_some_step {ema : Decimal} (hsome : g'.emaSpreadBps = some ema) :
    acceptedSince (before ++ [call]) ≠ [] ∧
      ∀ l u, (∀ s ∈ acceptedSince (before ++ [call]), s ∈ Set.Icc l u) → ema ∈ Set.Icc l u := by
  rw [EmaEffect] at heffect
  rw [acceptedSince_append]
  split_ifs at heffect ⊢ with hrestarts
  · rw [heffect] at hsome
    cases hsome
  · cases haccepted : call.accepted with
    | none =>
      rw [haccepted] at heffect
      exact h.ema_some ema (heffect ▸ hsome)
    | some s =>
      rw [haccepted] at heffect
      obtain ⟨alpha, halpha, hnext⟩ := heffect
      rw [hnext] at hsome
      obtain rfl := Option.some.inj hsome
      refine ⟨List.cons_ne_nil _ _, fun l u hbounds => ?_⟩
      obtain ⟨hs, hbefore⟩ := List.forall_mem_cons.mp hbounds
      obtain ⟨hnonneg, hone⟩ := weight_mem h.two_le halpha
      exact nextEma_mem_Icc hnonneg hone hs fun old hold => (h.ema_some old hold).2 l u hbefore

end Step

/-- Calls keep the guard in agreement with them. -/
lemma Tracks.step {initial : UInt64} {before : List Call} (h : Tracks initial before g)
    (heffect : Effect g call g' answer) : Tracks initial (before ++ [call]) g' where
  period := by
    rw [heffect.period, h.period, periodInForce, periodInForce, findSome?_reverse_append_singleton]
    cases call.period <;> rfl
  two_le := by
    rw [heffect.period]
    cases call with
    | updateEmaPeriod period => exact two_le_max period
    | checkSpread exchangeId bid ask => exact h.two_le
    | observeSpread bid ask => exact h.two_le
    | setCeilingBps bps => exact h.two_le
    | setExchangeCeiling exchangeId ceilingBps => exact h.two_le
    | resetEma => exact h.two_le
  overrides exchangeId := by
    rw [heffect.overrides, h.overrides, findSome?_reverse_append_singleton]
  ceiling := by
    rw [heffect.ceiling, h.ceiling, findSome?_reverse_append_singleton]
    cases call.ceiling <;> rfl
  ema_none := h.ema_none_step heffect.ema
  ema_some _ := h.ema_some_step heffect.ema

/-- A number between all bounds of a list is between its smallest and its largest element. -/
lemma exists_isLeast_isGreatest {l : List Decimal} (hl : l ≠ []) :
    ∃ lo hi, IsLeast {s | s ∈ l} lo ∧ IsGreatest {s | s ∈ l} hi := by
  have hne : l.toFinset.Nonempty := (List.toFinset_nonempty_iff l).mpr hl
  have hset : ((l.toFinset : Finset Decimal) : Set Decimal) = {s | s ∈ l} := by
    ext s
    simp
  exact ⟨_, _, hset ▸ l.toFinset.isLeast_min' hne, hset ▸ l.toFinset.isGreatest_max' hne⟩

lemma Tracks.emaInRange {initial : UInt64} {calls : List Call} (h : Tracks initial calls g) :
    EmaInRange g calls := by
  intro ema hsome
  obtain ⟨hne, hbounds⟩ := h.ema_some ema hsome
  obtain ⟨lo, hi, hlo, hhi⟩ := exists_isLeast_isGreatest hne
  obtain ⟨hle, hge⟩ := hbounds lo hi fun s hs => ⟨hlo.2 hs, hhi.2 hs⟩
  exact ⟨lo, hi, hlo, hhi, hle, hge⟩

/-- A call that accepts no spread under the largest period does not panic. -/
lemma Tracks.exists_step {initial : UInt64} {before : List Call} (h : Tracks initial before g)
    (hfree : call.accepted ≠ none → periodInForce before ≠ maxWord) :
    ∃ g' answer, g.step call = some (g', answer) := by
  have hsome : g.step call ≠ none := by
    rw [Ne, step_eq_none_iff]
    rintro ⟨haccepted, hperiod⟩
    exact hfree haccepted (h.period.symm.trans hperiod)
  obtain ⟨⟨g', answer⟩, hstep⟩ := Option.ne_none_iff_exists'.mp hsome
  exact ⟨g', answer, hstep⟩

/-! ## Runs in which every call goes right -/

lemma run_append_singleton (g : VolatilityGuard) (before : List Call) (call : Call) :
    run g (before ++ [call]) =
      (run g before).bind fun g₁ => (g₁.step call).map Prod.fst := by
  rw [run, List.foldlM_append]
  cases hrun : List.foldlM (fun g call => (g.step call).map Prod.fst) g before with
  | none =>
    rw [run, hrun]
    rfl
  | some g₁ =>
    rw [run, hrun]
    cases hstep : g₁.step call <;> simp [hstep]

/-- Every call of a run goes right exactly when no spread is accepted while the period is the
largest word. -/
theorem guardRight_iff (initial : UInt64) (calls : List Call) :
    GuardRight initial calls ↔
      ∀ before call after, calls = before ++ call :: after →
        call.accepted ≠ none → periodInForce before ≠ maxWord := by
  let I : List Call → Prop := fun before =>
    ∃ g, run (withCeilingBps initial) before = some g ∧ Tracks initial before g
  refine forall_split_congr (I := I) ?_ ?_ ?_ calls
  · exact ⟨_, rfl, tracks_nil initial⟩
  · rintro before call ⟨g, hrun, htracks⟩
    constructor
    · rintro ⟨g₁, g', answer, hrun₁, hstep, -, -⟩ haccepted hperiod
      obtain rfl := Option.some.inj (hrun.symm.trans hrun₁)
      have hpanic := (step_eq_none_iff g call).mpr ⟨haccepted, htracks.period.trans hperiod⟩
      rw [hpanic] at hstep
      cases hstep
    · intro hfree
      obtain ⟨g', answer, hstep⟩ := htracks.exists_step hfree
      have heffect := effect_of_step hstep
      refine ⟨g, g', answer, hrun, hstep, fun exchangeId bid ask heq => ?_,
        (htracks.step heffect).emaInRange⟩
      rw [heffect.answer_iff exchangeId bid ask heq, htracks.overrides, htracks.ceiling,
        ← ceilingInForce, IsSpread, and_assoc, and_assoc]
  · rintro before call ⟨g, hrun, htracks⟩ hfree
    obtain ⟨g', answer, hstep⟩ := htracks.exists_step hfree
    refine ⟨g', ?_, htracks.step (effect_of_step hstep)⟩
    rw [run_append_singleton, hrun, Option.bind_some, hstep]
    rfl

/-- A spread observed under the largest period. -/
theorem largest_period_panics :
    run new [.updateEmaPeriod maxWord, .observeSpread 99 100] = none := by
  decide +kernel

end VolatilityGuard

end HftArb
