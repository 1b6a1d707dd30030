import HftArb.Execution.Engine

/-!
# Multi-leg blasts

`blast_arbitrage_legs` and `blast_triangular_legs` take the same steps: the execution mutex, the
volatility circuit, the daily loss limit, the risk gate, the depeg monitor, the concurrent
execution of the legs under a total timeout, the daily result.  `blast` is these steps, and a
`BlastKind` holds what differs between the two functions: which legs are gated, the reserved size,
how often the guard releases it, the rollback decision and the booked result.

The outside answers through the fields of a `Leg` and of a `BlastEnv`.  The total timeout can only
fire while the blast waits, which it does for the legs and then for every counter-order:
`cutAt = some n` says that it fires during the `n`-th of these waits, counted from zero, or during
the last one when there are fewer.

A leg that ends with a pipeline error counts as a rollback event and has its counter-order fired
for a fill of zero, which sends nothing (`counterOrder_failedResult`).
-/

namespace HftArb

open Saturating

/-- The outside as one leg of a blast meets it. -/
structure LegEnv where
  /-- The clock of the risk gate for this leg. -/
  gateClock : GateClock
  answer : LegAnswer
  /-- The clock when the order is tracked. -/
  trackClock : TrackClock
  /-- The clock when the outcome is recorded. -/
  outcomeNow : ℤ

/-- A leg of a blast. -/
structure Leg extends LegEnv where
  intent : OrderIntent

/-- A leg met by a clock that stands at zero. -/
def Leg.atZero (intent : OrderIntent) (answer : LegAnswer) : Leg :=
  ⟨⟨⟨0, 0, 0⟩, answer, ⟨0, 0⟩, 0⟩, intent⟩

/-- A leg that buys half a bitcoin and reports the given fill. -/
def Leg.testBuy (fill : Decimal) : Leg :=
  .atZero ⟨0, 3, 1 / 2, 20000, true, "BTCUSDT"⟩
    (.answered ⟨true, some "A-1", fill, 20000, none, none⟩)

/-- A leg that sells half a bitcoin on another exchange and reports the given fill. -/
def Leg.testSell (fill : Decimal) : Leg :=
  .atZero ⟨1, 3, 1 / 2, 20100, false, "BTCUSDT"⟩
    (.answered ⟨true, some "B-1", fill, 20100, none, none⟩)

/-- The quantity a leg is reported to have filled. -/
def Leg.fill (l : Leg) : Decimal := l.answer.fill

/-- Whether a leg is reported to have succeeded. -/
def Leg.succeeded (l : Leg) : Bool := l.answer.succeeded

/-- The outside of a whole blast. -/
structure BlastEnv where
  /-- The day of the year. -/
  today : UInt32
  /-- The answer of the depeg monitor. -/
  depegActive : Bool
  cutAt : Option ℕ

/-- What distinguishes the two blast functions. -/
structure BlastKind where
  route : Route
  name : String
  separator : String
  label : ℕ → String
  rejectionText : UInt16 → TradeRejection → String
  /-- The legs that run through the risk gate. -/
  gated : List Leg → List Leg
  /-- The size reserved for every gated leg. -/
  sizeFp : List OrderIntent → UInt64
  /-- How often the guard releases that size. -/
  releases : ℕ
  /-- The counter-orders of an asymmetric outcome, nothing when there is no rollback. -/
  rollback : List (OrderIntent × OrderResult) → Option (List OrderIntent)
  /-- The booked result in cents, from the fee schedule, the expected profit, the original and the
  widened orders and their results. -/
  pnlCents : Option ExchangeFeeSchedule → UInt64 → List OrderIntent → List OrderIntent →
    List OrderResult → Option ℤ

/-- The text of a dropped blast, naming its legs. -/
def BlastKind.dropped (kind : BlastKind) (why : String) (legs : List Leg) : String :=
  why ++ " [" ++ kind.separator.intercalate
    (legs.map fun l => toString l.intent.exchangeId ++ ":" ++ l.intent.symbol) ++
    "], signal dropped"

/-- The results the blast goes on with. -/
def BlastKind.results (kind : BlastKind) (legs : List Leg) : List OrderResult :=
  legs.mapIdx fun i l => legResult (kind.label i) l.answer

/-- The orders of the legs with their limit prices widened. -/
def sentOrders (tolFp : UInt64) (legs : List Leg) : List OrderIntent :=
  legs.map fun l => applySlippageLimit tolFp l.intent

/-- The rollback decision on the sent orders and their results. -/
def BlastKind.rollbackOf (kind : BlastKind) (tolFp : UInt64) (legs : List Leg) :
    Option (List OrderIntent) :=
  kind.rollback ((sentOrders tolFp legs).zip (kind.results legs))

/-- The counter-orders the blast fires when nothing cuts it short. -/
def BlastKind.counterOrders (kind : BlastKind) (tolFp : UInt64) (legs : List Leg) :
    List OrderIntent :=
  (kind.rollbackOf tolFp legs).getD []

/-- The wait during which the total timeout fires, if it does. -/
def BlastKind.cut (kind : BlastKind) (tolFp : UInt64) (env : BlastEnv) (legs : List Leg) :
    Option ℕ :=
  env.cutAt.map fun n => min n (kind.counterOrders tolFp legs).length

@[simp] lemma BlastKind.cut_eq_none (kind : BlastKind) (tolFp : UInt64) (env : BlastEnv)
    (legs : List Leg) : kind.cut tolFp env legs = none ↔ env.cutAt = none := by
  simp [BlastKind.cut]

/-- The gate readings of the gated legs. -/
def BlastKind.gateInputs (kind : BlastKind) (legs : List Leg) : List (GateClock × UInt16) :=
  (kind.gated legs).map fun l => (l.gateClock, l.intent.exchangeId)

/-- The exchanges whose leg the gate accepts before it stops. -/
def acceptedExchanges (rm : RiskManager) (p s c : UInt64) :
    List (GateClock × UInt16) → List UInt16
  | [] => []
  | (clk, x) :: rest =>
    if rm.Accepts clk p s c x then x :: acceptedExchanges (rm.reserved s) p s c rest else []

/-- A result in cents, `round` and `to_i64` with zero beyond the range. -/
def toCents (profit : Decimal) : ℤ := (Decimal.toI64 (Decimal.round (profit * 100))).getD 0

/-- The taker fee of an exchange for the booked result. -/
def takerFeeBps (fees : Option ExchangeFeeSchedule) (exchangeId : UInt16) : Decimal :=
  match fees with
  | some f => Decimal.ofU64 ((f.getTaker exchangeId.toNat).getD 10)
  | none => 10

namespace HighFrequencyExecutionEngine

/-! ## Executing the legs -/

/-- Record the outcome of every leg and count the slippage violations. -/
def recordOutcomes (e : HighFrequencyExecutionEngine) (legs : List Leg)
    (results : List OrderResult) : HighFrequencyExecutionEngine :=
  let e := (legs.zip results).foldl
    (fun e x => e.recordLegOutcome x.1.outcomeNow x.1.intent.exchangeId x.2) e
  (legs.zip results).foldl (fun e x => e.verifyLegSlippage x.1.intent x.2) e

/-- Count the pipeline errors, track the submitted orders and count the rollback. -/
def bookAnswers (e : HighFrequencyExecutionEngine) (kind : BlastKind) (legs : List Leg) :
    HighFrequencyExecutionEngine :=
  let errors := legs.filter fun l => match l.answer with
    | .pipelineError _ => true
    | _ => false
  let e' := errors.foldl (fun e _ => e.countRollback) e
  let e' := (legs.zip ((sentOrders e.slippageToleranceFp legs).zip (kind.results legs))).foldl
    (fun e x => e.trackLiveOrder x.1.trackClock x.2.2 x.2.1) e'
  if (kind.rollbackOf e.slippageToleranceFp legs).isSome then e'.countRollback else e'

/-- Send the legs, roll back an asymmetric outcome and record what happened.  No result means that
the total timeout fired. -/
def executeLegs (e : HighFrequencyExecutionEngine) (kind : BlastKind) (env : BlastEnv)
    (legs : List Leg) : Option (List OrderResult) × HighFrequencyExecutionEngine × List Event :=
  let status := e.gateStatus env.today env.depegActive
  let dispatches := (sentOrders e.slippageToleranceFp legs).map fun o =>
    Event.dispatched kind.route o status
  let counters := kind.counterOrders e.slippageToleranceFp legs
  match kind.cut e.slippageToleranceFp env legs with
  | some 0 => (none, e, dispatches)
  | some (n + 1) =>
    (none, e.bookAnswers kind legs, dispatches ++ (counters.take (n + 1)).map Event.counterOrder)
  | none =>
    (some (kind.results legs), (e.bookAnswers kind legs).recordOutcomes legs (kind.results legs),
      dispatches ++ counters.map Event.counterOrder)

/-- Forget the filled orders. -/
def untrackFilled (e : HighFrequencyExecutionEngine) (results : List OrderResult) :
    HighFrequencyExecutionEngine :=
  (results.filter OrderResult.filled).foldl (fun e r => e.untrackLiveOrder r) e

/-- Give the reservations of a blast back. -/
def releaseReserved (e : HighFrequencyExecutionEngine) (sizeFp : UInt64) (k : ℕ) :
    HighFrequencyExecutionEngine :=
  { e with riskManager := e.riskManager.releaseTimes sizeFp k }

/-! ## The blast -/

/-- A multi-leg blast: its answer, the engine after it and what it did to the outside. -/
def blast (e : HighFrequencyExecutionEngine) (kind : BlastKind) (env : BlastEnv)
    (legs : List Leg) (profitBps capitalFp : UInt64) :
    Except String (List OrderResult) × HighFrequencyExecutionEngine × List Event :=
  if e.executionLocked then
    (.error (kind.dropped "execution mutex: another blast is in-flight" legs), e, [])
  else if e.volatilityCircuit then
    (.error (kind.dropped "aborted: volatility circuit breaker active" legs), e, [])
  else
    match e.checkDailyLossLimit env.today with
    | (.error msg, e) => (.error msg, e, [])
    | (.ok (), e) =>
      let sizeFp := kind.sizeFp (legs.map Leg.intent)
      let inputs := kind.gateInputs legs
      let accepted :=
        (acceptedExchanges e.riskManager profitBps sizeFp capitalFp inputs).map Event.gateAccepted
      match e.riskManager.gateLegs profitBps sizeFp capitalFp inputs with
      | (.error (x, r), rm) =>
        (.error (kind.rejectionText x r), { e with riskManager := rm }, accepted)
      | (.ok (), rm) =>
        let e := { e with riskManager := rm }
        if env.depegActive then
          (.error (kind.dropped "aborted: stablecoin depeg circuit-breaker active" legs),
            e.releaseReserved sizeFp kind.releases, accepted)
        else
          match e.executeLegs kind env legs with
          | (none, e, events) =>
            (.error (kind.name ++ " total timeout exceeded 500ms"),
              e.releaseReserved sizeFp kind.releases, accepted ++ events ++ [.cancelSweep])
          | (some results, e, events) =>
            let e := e.untrackFilled results
            match kind.pnlCents e.feeScheduleBps profitBps (legs.map Leg.intent)
                (sentOrders e.slippageToleranceFp legs) results with
            | some cents =>
              (.ok results, e.recordDailyPnl cents, accepted ++ events ++ [.dailyPnl cents])
            | none => (.ok results, e, accepted ++ events)

end HighFrequencyExecutionEngine

/-! ## The two kinds -/

/-- The rollback of a two-leg blast: when exactly one leg filled, that leg is undone. -/
def arbitrageRollback : List (OrderIntent × OrderResult) → Option (List OrderIntent)
  | [(legA, resultA), (legB, resultB)] =>
    if resultA.filled ^^ resultB.filled then
      some (if resultA.filled then (counterOrder legA resultA).toList
        else (counterOrder legB resultB).toList)
    else none
  | _ => none

/-- The booked result of a two-leg blast: the proceeds of the selling leg less the cost of the
buying leg and both fees, when both legs succeeded. -/
def arbitragePnl (fees : Option ExchangeFeeSchedule) (originals : List OrderIntent)
    (results : List OrderResult) : Option ℤ :=
  match originals, results with
  | [legA, legB], [resultA, resultB] =>
    if resultA.success && resultB.success then
      let buyResult := if legA.isBuy then resultA else resultB
      let sellResult := if legA.isBuy then resultB else resultA
      let buyExch := if legA.isBuy then legA.exchangeId else legB.exchangeId
      let sellExch := if legA.isBuy then legB.exchangeId else legA.exchangeId
      let buyNotional := buyResult.filledQty * buyResult.avgPrice
      let sellNotional := sellResult.filledQty * sellResult.avgPrice
      let buyFee := buyNotional * takerFeeBps fees buyExch / 10000
      let sellFee := sellNotional * takerFeeBps fees sellExch / 10000
      some (toCents (sellNotional - buyNotional - buyFee - sellFee))
    else none
  | _, _ => none

/-- What is particular to `blast_arbitrage_legs`: only the first leg is gated. -/
def arbitrageKind : BlastKind where
  route := .arbitrage
  name := "blast_arbitrage_legs"
  separator := " vs "
  label i := if i = 0 then "leg-a" else "leg-b"
  rejectionText _ r := "pre-trade risk rejection: " ++ r.message
  gated legs := legs.take 1
  sizeFp intents := decimalToFp (((intents.head?).map fun o => o.qty * o.price).getD 0)
  releases := 1
  rollback := arbitrageRollback
  pnlCents fees _ originals _ results := arbitragePnl fees originals results

/-- The rollback of a three-leg blast: when some but not all legs filled, the filled ones are
undone. -/
def triangularRollback (pairs : List (OrderIntent × OrderResult)) : Option (List OrderIntent) :=
  let filledCount := pairs.countP fun x => x.2.filled
  if 0 < filledCount ∧ filledCount < 3 then
    some ((pairs.filter fun x => x.2.filled).filterMap fun x => counterOrder x.1 x.2)
  else none

/-- The symbol ends in a stablecoin the settlement is counted in. -/
def quotedInUsd (symbol : String) : Bool :=
  "USDT".toList.isSuffixOf symbol.toList || "USDC".toList.isSuffixOf symbol.toList

/-- The booked result of a three-leg blast: the expected profit on the notional of the first leg
quoted in dollars, less the fees of the filled legs, and only when that is positive. -/
def triangularPnl (fees : Option ExchangeFeeSchedule) (profitBps : UInt64)
    (sent : List OrderIntent) (results : List OrderResult) : Option ℤ :=
  let usdtNotional :=
    (((sent.find? fun l => quotedInUsd l.symbol) <|> sent.head?).map fun l =>
      l.qty * l.price).getD 0
  let legFee (x : OrderIntent × OrderResult) : Decimal :=
    if x.2.filled then x.2.filledQty * x.2.avgPrice * takerFeeBps fees x.1.exchangeId / 10000
    else 0
  let estimate :=
    usdtNotional * Decimal.ofU64 profitBps / 10000 - ((sent.zip results).map legFee).sum
  if 0 < estimate then some (toCents estimate) else none

/-- What is particular to `blast_triangular_legs`: every leg is gated, with the largest notional. -/
def triangularKind : BlastKind where
  route := .triangular
  name := "blast_triangular_legs"
  separator := " | "
  label i := "leg-" ++ toString i
  rejectionText x r := "pre-trade risk rejection (ex=" ++ toString x ++ "): " ++ r.message
  gated legs := legs
  sizeFp intents := (intents.map fun o => decimalToFp (o.qty * o.price)).foldr max 0
  releases := 3
  rollback := triangularRollback
  pnlCents fees profitBps _ sent results := triangularPnl fees profitBps sent results

namespace HighFrequencyExecutionEngine

/-- A two-leg arbitrage. -/
def blastArbitrageLegs (e : HighFrequencyExecutionEngine) (env : BlastEnv) (legA legB : Leg)
    (profitBps capitalFp : UInt64) :
    Except String (List OrderResult) × HighFrequencyExecutionEngine × List Event :=
  e.blast arbitrageKind env [legA, legB] profitBps capitalFp

/-- A three-leg triangular arbitrage. -/
def blastTriangularLegs (e : HighFrequencyExecutionEngine) (env : BlastEnv)
    (leg0 leg1 leg2 : Leg) (profitBps capitalFp : UInt64) :
    Except String (List OrderResult) × HighFrequencyExecutionEngine × List Event :=
  e.blast triangularKind env [leg0, leg1, leg2] profitBps capitalFp

end HighFrequencyExecutionEngine

/-- A call of one of the two blast functions. -/
inductive BlastCall where
  | arbitrage (env : BlastEnv) (legA legB : Leg) (profitBps capitalFp : UInt64)
  | triangular (env : BlastEnv) (leg0 leg1 leg2 : Leg) (profitBps capitalFp : UInt64)

namespace BlastCall

/-- Which of the two functions is called. -/
def kind : BlastCall → BlastKind
  | arbitrage .. => arbitrageKind
  | triangular .. => triangularKind

/-- The outside of the call. -/
def env : BlastCall → BlastEnv
  | arbitrage env .. => env
  | triangular env .. => env

/-- The legs of the call. -/
def legs : BlastCall → List Leg
  | arbitrage _ legA legB _ _ => [legA, legB]
  | triangular _ leg0 leg1 leg2 _ _ => [leg0, leg1, leg2]

/-- The first leg, which both functions gate. -/
def first : BlastCall → Leg
  | arbitrage _ legA _ _ _ => legA
  | triangular _ leg0 _ _ _ _ => leg0

/-- The expected profit handed to the gate. -/
def profitBps : BlastCall → UInt64
  | arbitrage _ _ _ p _ => p
  | triangular _ _ _ _ p _ => p

/-- The capital handed to the gate. -/
def capitalFp : BlastCall → UInt64
  | arbitrage _ _ _ _ c => c
  | triangular _ _ _ _ _ c => c

/-- The size reserved for every gated leg. -/
def sizeFp (call : BlastCall) : UInt64 := call.kind.sizeFp (call.legs.map Leg.intent)

end BlastCall

namespace HighFrequencyExecutionEngine

/-- Perform a call. -/
def run (e : HighFrequencyExecutionEngine) : BlastCall →
    Except String (List OrderResult) × HighFrequencyExecutionEngine × List Event
  | .arbitrage env legA legB p c => e.blastArbitrageLegs env legA legB p c
  | .triangular env leg0 leg1 leg2 p c => e.blastTriangularLegs env leg0 leg1 leg2 p c

/-- Both calls are blasts of their kind. -/
lemma run_eq_blast (e : HighFrequencyExecutionEngine) (call : BlastCall) :
    e.run call = e.blast call.kind call.env call.legs call.profitBps call.capitalFp := by
  cases call <;> rfl

/-- The gate inputs of a call start with its first leg. -/
lemma gateInputs_eq_cons (call : BlastCall) :
    ∃ rest, call.kind.gateInputs call.legs =
      (call.first.gateClock, call.first.intent.exchangeId) :: rest := by
  cases call with
  | arbitrage env legA legB p c => exact ⟨[], rfl⟩
  | triangular env leg0 leg1 leg2 p c => exact ⟨_, rfl⟩

/-! ## What a blast can do -/

lemma recordOutcomes_sameBooks (e : HighFrequencyExecutionEngine) (legs : List Leg)
    (results : List OrderResult) : SameBooks e (e.recordOutcomes legs results) := by
  have houtcome := SameBooks.foldl (fun e (x : Leg × OrderResult) =>
    e.recordLegOutcome_sameBooks x.1.outcomeNow x.1.intent.exchangeId x.2) (legs.zip results) e
  exact houtcome.trans (SameBooks.foldl (fun e (x : Leg × OrderResult) =>
    e.verifyLegSlippage_sameBooks x.1.intent x.2) (legs.zip results) _)

lemma untrackFilled_sameBooks (e : HighFrequencyExecutionEngine) (results : List OrderResult) :
    SameBooks e (e.untrackFilled results) :=
  SameBooks.foldl (fun e r => e.untrackLiveOrder_sameBooks r) _ e

lemma bookAnswers_sameBooks (e : HighFrequencyExecutionEngine) (kind : BlastKind)
    (legs : List Leg) : SameBooks e (e.bookAnswers kind legs) := by
  have herr := SameBooks.foldl (fun e (_ : Leg) => e.countRollback_sameBooks)
    (legs.filter fun l => match l.answer with
      | .pipelineError _ => true
      | _ => false) e
  have htrack := herr.trans (SameBooks.foldl
    (fun e (x : Leg × OrderIntent × OrderResult) =>
      e.trackLiveOrder_sameBooks x.1.trackClock x.2.2 x.2.1)
    (legs.zip ((sentOrders e.slippageToleranceFp legs).zip (kind.results legs))) _)
  unfold bookAnswers
  dsimp only
  split
  · exact htrack.trans (countRollback_sameBooks _)
  · exact htrack

variable (e : HighFrequencyExecutionEngine) (kind : BlastKind) (env : BlastEnv) (legs : List Leg)
  (p c : UInt64)

/-- The dispatch events of a blast. -/
def dispatches : List Event :=
  (sentOrders e.slippageToleranceFp legs).map fun o =>
    Event.dispatched kind.route o (e.gateStatus env.today env.depegActive)

/-- The execution of the legs under a total timeout that fires. -/
lemma executeLegs_of_cut {n : ℕ} (h : kind.cut e.slippageToleranceFp env legs = some n) :
    ∃ e', SameBooks e e' ∧ e.executeLegs kind env legs = (none, e', e.dispatches kind env legs ++
      ((kind.counterOrders e.slippageToleranceFp legs).take n).map Event.counterOrder) := by
  cases n with
  | zero =>
    refine ⟨e, SameBooks.refl e, ?_⟩
    simp only [executeLegs, h, dispatches, List.take_zero, List.map_nil, List.append_nil]
  | succ n =>
    refine ⟨e.bookAnswers kind legs, e.bookAnswers_sameBooks kind legs, ?_⟩
    simp only [executeLegs, h, dispatches]

/-- The execution of the legs to its end. -/
lemma executeLegs_of_not_cut (h : kind.cut e.slippageToleranceFp env legs = none) :
    ∃ e', SameBooks e e' ∧ e.executeLegs kind env legs =
      (some (kind.results legs), e', e.dispatches kind env legs ++
        (kind.counterOrders e.slippageToleranceFp legs).map Event.counterOrder) := by
  refine ⟨_, (e.bookAnswers_sameBooks kind legs).trans
    (recordOutcomes_sameBooks _ legs (kind.results legs)), ?_⟩
  simp only [executeLegs, h, dispatches]

/-- The blast is turned away before the risk gate. -/
def Blocked : Prop :=
  e.executionLocked = true ∨ e.volatilityCircuit = true ∨ e.dailyLossReached env.today = true

instance : Decidable (e.Blocked env) := inferInstanceAs (Decidable (_ ∨ _))

/-- Every gated leg passes the risk gate. -/
def Passes : Prop :=
  e.riskManager.AcceptsAll p (kind.sizeFp (legs.map Leg.intent)) c (kind.gateInputs legs)

instance : Decidable (e.Passes kind legs p c) :=
  inferInstanceAs (Decidable (RiskManager.AcceptsAll ..))

/-- The acceptance events of a blast. -/
def gateEvents : List Event :=
  (acceptedExchanges e.riskManager p (kind.sizeFp (legs.map Leg.intent)) c
    (kind.gateInputs legs)).map Event.gateAccepted

/-- The engine behind a gate that accepted every gated leg. -/
def gatedEngine : HighFrequencyExecutionEngine :=
  { e.checkDailyReset env.today with
    riskManager := e.riskManager.reservedTimes (kind.sizeFp (legs.map Leg.intent))
      (kind.gateInputs legs).length }

/-- The engine of a blast that is turned away before the risk gate. -/
def blockedEngine : HighFrequencyExecutionEngine :=
  if e.executionLocked = true ∨ e.volatilityCircuit = true then e else e.checkDailyReset env.today

/-- A blocked blast does nothing but the daily reset. -/
lemma blast_of_blocked (h : e.Blocked env) :
    ∃ msg, e.blast kind env legs p c = (.error msg, e.blockedEngine env, []) := by
  unfold blast blockedEngine
  by_cases hl : e.executionLocked = true
  · refine ⟨kind.dropped "execution mutex: another blast is in-flight" legs, ?_⟩
    simp only [hl, if_true, true_or]
  by_cases hv : e.volatilityCircuit = true
  · refine ⟨kind.dropped "aborted: volatility circuit breaker active" legs, ?_⟩
    simp only [hl, hv, if_true, or_true]
    rfl
  have hd : e.dailyLossReached env.today = true := by
    rcases h with h | h | h
    · exact absurd h hl
    · exact absurd h hv
    · exact h
  obtain ⟨msg, hmsg⟩ : ∃ msg, e.checkDailyLossLimit env.today =
      (.error msg, e.checkDailyReset env.today) := by
    rw [checkDailyLossLimit_eq, if_pos hd]
    exact ⟨_, rfl⟩
  refine ⟨msg, ?_⟩
  simp only [hl, hv, hmsg, or_self]
  rfl

/-- Behind the switches a blast starts with the risk gate. -/
lemma switches_of_not_blocked (h : ¬ e.Blocked env) :
    e.executionLocked = false ∧ e.volatilityCircuit = false ∧
      e.checkDailyLossLimit env.today = (.ok (), e.checkDailyReset env.today) := by
  simp only [Blocked, not_or, Bool.not_eq_true] at h
  obtain ⟨hl, hv, hd⟩ := h
  exact ⟨hl, hv, by rw [checkDailyLossLimit_eq, hd]; rfl⟩

/-- A blast whose gate rejects a leg keeps what the gate has reserved. -/
lemma blast_of_not_passes (hb : ¬ e.Blocked env) (hp : ¬ e.Passes kind legs p c) :
    ∃ msg, e.blast kind env legs p c =
      (.error msg, { e.checkDailyReset env.today with
        riskManager := (e.riskManager.gateLegs p (kind.sizeFp (legs.map Leg.intent)) c
          (kind.gateInputs legs)).2 }, e.gateEvents kind legs p c) := by
  obtain ⟨hl, hv, hd⟩ := e.switches_of_not_blocked env hb
  obtain ⟨⟨x, r⟩, k, hk⟩ := RiskManager.gateLegs_of_not_acceptsAll _ _ _ _ hp
  refine ⟨kind.rejectionText x r, ?_⟩
  simp only [blast, hl, hv, hd, checkDailyReset_riskManager, hk, gateEvents]
  rfl

/-- A blast behind the gate that meets a depeg releases what it has reserved. -/
lemma blast_of_depeg (hb : ¬ e.Blocked env) (hp : e.Passes kind legs p c)
    (hd : env.depegActive = true) :
    ∃ msg, e.blast kind env legs p c =
      (.error msg, (e.gatedEngine kind env legs).releaseReserved
        (kind.sizeFp (legs.map Leg.intent)) kind.releases, e.gateEvents kind legs p c) := by
  obtain ⟨hl, hv, hdl⟩ := e.switches_of_not_blocked env hb
  have hk := RiskManager.gateLegs_of_acceptsAll _ _ _ _ hp
  refine ⟨kind.dropped "aborted: stablecoin depeg circuit-breaker active" legs, ?_⟩
  simp only [blast, hl, hv, hdl, checkDailyReset_riskManager, hk, hd, gateEvents, gatedEngine,
    if_true]
  rfl

@[simp] lemma gatedEngine_slippageToleranceFp :
    (e.gatedEngine kind env legs).slippageToleranceFp = e.slippageToleranceFp := by
  unfold gatedEngine checkDailyReset
  split <;> rfl

@[simp] lemma gatedEngine_feeScheduleBps :
    (e.gatedEngine kind env legs).feeScheduleBps = e.feeScheduleBps := by
  unfold gatedEngine checkDailyReset
  split <;> rfl

/-- Behind the gate and without a depeg the legs are executed. -/
lemma blast_of_passes (hb : ¬ e.Blocked env) (hp : e.Passes kind legs p c)
    (hd : env.depegActive = false) :
    e.blast kind env legs p c =
      match (e.gatedEngine kind env legs).executeLegs kind env legs with
      | (none, e', events) =>
        (.error (kind.name ++ " total timeout exceeded 500ms"),
          e'.releaseReserved (kind.sizeFp (legs.map Leg.intent)) kind.releases,
          e.gateEvents kind legs p c ++ events ++ [.cancelSweep])
      | (some results, e', events) =>
        match kind.pnlCents (e'.untrackFilled results).feeScheduleBps p (legs.map Leg.intent)
            (sentOrders (e'.untrackFilled results).slippageToleranceFp legs) results with
        | some cents => (.ok results, (e'.untrackFilled results).recordDailyPnl cents,
            e.gateEvents kind legs p c ++ events ++ [.dailyPnl cents])
        | none =>
          (.ok results, e'.untrackFilled results, e.gateEvents kind legs p c ++ events) := by
  obtain ⟨hl, hv, hdl⟩ := e.switches_of_not_blocked env hb
  have hk := RiskManager.gateLegs_of_acceptsAll _ _ _ _ hp
  simp only [blast, hl, hv, hdl, checkDailyReset_riskManager, hk, hd, gateEvents, gatedEngine]
  rfl

/-- A blast behind the gate that runs into the total timeout releases what it has reserved. -/
lemma blast_of_cut (hb : ¬ e.Blocked env) (hp : e.Passes kind legs p c)
    (hd : env.depegActive = false) {n : ℕ}
    (ht : kind.cut e.slippageToleranceFp env legs = some n) :
    ∃ msg e', SameBooks (e.gatedEngine kind env legs) e' ∧ e.blast kind env legs p c =
      (.error msg, e'.releaseReserved (kind.sizeFp (legs.map Leg.intent)) kind.releases,
        e.gateEvents kind legs p c ++
          ((e.gatedEngine kind env legs).dispatches kind env legs ++
            ((kind.counterOrders e.slippageToleranceFp legs).take n).map Event.counterOrder) ++
          [.cancelSweep]) := by
  have ht' : kind.cut (e.gatedEngine kind env legs).slippageToleranceFp env legs = some n := by
    rw [gatedEngine_slippageToleranceFp]
    exact ht
  obtain ⟨e', hsame, hexec⟩ := executeLegs_of_cut _ kind env legs ht'
  rw [gatedEngine_slippageToleranceFp] at hexec
  refine ⟨kind.name ++ " total timeout exceeded 500ms", e', hsame, ?_⟩
  rw [e.blast_of_passes kind env legs p c hb hp hd, hexec]

/-- The result a completed blast books. -/
def bookedCents : Option ℤ :=
  kind.pnlCents e.feeScheduleBps p (legs.map Leg.intent) (sentOrders e.slippageToleranceFp legs)
    (kind.results legs)

/-- A blast that runs to its end keeps what it has reserved. -/
lemma blast_of_completed (hb : ¬ e.Blocked env) (hp : e.Passes kind legs p c)
    (hd : env.depegActive = false) (ht : kind.cut e.slippageToleranceFp env legs = none) :
    ∃ e', SameBooks (e.gatedEngine kind env legs) e' ∧ e.blast kind env legs p c =
      (.ok (kind.results legs), (e.bookedCents kind legs p).elim e' e'.recordDailyPnl,
        e.gateEvents kind legs p c ++
          ((e.gatedEngine kind env legs).dispatches kind env legs ++
            (kind.counterOrders e.slippageToleranceFp legs).map Event.counterOrder) ++
          ((e.bookedCents kind legs p).map Event.dailyPnl).toList) := by
  have ht' : kind.cut (e.gatedEngine kind env legs).slippageToleranceFp env legs = none := by
    rw [gatedEngine_slippageToleranceFp]
    exact ht
  obtain ⟨e', hsame, hexec⟩ := executeLegs_of_not_cut _ kind env legs ht'
  rw [gatedEngine_slippageToleranceFp] at hexec
  have hsame' := hsame.trans (e'.untrackFilled_sameBooks (kind.results legs))
  refine ⟨e'.untrackFilled (kind.results legs), hsame', ?_⟩
  rw [e.blast_of_passes kind env legs p c hb hp hd, hexec]
  dsimp only
  rw [hsame'.feeScheduleBps, hsame'.slippageToleranceFp, gatedEngine_feeScheduleBps,
    gatedEngine_slippageToleranceFp]
  unfold bookedCents
  split
  · next cents hc => simp [hc]
  · next hc => simp [hc]

/-- What a blast can do: it is turned away, rejected by the gate or stopped by a depeg, or it runs
into the total timeout or to its end. -/
inductive BlastOutcome :
    Except String (List OrderResult) × HighFrequencyExecutionEngine × List Event → Prop
  | blocked (msg : String) (hb : e.Blocked env) :
    BlastOutcome (.error msg, e.blockedEngine env, [])
  | rejected (msg : String) (hb : ¬ e.Blocked env) (hp : ¬ e.Passes kind legs p c) :
    BlastOutcome (.error msg, { e.checkDailyReset env.today with
      riskManager := (e.riskManager.gateLegs p (kind.sizeFp (legs.map Leg.intent)) c
        (kind.gateInputs legs)).2 }, e.gateEvents kind legs p c)
  | depegged (msg : String) (hb : ¬ e.Blocked env) (hp : e.Passes kind legs p c)
    (hd : env.depegActive = true) :
    BlastOutcome (.error msg, (e.gatedEngine kind env legs).releaseReserved
      (kind.sizeFp (legs.map Leg.intent)) kind.releases, e.gateEvents kind legs p c)
  | timedOut (msg : String) (n : ℕ) (e' : HighFrequencyExecutionEngine) (hb : ¬ e.Blocked env)
    (hp : e.Passes kind legs p c) (hd : env.depegActive = false)
    (hsame : SameBooks (e.gatedEngine kind env legs) e') :
    BlastOutcome
      (.error msg, e'.releaseReserved (kind.sizeFp (legs.map Leg.intent)) kind.releases,
        e.gateEvents kind legs p c ++
          ((e.gatedEngine kind env legs).dispatches kind env legs ++
            ((kind.counterOrders e.slippageToleranceFp legs).take n).map Event.counterOrder) ++
          [.cancelSweep])
  | completed (e' : HighFrequencyExecutionEngine) (hb : ¬ e.Blocked env)
    (hp : e.Passes kind legs p c) (hd : env.depegActive = false)
    (ht : kind.cut e.slippageToleranceFp env legs = none)
    (hsame : SameBooks (e.gatedEngine kind env legs) e') :
    BlastOutcome
      (.ok (kind.results legs), (e.bookedCents kind legs p).elim e' e'.recordDailyPnl,
        e.gateEvents kind legs p c ++
          ((e.gatedEngine kind env legs).dispatches kind env legs ++
            (kind.counterOrders e.slippageToleranceFp legs).map Event.counterOrder) ++
          ((e.bookedCents kind legs p).map Event.dailyPnl).toList)

/-- Every blast has one of the outcomes. -/
lemma blast_outcome : e.BlastOutcome kind env legs p c (e.blast kind env legs p c) := by
  by_cases hb : e.Blocked env
  · obtain ⟨msg, h⟩ := e.blast_of_blocked kind env legs p c hb
    rw [h]
    exact .blocked msg hb
  by_cases hp : e.Passes kind legs p c
  · cases hd : env.depegActive with
    | true =>
      obtain ⟨msg, h⟩ := e.blast_of_depeg kind env legs p c hb hp hd
      rw [h]
      exact .depegged msg hb hp hd
    | false =>
      cases ht : kind.cut e.slippageToleranceFp env legs with
      | some n =>
        obtain ⟨msg, e', hsame, h⟩ := e.blast_of_cut kind env legs p c hb hp hd ht
        rw [h]
        exact .timedOut msg n e' hb hp hd hsame
      | none =>
        obtain ⟨e', hsame, h⟩ := e.blast_of_completed kind env legs p c hb hp hd ht
        rw [h]
        exact .completed e' hb hp hd ht hsame
  · obtain ⟨msg, h⟩ := e.blast_of_not_passes kind env legs p c hb hp
    rw [h]
    exact .rejected msg hb hp

/-- Behind the switches a blast first reports the accepted exchanges, and dispatches orders only
when every gated leg has passed and there is no depeg. -/
lemma blast_events (hb : ¬ e.Blocked env) :
    ∃ rest, (e.blast kind env legs p c).2.2 = e.gateEvents kind legs p c ++ rest ∧
      (∀ x, Event.gateAccepted x ∉ rest) ∧
      ∀ route o status, Event.dispatched route o status ∈ rest →
        e.Passes kind legs p c ∧ env.depegActive = false ∧
          Event.dispatched route o status ∈
            (e.gatedEngine kind env legs).dispatches kind env legs := by
  have hout := e.blast_outcome kind env legs p c
  generalize e.blast kind env legs p c = out at hout ⊢
  cases hout with
  | blocked msg hblocked => exact absurd hblocked hb
  | rejected msg => exact ⟨[], by simp, by simp, by simp⟩
  | depegged msg => exact ⟨[], by simp, by simp, by simp⟩
  | timedOut msg n e' hb hp hd =>
    refine ⟨_, List.append_assoc .., ?_, ?_⟩
    · simp [dispatches, -List.map_take]
    · intro route o status hmem
      simp only [List.mem_append, List.mem_map, List.mem_singleton, reduceCtorEq, and_false,
        exists_false, or_false] at hmem
      exact ⟨hp, hd, hmem⟩
  | completed e' hb hp hd =>
    refine ⟨_, List.append_assoc .., ?_, ?_⟩
    · simp [dispatches]
    · intro route o status hmem
      simp only [List.mem_append, List.mem_map, Option.mem_toList,
        Option.map_eq_some_iff, reduceCtorEq, and_false, exists_false, or_false] at hmem
      exact ⟨hp, hd, hmem⟩

/-- A blast gets the exchanges accepted that the gate accepts, unless it is turned away before. -/
lemma gateAccepted_mem_blast_iff (x : UInt16) :
    Event.gateAccepted x ∈ (e.blast kind env legs p c).2.2 ↔
      ¬ e.Blocked env ∧ x ∈ acceptedExchanges e.riskManager p (kind.sizeFp (legs.map Leg.intent)) c
        (kind.gateInputs legs) := by
  by_cases hb : e.Blocked env
  · obtain ⟨msg, h⟩ := e.blast_of_blocked kind env legs p c hb
    rw [h]
    exact iff_of_false List.not_mem_nil fun hx => hx.1 hb
  · obtain ⟨rest, h, hnone, -⟩ := e.blast_events kind env legs p c hb
    have hgate : Event.gateAccepted x ∈ e.gateEvents kind legs p c ↔
        x ∈ acceptedExchanges e.riskManager p (kind.sizeFp (legs.map Leg.intent)) c
          (kind.gateInputs legs) := by
      simp [gateEvents]
    rw [h, List.mem_append, or_iff_left (hnone x), hgate, and_iff_right hb]

/-- The orders of a blast are those it dispatches behind the gate. -/
lemma mem_dispatches_of_mem_blast {route : Route} {o : OrderIntent} {status : GateStatus}
    (h : Event.dispatched route o status ∈ (e.blast kind env legs p c).2.2) :
    Event.dispatched route o status ∈ (e.gatedEngine kind env legs).dispatches kind env legs := by
  by_cases hb : e.Blocked env
  · obtain ⟨msg, heq⟩ := e.blast_of_blocked kind env legs p c hb
    rw [heq] at h
    exact absurd h List.not_mem_nil
  · obtain ⟨rest, heq, -, hdisp⟩ := e.blast_events kind env legs p c hb
    have hgate : Event.dispatched route o status ∉ e.gateEvents kind legs p c := by
      simp [gateEvents]
    rw [heq, List.mem_append, or_iff_right hgate] at h
    exact (hdisp route o status h).2.2

/-- A blast leaves everything in the risk manager but the exposure and the exchange health. -/
lemma blast_sameLimits :
    e.riskManager.SameLimits (e.blast kind env legs p c).2.1.riskManager := by
  have hgated : e.riskManager.SameLimits (e.gatedEngine kind env legs).riskManager :=
    e.riskManager.reservedTimes_sameLimits _ _
  have hout := e.blast_outcome kind env legs p c
  generalize e.blast kind env legs p c = out at hout ⊢
  cases hout with
  | blocked msg =>
    have hrm : (e.blockedEngine env).riskManager = e.riskManager := by
      unfold blockedEngine
      split
      · rfl
      · exact e.checkDailyReset_riskManager env.today
    rw [hrm]
    exact RiskManager.SameLimits.refl _
  | rejected msg => exact e.riskManager.gateLegs_sameLimits _ _ _ _
  | depegged msg => exact hgated.trans (RiskManager.releaseTimes_sameLimits _ _ _)
  | timedOut msg n e' hb hp hd hsame =>
    have hexecuted := hgated.trans hsame.sameLimits
    exact hexecuted.trans (RiskManager.releaseTimes_sameLimits _ _ _)
  | completed e' hb hp hd ht hsame =>
    have hexecuted := hgated.trans hsame.sameLimits
    cases e.bookedCents kind legs p with
    | none => exact hexecuted
    | some cents =>
      have hrm : (e'.recordDailyPnl cents).riskManager = e'.riskManager :=
        e'.recordDailyPnl_riskManager cents
      rw [Option.elim_some, hrm]
      exact hexecuted

variable {e kind env legs p c}

/-- Only a blast that passes every check and is not aborted succeeds. -/
lemma completed_of_ok {results : List OrderResult}
    (h : (e.blast kind env legs p c).1 = .ok results) :
    ¬ e.Blocked env ∧ e.Passes kind legs p c ∧ env.depegActive = false ∧ env.cutAt = none := by
  have hout := e.blast_outcome kind env legs p c
  generalize e.blast kind env legs p c = out at h hout
  cases hout with
  | blocked | rejected | depegged | timedOut => cases h
  | completed e' hb hp hd ht => exact ⟨hb, hp, hd, (kind.cut_eq_none _ _ _).mp ht⟩

/-- A blast that succeeds returns the results of its legs. -/
lemma results_eq_of_ok {results : List OrderResult}
    (h : (e.blast kind env legs p c).1 = .ok results) : results = kind.results legs := by
  have hout := e.blast_outcome kind env legs p c
  generalize e.blast kind env legs p c = out at h hout
  cases hout with
  | blocked | rejected | depegged | timedOut => cases h
  | completed => exact (Except.ok.inj h).symm

end HighFrequencyExecutionEngine

end HftArb
