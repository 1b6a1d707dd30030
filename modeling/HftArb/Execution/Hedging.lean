import HftArb.Execution.Blasts

/-!
# The position a two-leg blast leaves

A two-leg blast buys and sells the same quantity of one token.  `netPosition` is what the legs and
the counter-orders add to the position in that token, with every counter-order taken to fill
completely.

The rollback decision asks of each leg whether it succeeded and filled something, and undoes a leg
only when the other did not.  Two unequal fills are therefore left alone, and so is a fill that
came with a failure.  `blastArbitrageLegs_hedged_iff` lists the outcomes that leave no position.
-/

namespace HftArb

/-- The leg counts as filled in the rollback decision. -/
def Leg.filled (l : Leg) : Bool := l.succeeded && decide (0 < l.fill)

/-- The pipeline answered in time and reported a fill within the order. -/
def Leg.Truthful (l : Leg) : Prop := l.answer.Truthful l.intent.qty

/-- Two legs that trade the same quantity of one token on opposite sides. -/
structure Leg.Opposite (legA legB : Leg) : Prop where
  side : legB.intent.isBuy = !legA.intent.isBuy
  token : legB.intent.tokenId = legA.intent.tokenId
  qty : legB.intent.qty = legA.intent.qty

/-- What the counter-orders of a trace add to the position in the token `t`. -/
def counterPosition (t : UInt16) (events : List Event) : Decimal :=
  (events.map fun ev => match ev with
    | .counterOrder o => o.position t o.qty
    | _ => 0).sum

/-- What the legs and the counter-orders of a blast add to the position in the token `t`. -/
def netPosition (t : UInt16) (legs : List Leg) (events : List Event) : Decimal :=
  (legs.map fun l => l.intent.position t l.fill).sum + counterPosition t events

lemma counterPosition_append (t : UInt16) (evs evs' : List Event) :
    counterPosition t (evs ++ evs') = counterPosition t evs + counterPosition t evs' := by
  simp [counterPosition]

/-- Only counter-orders count. -/
lemma counterPosition_eq_zero {t : UInt16} {events : List Event}
    (h : ∀ o, Event.counterOrder o ∉ events) : counterPosition t events = 0 := by
  unfold counterPosition
  refine List.sum_eq_zero ?_
  intro q hq
  obtain ⟨ev, hev, rfl⟩ := List.mem_map.mp hq
  cases ev with
  | counterOrder o => exact absurd hev (h o)
  | _ => rfl

lemma counterPosition_counterOrders (t : UInt16) (orders : List OrderIntent) :
    counterPosition t (orders.map Event.counterOrder) =
      (orders.map fun o => o.position t o.qty).sum := by
  simp [counterPosition, Function.comp_def]

namespace HighFrequencyExecutionEngine

/-- The counter-orders of a successful blast are those of its rollback decision. -/
lemma counterPosition_of_ok {e : HighFrequencyExecutionEngine} {kind : BlastKind} {env : BlastEnv}
    {legs : List Leg} {p c : UInt64} {results : List OrderResult}
    (h : (e.blast kind env legs p c).1 = .ok results) (t : UInt16) :
    counterPosition t (e.blast kind env legs p c).2.2 =
      ((kind.counterOrders e.slippageToleranceFp legs).map fun o => o.position t o.qty).sum := by
  obtain ⟨hb, hp, hd, hcut⟩ := completed_of_ok h
  obtain ⟨e', -, heq⟩ := e.blast_of_completed kind env legs p c hb hp hd
    ((kind.cut_eq_none _ _ _).mpr hcut)
  have hgate : counterPosition t (e.gateEvents kind legs p c) = 0 :=
    counterPosition_eq_zero (by simp [gateEvents])
  have hdispatch : counterPosition t
      ((e.gatedEngine kind env legs).dispatches kind env legs) = 0 :=
    counterPosition_eq_zero (by simp [dispatches])
  have hpnl : counterPosition t ((e.bookedCents kind legs p).map Event.dailyPnl).toList = 0 :=
    counterPosition_eq_zero (by simp)
  rw [heq, counterPosition_append, counterPosition_append, counterPosition_append, hgate, hdispatch,
    hpnl, counterPosition_counterOrders]
  ring

/-- A truthful leg goes on with what it reported. -/
lemma legResult_of_truthful {l : Leg} (h : l.Truthful) (label : String) :
    (legResult label l.answer).filledQty = l.fill ∧
      (legResult label l.answer).success = l.succeeded := by
  unfold Leg.fill Leg.succeeded
  cases hans : l.answer with
  | answered r => exact ⟨rfl, rfl⟩
  | pipelineError err => exact ⟨rfl, rfl⟩
  | timedOut => exact absurd hans h.inTime

/-- What the counter-orders of a two-leg blast take back: the fill of the leg that alone counts as
filled. -/
lemma arbitrage_counterOrders_position (tolFp : UInt64) {legA legB : Leg} (hA : legA.Truthful)
    (hB : legB.Truthful) (t : UInt16) :
    ((arbitrageKind.counterOrders tolFp [legA, legB]).map fun o => o.position t o.qty).sum =
      if legA.filled ^^ legB.filled then
        if legA.filled then -legA.intent.position t legA.fill
        else -legB.intent.position t legB.fill
      else 0 := by
  obtain ⟨hfillA, hsuccA⟩ := legResult_of_truthful hA "leg-a"
  obtain ⟨hfillB, hsuccB⟩ := legResult_of_truthful hB "leg-b"
  have hfilledA : (legResult "leg-a" legA.answer).filled = legA.filled := by
    rw [OrderResult.filled, hfillA, hsuccA, Leg.filled]
  have hfilledB : (legResult "leg-b" legB.answer).filled = legB.filled := by
    rw [OrderResult.filled, hfillB, hsuccB, Leg.filled]
  have hcounterA := counterOrder_position (applySlippageLimit tolFp legA.intent) t
    (by rw [hfillA]; exact hA.fill_nonneg)
  have hcounterB := counterOrder_position (applySlippageLimit tolFp legB.intent) t
    (by rw [hfillB]; exact hB.fill_nonneg)
  rw [applySlippageLimit_position, hfillA] at hcounterA
  rw [applySlippageLimit_position, hfillB] at hcounterB
  have hcounters : arbitrageKind.counterOrders tolFp [legA, legB] =
      if legA.filled ^^ legB.filled then
        if legA.filled then
          (counterOrder (applySlippageLimit tolFp legA.intent)
            (legResult "leg-a" legA.answer)).toList
        else
          (counterOrder (applySlippageLimit tolFp legB.intent)
            (legResult "leg-b" legB.answer)).toList
      else [] := by
    have hroll : arbitrageKind.counterOrders tolFp [legA, legB] =
        (arbitrageRollback
          [(applySlippageLimit tolFp legA.intent, legResult "leg-a" legA.answer),
            (applySlippageLimit tolFp legB.intent, legResult "leg-b" legB.answer)]).getD [] := rfl
    rw [hroll, arbitrageRollback, hfilledA, hfilledB]
    split
    · rfl
    · rfl
  rw [hcounters]
  split
  · split
    · exact hcounterA
    · exact hcounterB
  · rfl

/-- The net position of a successful two-leg blast of opposite legs. -/
lemma arbitrage_netPosition {e : HighFrequencyExecutionEngine} {env : BlastEnv} {legA legB : Leg}
    {p c : UInt64} (hopp : Leg.Opposite legA legB) (hA : legA.Truthful) (hB : legB.Truthful)
    {results : List OrderResult} (hok : (e.blastArbitrageLegs env legA legB p c).1 = .ok results) :
    netPosition legA.intent.tokenId [legA, legB] (e.blastArbitrageLegs env legA legB p c).2.2 =
      signedQty legA.intent.isBuy
        (if legA.filled ^^ legB.filled then
          if legA.filled then -legB.fill else legA.fill
        else legA.fill - legB.fill) := by
  have hcounter := counterPosition_of_ok hok legA.intent.tokenId
  have hposA : legA.intent.position legA.intent.tokenId legA.fill =
      signedQty legA.intent.isBuy legA.fill := if_pos rfl
  have hposB : legB.intent.position legA.intent.tokenId legB.fill =
      -signedQty legA.intent.isBuy legB.fill := by
    rw [OrderIntent.position, if_pos hopp.token, hopp.side, signedQty_not]
  have hpos : netPosition legA.intent.tokenId [legA, legB]
      (e.blastArbitrageLegs env legA legB p c).2.2 =
      signedQty legA.intent.isBuy legA.fill - signedQty legA.intent.isBuy legB.fill +
        counterPosition legA.intent.tokenId (e.blastArbitrageLegs env legA legB p c).2.2 := by
    simp only [netPosition, List.map_cons, List.map_nil, List.sum_cons, List.sum_nil, hposA, hposB]
    ring
  rw [hpos, blastArbitrageLegs, hcounter, arbitrage_counterOrders_position _ hA hB, hposA, hposB]
  split
  · split
    · rw [signedQty_neg]
      ring
    · ring
  · rw [signedQty_sub]
    ring

/-- A successful two-leg blast of opposite legs with truthful answers leaves no position exactly
when the fills are equal and, unless they are zero, came with the same success flag, or when one leg
filled with success and the other filled nothing. -/
theorem blastArbitrageLegs_hedged_iff (e : HighFrequencyExecutionEngine) (env : BlastEnv)
    (legA legB : Leg) (p c : UInt64) (hopp : Leg.Opposite legA legB) (hA : legA.Truthful)
    (hB : legB.Truthful) (results : List OrderResult)
    (hok : (e.blastArbitrageLegs env legA legB p c).1 = .ok results) :
    netPosition legA.intent.tokenId [legA, legB] (e.blastArbitrageLegs env legA legB p c).2.2 = 0 ↔
      (legA.fill = legB.fill ∧ (legA.fill = 0 ∨ legA.succeeded = legB.succeeded)) ∨
      (legA.succeeded = true ∧ 0 < legA.fill ∧ legB.fill = 0) ∨
      (legB.succeeded = true ∧ 0 < legB.fill ∧ legA.fill = 0) := by
  have hfA : 0 ≤ legA.fill := hA.fill_nonneg
  have hfB : 0 ≤ legB.fill := hB.fill_nonneg
  rw [arbitrage_netPosition hopp hA hB hok, signedQty_eq_zero]
  unfold Leg.filled
  generalize legA.fill = fA at hfA ⊢
  generalize legB.fill = fB at hfB ⊢
  rcases hfA.eq_or_lt with rfl | hposA
  · rcases hfB.eq_or_lt with rfl | hposB
    · simp
    · cases legB.succeeded with
      | true => simp [hposB, hposB.ne']
      | false => simp [hposB.ne', hposB.ne]
  · rcases hfB.eq_or_lt with rfl | hposB
    · cases legA.succeeded with
      | true => simp [hposA, hposA.ne']
      | false => simp [hposA.ne']
    · cases legA.succeeded with
      | true =>
        cases legB.succeeded with
        | true => simp [hposA, hposB, hposA.ne', hposB.ne', sub_eq_zero]
        | false => simp [hposA, hposB, hposA.ne', hposB.ne']
      | false =>
        cases legB.succeeded with
        | true => simp [hposA, hposB, hposA.ne', hposB.ne']
        | false => simp [hposA.ne', hposB.ne', sub_eq_zero]

theorem blastArbitrageLegs_hedged_filled :
    netPosition 3 [.testBuy (1 / 2), .testSell (1 / 2)]
      (test.blastArbitrageLegs ⟨1, false, none⟩ (.testBuy (1 / 2)) (.testSell (1 / 2)) 50
        100000000000).2.2 = 0 := by
  refine (blastArbitrageLegs_hedged_iff test _ (.testBuy (1 / 2)) (.testSell (1 / 2)) 50
    100000000000 ⟨rfl, rfl, rfl⟩ ⟨?_, ?_, ?_⟩ ⟨?_, ?_, ?_⟩
    [⟨true, some "A-1", 1 / 2, 20000, none, none⟩, ⟨true, some "B-1", 1 / 2, 20100, none, none⟩]
    ?_).mpr (Or.inl ⟨rfl, Or.inr rfl⟩)
  all_goals decide +kernel

/-- The buying leg fills completely, the selling leg half of its quantity: the other half stays
open, although the blast succeeds. -/
theorem unequal_fills_leave_position :
    Leg.Opposite (.testBuy (1 / 2)) (.testSell (1 / 4)) ∧
    (Leg.testBuy (1 / 2)).Truthful ∧ (Leg.testSell (1 / 4)).Truthful ∧
    (test.blastArbitrageLegs ⟨1, false, none⟩ (.testBuy (1 / 2)) (.testSell (1 / 4)) 50
      100000000000).1 = .ok [⟨true, some "A-1", 1 / 2, 20000, none, none⟩,
        ⟨true, some "B-1", 1 / 4, 20100, none, none⟩] ∧
    netPosition 3 [.testBuy (1 / 2), .testSell (1 / 4)]
      (test.blastArbitrageLegs ⟨1, false, none⟩ (.testBuy (1 / 2)) (.testSell (1 / 4)) 50
        100000000000).2.2 = 1 / 4 := by
  refine ⟨⟨rfl, rfl, rfl⟩, ⟨?_, ?_, ?_⟩, ⟨?_, ?_, ?_⟩, ?_, ?_⟩
  all_goals decide +kernel

end HighFrequencyExecutionEngine

end HftArb
