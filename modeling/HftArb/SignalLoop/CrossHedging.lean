import HftArb.Execution.Hedging
import HftArb.SignalLoop.Loop

/-!
# The position a cross-exchange slice leaves

A slice buys on one exchange and sells the same quantity on another.  The executor says whether a
rollback is required, and the signal loop fires the counter-orders, of both legs, and sends the
settlement request.  It does both only under the condition that both legs succeeded.

A leg that failed against a leg that filled is therefore left alone, although the executor asks for
a rollback; and the settlement request, for the whole quantity of the slice, is sent even when the
fills were partial or have just been undone.  `dispatchSlice_settled_iff` says which outcomes leave
neither a position nor a request for more than there is.
-/

namespace HftArb

/-- What the counter-orders of a trace sell back on an exchange. -/
def soldBack (x : UInt16) (events : List Event) : Decimal :=
  (events.map fun ev => match ev with
    | .counterOrder o => if o.exchangeId = x ∧ o.isBuy = false then o.qty else 0
    | _ => 0).sum

lemma soldBack_append (x : UInt16) (evs evs' : List Event) :
    soldBack x (evs ++ evs') = soldBack x evs + soldBack x evs' := by
  simp [soldBack]

namespace CrossPlan

variable (plan : CrossPlan) (env : SignalEnv) (status : GateStatus) (q : Decimal)
  (senv : SliceEnv)

/-- The buying order of a slice reaches its pipeline. -/
def BuySent : Prop := (plan.buyOrder q).isValid = true

/-- The selling order of a slice reaches its pipeline. -/
def SellSent : Prop := (plan.buyOrder q).isValid = true ∧ (plan.sellOrder q).isValid = true

instance : Decidable (plan.BuySent q) := inferInstanceAs (Decidable (_ = _))

instance : Decidable (plan.SellSent q) := inferInstanceAs (Decidable (_ ∧ _))

/-- The quantity a slice buys. -/
def bought : Decimal := if plan.BuySent q then senv.buyAnswer.fill else 0

/-- The quantity a slice sells. -/
def sold : Decimal := if plan.SellSent q then senv.sellAnswer.fill else 0

/-- Both legs of a slice reach their pipelines and succeed. -/
def BothSucceed : Prop :=
  plan.SellSent q ∧ senv.buyAnswer.succeeded = true ∧ senv.sellAnswer.succeeded = true

instance : Decidable (plan.BothSucceed q senv) := inferInstanceAs (Decidable (_ ∧ _))

/-- After the slice and its counter-orders, which are taken to fill completely, no position is left,
and a settlement request asks for no more than the slice left on the buying exchange. -/
def Settled : Prop :=
  let events := plan.dispatchSlice env status q senv
  plan.bought q senv - plan.sold q senv + counterPosition plan.tokenId events = 0 ∧
    ∀ request, Event.rebalance request ∈ events →
      request.amount ≤ plan.bought q senv - soldBack plan.buyExchange events

/-! ## The result of a slice -/

/-- A valid order of a slice has a positive quantity. -/
lemma quantity_pos_of_buySent (h : plan.BuySent q) : 0 < q := by
  unfold BuySent CrossExchangeOrder.isValid validateOrder at h
  by_contra hq
  have hq' : (plan.buyOrder q).quantity ≤ 0 := not_lt.mp hq
  by_cases hp : (plan.buyOrder q).price ≤ 0
  · simp [hp] at h
  · simp [hp, hq'] at h

/-- A truthful buying leg is reported as it went. -/
lemma sliceResult_buyLeg (h : senv.buyAnswer.Truthful q) :
    ((plan.sliceResult env q senv).buyLeg.success = true ↔
      plan.BuySent q ∧ senv.buyAnswer.succeeded = true) ∧
    (plan.sliceResult env q senv).buyLeg.filledQuantity = plan.bought q senv := by
  have hleg : (plan.sliceResult env q senv).buyLeg =
      buyResult (plan.buyOrder q) senv.buyAnswer := rfl
  obtain ⟨hsucc, hfill⟩ := outcome_of_truthful (plan.buyOrder q) "buy" h
  rw [hleg]
  unfold bought BuySent
  rcases buyResult_cases (plan.buyOrder q) senv.buyAnswer with ⟨hv, heq⟩ | ⟨hv, err, heq⟩
  · simp [heq, hv, hsucc, hfill]
  · simp [heq, hv, CrossExchangeOrder.failed]

/-- A truthful selling leg is reported as it went. -/
lemma sliceResult_sellLeg (h : senv.sellAnswer.Truthful q) :
    ((plan.sliceResult env q senv).sellLeg.success = true ↔
      plan.SellSent q ∧ senv.sellAnswer.succeeded = true) ∧
    (plan.sliceResult env q senv).sellLeg.filledQuantity = plan.sold q senv := by
  have hleg : (plan.sliceResult env q senv).sellLeg =
      sellResult (plan.buyOrder q) (plan.sellOrder q) senv.sellAnswer := rfl
  obtain ⟨hsucc, hfill⟩ := outcome_of_truthful (plan.sellOrder q) "sell" h
  rw [hleg]
  unfold sold SellSent
  rcases sellResult_cases (plan.buyOrder q) (plan.sellOrder q) senv.sellAnswer with
    ⟨hv, heq⟩ | ⟨hv, err, heq⟩
  · simp [heq, hv, hsucc, hfill]
  · simp [heq, hv, CrossExchangeOrder.failed]

variable {plan q senv}

/-- The executor reports two successes exactly when both legs were sent and succeeded. -/
lemma sliceResult_bothSucceeded (hb : senv.buyAnswer.Truthful q) (hs : senv.sellAnswer.Truthful q) :
    (plan.sliceResult env q senv).bothSucceeded = true ↔ plan.BothSucceed q senv := by
  have hbuy := (plan.sliceResult_buyLeg env q senv hb).1
  have hsell := (plan.sliceResult_sellLeg env q senv hs).1
  have hboth : (plan.sliceResult env q senv).bothSucceeded =
      ((plan.sliceResult env q senv).buyLeg.success &&
        (plan.sliceResult env q senv).sellLeg.success) := rfl
  rw [hboth, Bool.and_eq_true, hbuy, hsell]
  unfold BothSucceed SellSent BuySent
  tauto

/-- Among two successes the executor requires a rollback exactly when the fills differ. -/
lemma sliceResult_rollbackRequired (hb : senv.buyAnswer.Truthful q)
    (hs : senv.sellAnswer.Truthful q) (h : plan.BothSucceed q senv) :
    (plan.sliceResult env q senv).rollbackRequired = true ↔
      plan.bought q senv ≠ plan.sold q senv := by
  have hbuy := (plan.sliceResult_buyLeg env q senv hb)
  have hsell := (plan.sliceResult_sellLeg env q senv hs)
  have hb1 : (plan.sliceResult env q senv).buyLeg.success = true := hbuy.1.mpr ⟨h.1.1, h.2.1⟩
  have hs1 : (plan.sliceResult env q senv).sellLeg.success = true := hsell.1.mpr ⟨h.1, h.2.2⟩
  have hroll : (plan.sliceResult env q senv).rollbackRequired =
      (((plan.sliceResult env q senv).buyLeg.success ^^
          (plan.sliceResult env q senv).sellLeg.success) ||
        decide ((plan.sliceResult env q senv).buyLeg.filledQuantity ≠
          (plan.sliceResult env q senv).sellLeg.filledQuantity)) := rfl
  rw [hroll, hb1, hs1, hbuy.2, hsell.2]
  simp

/-- Two successes bought and sold what their legs reported. -/
lemma fills_of_bothSucceed (h : plan.BothSucceed q senv) :
    plan.bought q senv = senv.buyAnswer.fill ∧ plan.sold q senv = senv.sellAnswer.fill := by
  have hbuy : plan.BuySent q := h.1.1
  exact ⟨if_pos hbuy, if_pos h.1⟩

/-! ## What the loop does about it -/

/-- The counter-order of the buying leg takes back what was bought. -/
lemma buyCounter_position (plan : CrossPlan) {leg : LegResult} (hs : leg.success = true)
    (hf : 0 ≤ leg.filledQuantity) :
    counterPosition plan.tokenId ((plan.buyCounter leg).toList.map Event.counterOrder) =
      -leg.filledQuantity ∧
    soldBack plan.buyExchange ((plan.buyCounter leg).toList.map Event.counterOrder) =
      leg.filledQuantity := by
  rcases hf.eq_or_lt with hzero | hpos
  · simp [buyCounter, ← hzero, counterPosition, soldBack]
  · simp [buyCounter, hs, hpos, counterPosition, soldBack, OrderIntent.position, signedQty]

/-- The counter-order of the selling leg takes back what was sold, and sells nothing. -/
lemma sellCounter_position (plan : CrossPlan) {leg : LegResult} (hs : leg.success = true)
    (hf : 0 ≤ leg.filledQuantity) :
    counterPosition plan.tokenId ((plan.sellCounter leg).toList.map Event.counterOrder) =
      leg.filledQuantity ∧
    soldBack plan.buyExchange ((plan.sellCounter leg).toList.map Event.counterOrder) = 0 := by
  rcases hf.eq_or_lt with hzero | hpos
  · simp [sellCounter, ← hzero, counterPosition, soldBack]
  · simp [sellCounter, hs, hpos, counterPosition, soldBack, OrderIntent.position, signedQty]

/-- The dispatches of a slice are no counter-orders. -/
lemma sliceDispatches_position (plan : CrossPlan) (status : GateStatus) (q : Decimal) :
    counterPosition plan.tokenId (plan.sliceDispatches status q) = 0 ∧
      soldBack plan.buyExchange (plan.sliceDispatches status q) = 0 := by
  constructor
  · exact counterPosition_eq_zero (by simp [sliceDispatches])
  · unfold soldBack sliceDispatches
    simp [Function.comp_def]

/-- The settlement request of a slice, unless the channel is full. -/
def settlementEvents (plan : CrossPlan) (q : Decimal) (senv : SliceEnv) : List Event :=
  if senv.channelFull then [] else [.rebalance (plan.settlement q)]

lemma settlementEvents_position (plan : CrossPlan) (q : Decimal) (senv : SliceEnv) (x t : UInt16) :
    counterPosition t (plan.settlementEvents q senv) = 0 ∧
      soldBack x (plan.settlementEvents q senv) = 0 := by
  unfold settlementEvents
  split <;> simp [counterPosition, soldBack]

/-- The counter-orders of a slice whose fills differ. -/
def rollbackEvents (plan : CrossPlan) (env : SignalEnv) (q : Decimal) (senv : SliceEnv) :
    List Event :=
  (plan.buyCounter (plan.sliceResult env q senv).buyLeg).toList.map Event.counterOrder ++
    (plan.sellCounter (plan.sliceResult env q senv).sellLeg).toList.map Event.counterOrder

section

variable (hb : senv.buyAnswer.Truthful q) (hs : senv.sellAnswer.Truthful q)

include hb hs

/-- Without two successes the loop does nothing more. -/
lemma afterSlice_of_not_bothSucceed (h : ¬ plan.BothSucceed q senv) :
    plan.afterSlice q senv (plan.sliceResult env q senv) = [] := by
  have hboth := mt (sliceResult_bothSucceeded env hb hs).mp h
  rw [afterSlice, if_neg hboth]

/-- After two successes the loop sends the settlement request, and before it the counter-orders when
the fills differ. -/
lemma afterSlice_of_bothSucceed (h : plan.BothSucceed q senv) :
    plan.afterSlice q senv (plan.sliceResult env q senv) =
      (if plan.bought q senv = plan.sold q senv then [] else plan.rollbackEvents env q senv) ++
        plan.settlementEvents q senv := by
  have hboth := (sliceResult_bothSucceeded env hb hs).mpr h
  have hroll := sliceResult_rollbackRequired env hb hs h
  rw [afterSlice, if_pos hboth]
  congr 1
  by_cases heq : plan.bought q senv = plan.sold q senv
  · rw [if_pos heq, if_neg (mt hroll.mp (not_not_intro heq))]
  · rw [if_neg heq, if_pos (hroll.mpr heq), List.map_append]
    rfl

/-- The counter-orders of a slice take back both fills. -/
lemma rollbackEvents_position (h : plan.BothSucceed q senv) :
    counterPosition plan.tokenId (plan.rollbackEvents env q senv) =
      -plan.bought q senv + plan.sold q senv ∧
    soldBack plan.buyExchange (plan.rollbackEvents env q senv) = plan.bought q senv := by
  obtain ⟨hsb, hfb⟩ := plan.sliceResult_buyLeg env q senv hb
  obtain ⟨hss, hfs⟩ := plan.sliceResult_sellLeg env q senv hs
  obtain ⟨hbought, hsold⟩ := fills_of_bothSucceed h
  have hbuy : 0 ≤ plan.bought q senv := by
    rw [hbought]
    exact hb.fill_nonneg
  have hsell : 0 ≤ plan.sold q senv := by
    rw [hsold]
    exact hs.fill_nonneg
  obtain ⟨hb1, hb2⟩ := plan.buyCounter_position (hsb.mpr ⟨h.1.1, h.2.1⟩)
    (by rw [hfb]; exact hbuy)
  obtain ⟨hs1, hs2⟩ := plan.sellCounter_position (hss.mpr ⟨h.1, h.2.2⟩)
    (by rw [hfs]; exact hsell)
  unfold rollbackEvents
  rw [counterPosition_append, soldBack_append, hb1, hb2, hs1, hs2, hfb, hfs]
  exact ⟨rfl, add_zero _⟩

end

/-- The request of a slice is the settlement of its quantity, sent after two successes when the
channel has room. -/
lemma rebalance_mem_settlementEvents_iff {request : RebalanceRequest} :
    Event.rebalance request ∈ plan.settlementEvents q senv ↔
      senv.channelFull = false ∧ request = plan.settlement q := by
  unfold settlementEvents
  cases senv.channelFull <;> simp

/-- The request of a slice asks for no more than there is exactly when the whole slice is there or
the channel is full. -/
lemma forall_settlement_iff {available : Decimal} :
    (∀ request, senv.channelFull = false ∧ request = plan.settlement q →
      request.amount ≤ available) ↔ senv.channelFull = true ∨ q ≤ available := by
  cases hfull : senv.channelFull with
  | true => simp
  | false => simp [settlement]

/-- A slice leaves neither a position nor a request for more than there is exactly when either one
leg was not sent or failed and the fills are equal, or both legs succeeded and either filled the
whole slice or found the channel full. -/
theorem dispatchSlice_settled_iff (plan : CrossPlan) (env : SignalEnv) (status : GateStatus)
    (q : Decimal) (senv : SliceEnv) (hb : senv.buyAnswer.Truthful q)
    (hs : senv.sellAnswer.Truthful q) :
    plan.Settled env status q senv ↔
      (¬ plan.BothSucceed q senv ∧ plan.bought q senv = plan.sold q senv) ∨
      (plan.BothSucceed q senv ∧
        (senv.channelFull = true ∨ (plan.bought q senv = q ∧ plan.sold q senv = q))) := by
  obtain ⟨hd1, hd2⟩ := sliceDispatches_position plan status q
  have hdisp : ∀ request, Event.rebalance request ∉ plan.sliceDispatches status q := by
    intro request
    simp [sliceDispatches]
  unfold Settled dispatchSlice
  simp only [counterPosition_append, soldBack_append, hd1, hd2, zero_add, List.mem_append, hdisp,
    false_or]
  by_cases h : plan.BothSucceed q senv
  · obtain ⟨ht1, ht2⟩ := plan.settlementEvents_position q senv plan.buyExchange plan.tokenId
    have hq : 0 < q := plan.quantity_pos_of_buySent q h.1.1
    have hle : plan.bought q senv ≤ q := by
      rw [(fills_of_bothSucceed h).1]
      exact hb.fill_le
    rw [afterSlice_of_bothSucceed env hb hs h]
    simp only [counterPosition_append, soldBack_append, ht1, ht2, add_zero, List.mem_append,
      rebalance_mem_settlementEvents_iff, h, not_true, false_and, false_or, true_and]
    by_cases heq : plan.bought q senv = plan.sold q senv
    · -- The slice leaves what was bought.
      have hall : q ≤ plan.bought q senv ↔ plan.bought q senv = q ∧ plan.sold q senv = q := by
        rw [← heq, and_self]
        exact ⟨fun hqle => le_antisymm hle hqle, fun hbq => hbq.ge⟩
      have hflat : plan.bought q senv - plan.sold q senv = 0 := sub_eq_zero.mpr heq
      simp only [if_pos heq, List.not_mem_nil, false_or, forall_settlement_iff, ← hall]
      simp [counterPosition, soldBack, hflat]
    · -- The slice is rolled back and leaves nothing.
      obtain ⟨hr1, hr2⟩ := rollbackEvents_position env hb hs h
      have hnone : ∀ request, Event.rebalance request ∉ plan.rollbackEvents env q senv := by
        intro request
        simp [rollbackEvents]
      have hnotAll : ¬ (plan.bought q senv = q ∧ plan.sold q senv = q) :=
        fun hall => heq (hall.1.trans hall.2.symm)
      simp only [if_neg heq, hr1, hr2, hnone, false_or, forall_settlement_iff, sub_self,
        not_le.mpr hq, hnotAll, or_false]
      exact and_iff_right (by ring)
  · rw [afterSlice_of_not_bothSucceed env hb hs h]
    simp [h, counterPosition, sub_eq_zero]

/-- The plan of the small market. -/
def test : CrossPlan := ⟨0, 1, 3, 1 / 20, 20000, 20200, "BTC", "BTCUSDT", "BTCUSDT"⟩

/-- A complete fill of the small market is settled. -/
theorem dispatchSlice_settled_filled :
    planCross testLoopConfig testSignalEnv 0 1 3 100 = some test ∧
      test.Settled testSignalEnv .clear (1 / 20) (testSignalEnv.slices 0) := by
  refine ⟨by decide +kernel, (dispatchSlice_settled_iff test testSignalEnv .clear (1 / 20)
    (testSignalEnv.slices 0) ?_ ?_).mpr (Or.inr ?_)⟩
  · exact ⟨by decide +kernel, by decide +kernel, by decide +kernel⟩
  · exact ⟨by decide +kernel, by decide +kernel, by decide +kernel⟩
  · exact ⟨by decide +kernel, Or.inr (by decide +kernel)⟩

/-- The buying leg of the small market fills and the selling leg meets an error of its pipeline. -/
def oneLegEnv : SliceEnv :=
  ⟨.answered ⟨true, some "A-1", 1 / 20, 20000, none, none⟩, .pipelineError "order rejected", false⟩

/-- A slice of the small market whose selling leg fails leaves what it bought. -/
theorem failed_leg_leaves_position :
    planCross testLoopConfig testSignalEnv 0 1 3 100 = some test ∧
      test.slices.map OrderSlice.quantity = [1 / 20] ∧
      oneLegEnv.buyAnswer.Truthful (1 / 20) ∧ oneLegEnv.sellAnswer.Truthful (1 / 20) ∧
      ¬ test.Settled testSignalEnv .clear (1 / 20) oneLegEnv := by
  refine ⟨by decide +kernel, by decide +kernel, ⟨by decide +kernel, by decide +kernel,
    by decide +kernel⟩, ⟨by decide +kernel, by decide +kernel, by decide +kernel⟩, ?_⟩
  rintro ⟨hflat, -⟩
  have hleft : test.bought (1 / 20) oneLegEnv - test.sold (1 / 20) oneLegEnv +
      counterPosition test.tokenId (test.dispatchSlice testSignalEnv .clear (1 / 20) oneLegEnv) =
        1 / 20 := by
    decide +kernel
  rw [hleft] at hflat
  exact absurd hflat (by decide +kernel)

end CrossPlan

end HftArb
