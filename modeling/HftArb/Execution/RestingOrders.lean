import HftArb.Execution.Blasts
import HftArb.Foundations.Runs

/-!
# Resting orders

A blast tracks every order that got an id and afterwards forgets those that are reported filled, so
that the cancellation sweeper finds the others.  An order that is filled in part is reported filled
too: its remainder rests on the exchange and is not in the tracker any more.

`resting_tracked_iff` says which remainders stay tracked.  Besides the partial fills an order can
only be lost while the later legs are tracked, when it is stale past half the capacity of the map
or the oldest entry of a full map.
-/

namespace HftArb

/-! ## The orders of a blast -/

/-- A leg of a blast with the order that was sent for it and the result. -/
structure SentLeg where
  leg : Leg
  order : OrderIntent
  result : OrderResult

/-- The legs of a blast with their orders and results. -/
def BlastKind.sentLegs (kind : BlastKind) (tolFp : UInt64) (legs : List Leg) : List SentLeg :=
  (legs.zip (kind.results legs)).map fun x => ⟨x.1, applySlippageLimit tolFp x.1.intent, x.2⟩

namespace SentLeg

/-- The order got an id, and less was filled than ordered. -/
def Rests (x : SentLeg) : Prop :=
  x.result.orderId.isSome = true ∧ x.result.filledQty < x.order.qty

instance (x : SentLeg) : Decidable x.Rests := inferInstanceAs (Decidable (_ ∧ _))

/-- The entry of the order in the tracker, under the id `orderId`. -/
def entry (t : LiveOrderTracker) (x : SentLeg) (orderId : String) : TrackedOrder :=
  ⟨orderId, x.order.exchangeId, t.toUppercase x.order.symbol, x.order.isBuy,
    x.leg.trackClock.now, x.leg.trackClock.epochMs, 0⟩

/-- The tracker after the order of a leg has been tracked, if it got an id. -/
def trackIn (x : SentLeg) (t : LiveOrderTracker) : LiveOrderTracker :=
  match x.result.orderId with
  | some orderId =>
    t.track x.leg.trackClock orderId x.order.exchangeId x.order.symbol x.order.isBuy
  | none => t

lemma trackIn_of_none {x : SentLeg} (h : x.result.orderId = none) (t : LiveOrderTracker) :
    x.trackIn t = t := by
  simp only [trackIn, h]

lemma trackIn_of_some {x : SentLeg} {orderId : String} (h : x.result.orderId = some orderId)
    (t : LiveOrderTracker) :
    x.trackIn t =
      t.track x.leg.trackClock orderId x.order.exchangeId x.order.symbol x.order.isBuy := by
  simp only [trackIn, h]

end SentLeg

/-- The tracker after the orders of some legs have been tracked. -/
def LiveOrderTracker.trackAll (t : LiveOrderTracker) (xs : List SentLeg) : LiveOrderTracker :=
  xs.foldl (fun t x => x.trackIn t) t

/-- An entry is not dropped while the orders of the legs `xs` are tracked. -/
def LiveOrderTracker.Keeps (t : LiveOrderTracker) (o : TrackedOrder) : List SentLeg → Prop
  | [] => True
  | x :: xs =>
    (x.result.orderId.isSome = true → ¬ t.Drops x.leg.trackClock.now o) ∧
      (x.trackIn t).Keeps o xs

instance LiveOrderTracker.Keeps.decidable (o : TrackedOrder) :
    ∀ (xs : List SentLeg) (t : LiveOrderTracker), Decidable (t.Keeps o xs)
  | [], _ => .isTrue trivial
  | x :: xs, t =>
    have := LiveOrderTracker.Keeps.decidable o xs (x.trackIn t)
    inferInstanceAs (Decidable (_ ∧ (x.trackIn t).Keeps o xs))

/-- There is room for the orders of a blast: none of its resting orders is dropped while the orders
of the later legs are tracked. -/
def LiveOrderTracker.HasRoom (t : LiveOrderTracker) : List SentLeg → Prop
  | [] => True
  | x :: xs =>
    (∀ id ∈ x.result.orderId, x.Rests → (x.trackIn t).Keeps (x.entry t id) xs) ∧
      (x.trackIn t).HasRoom xs

instance LiveOrderTracker.HasRoom.decidable :
    ∀ (xs : List SentLeg) (t : LiveOrderTracker), Decidable (t.HasRoom xs)
  | [], _ => .isTrue trivial
  | x :: xs, t =>
    have := LiveOrderTracker.HasRoom.decidable xs (x.trackIn t)
    inferInstanceAs (Decidable ((∀ id ∈ x.result.orderId, _) ∧ (x.trackIn t).HasRoom xs))

namespace LiveOrderTracker

variable {t : LiveOrderTracker} {xs : List SentLeg}

/-- An id that is not in the map does not get there by the orders of legs with other ids. -/
lemma not_tracks_trackAll {id : String} (hid : ∀ x ∈ xs, x.result.orderId ≠ some id)
    (h : ¬ t.Tracks id) : ¬ (t.trackAll xs).Tracks id := by
  induction xs generalizing t with
  | nil => exact h
  | cons x xs ih =>
    have hx := hid x (by simp)
    have hstep : ¬ (x.trackIn t).Tracks id := by
      cases hr : x.result.orderId with
      | none =>
        rw [SentLeg.trackIn_of_none hr]
        exact h
      | some orderId =>
        have hne : id ≠ orderId := fun heq => hx (by rw [hr, heq])
        rw [SentLeg.trackIn_of_some hr, tracks_track_iff hne]
        rintro ⟨o, ho, rfl⟩
        exact h ⟨o, (t.makeRoom_sublist _).mem ho, rfl⟩
    exact ih (fun y hy => hid y (by simp [hy])) hstep

/-- The id of an entry is still in the map after the orders of some legs with other ids have been
tracked exactly when the entry is not dropped on the way. -/
lemma tracks_trackAll_iff {o : TrackedOrder} (ho : o ∈ t.orders)
    (hid : ∀ x ∈ xs, x.result.orderId ≠ some o.orderId) :
    (t.trackAll xs).Tracks o.orderId ↔ t.Keeps o xs := by
  induction xs generalizing t with
  | nil => exact iff_of_true ⟨o, ho, rfl⟩ trivial
  | cons x xs ih =>
    have hx := hid x (by simp)
    have hrest : ∀ y ∈ xs, y.result.orderId ≠ some o.orderId := fun y hy => hid y (by simp [hy])
    change ((x.trackIn t).trackAll xs).Tracks o.orderId ↔ _ ∧ (x.trackIn t).Keeps o xs
    cases hr : x.result.orderId with
    | none =>
      rw [SentLeg.trackIn_of_none hr, ih ho hrest]
      simp
    | some orderId =>
      have hne : o.orderId ≠ orderId := fun heq => hx (by rw [hr, heq])
      have htracked := SentLeg.trackIn_of_some hr t
      by_cases hdrop : t.Drops x.leg.trackClock.now o
      · -- An entry with this id would be the dropped one.
        refine iff_of_false (not_tracks_trackAll hrest ?_) fun h => h.1 rfl hdrop
        rw [htracked, tracks_track_iff hne]
        rintro ⟨o', ho', hid'⟩
        obtain rfl := t.eq_of_orderId_eq ((t.makeRoom_sublist _).mem ho') ho hid'
        exact (mem_makeRoom_iff ho).mp ho' hdrop
      · have hmem : o ∈ (x.trackIn t).orders := by
          rw [htracked, mem_track_iff]
          exact Or.inl ⟨(mem_makeRoom_iff ho).mpr hdrop, hne⟩
        rw [ih hmem hrest]
        simp [hdrop]

/-- The order of a leg is in the map once it has been tracked. -/
lemma entry_mem_trackIn {x : SentLeg} {id : String} (h : x.result.orderId = some id) :
    x.entry t id ∈ (x.trackIn t).orders := by
  rw [SentLeg.trackIn_of_some h]
  exact mem_track_iff.mpr (Or.inr rfl)

/-- The resting orders of some legs with ids of their own are all in the map exactly when there was
room for them. -/
lemma forall_tracks_trackAll_iff
    (hids : xs.Pairwise fun x y => ∀ id ∈ x.result.orderId, y.result.orderId ≠ some id) :
    (∀ x ∈ xs, x.Rests → ∀ id ∈ x.result.orderId, (t.trackAll xs).Tracks id) ↔ t.HasRoom xs := by
  induction xs generalizing t with
  | nil => simp [HasRoom]
  | cons x xs ih =>
    obtain ⟨hx, hxs⟩ := List.pairwise_cons.mp hids
    rw [List.forall_mem_cons, HasRoom, ← ih hxs]
    refine and_congr ⟨fun h id hid hrests => ?_, fun h hrests id hid => ?_⟩ Iff.rfl
    · have hiff := tracks_trackAll_iff (entry_mem_trackIn (t := t) hid) fun y hy => hx y hy id hid
      exact hiff.mp (h hrests id hid)
    · have hiff := tracks_trackAll_iff (entry_mem_trackIn (t := t) hid) fun y hy => hx y hy id hid
      exact hiff.mpr (h id hid hrests)

end LiveOrderTracker

namespace HighFrequencyExecutionEngine

variable (e : HighFrequencyExecutionEngine) (kind : BlastKind) (env : BlastEnv) (legs : List Leg)
  (p c : UInt64)

/-! ## The tracker after a blast -/

/-- The orders and the results of the legs, leg by leg. -/
lemma zip_sentOrders (tolFp : UInt64) (legs : List Leg) (results : List OrderResult) :
    legs.zip ((sentOrders tolFp legs).zip results) =
      (legs.zip results).map fun x => (x.1, applySlippageLimit tolFp x.1.intent, x.2) := by
  unfold sentOrders
  induction legs generalizing results with
  | nil => rfl
  | cons l legs ih =>
    cases results with
    | nil => rfl
    | cons r results => simp [ih]

/-- In live mode the orders of the legs are tracked one after the other. -/
lemma foldl_trackLiveOrder (hlive : e.isPaperMode = false) (xs : List SentLeg) :
    (xs.foldl (fun e x => e.trackLiveOrder x.leg.trackClock x.result x.order) e).orderTracker =
      e.orderTracker.trackAll xs := by
  induction xs generalizing e with
  | nil => rfl
  | cons x xs ih =>
    have hstep : e.trackLiveOrder x.leg.trackClock x.result x.order =
        { e with orderTracker := x.trackIn e.orderTracker } := by
      unfold trackLiveOrder
      rw [if_neg (by simp [hlive])]
      split
      · next orderId hr => rw [SentLeg.trackIn_of_some hr]
      · next hr => rw [SentLeg.trackIn_of_none hr]
    rw [List.foldl_cons, hstep]
    exact ih _ hlive

/-- In live mode the answers of a blast are booked with all its orders tracked. -/
lemma bookAnswers_orderTracker (hlive : e.isPaperMode = false) :
    (e.bookAnswers kind legs).orderTracker =
      e.orderTracker.trackAll (kind.sentLegs e.slippageToleranceFp legs) := by
  unfold bookAnswers
  dsimp only
  generalize legs.filter _ = errors
  have htracker := Runs.foldl_leaves orderTracker (f := fun e (_ : Leg) => e.countRollback)
    (fun _ _ => rfl) errors e
  have hmode := Runs.foldl_leaves isPaperMode (f := fun e (_ : Leg) => e.countRollback)
    (fun _ _ => rfl) errors e
  have hfold := foldl_trackLiveOrder (errors.foldl (fun e _ => e.countRollback) e)
    (hmode.trans hlive) (kind.sentLegs e.slippageToleranceFp legs)
  rw [htracker] at hfold
  rw [← hfold, zip_sentOrders, BlastKind.sentLegs, List.foldl_map, List.foldl_map]
  split <;> rfl

/-- The outcomes are recorded outside the tracker. -/
lemma recordOutcomes_orderTracker (results : List OrderResult) :
    (e.recordOutcomes legs results).orderTracker = e.orderTracker := by
  have houtcome : ∀ (e : HighFrequencyExecutionEngine) (x : Leg × OrderResult),
      (e.recordLegOutcome x.1.outcomeNow x.1.intent.exchangeId x.2).orderTracker =
        e.orderTracker := by
    intro e x
    unfold recordLegOutcome
    split <;> rfl
  have hslippage : ∀ (e : HighFrequencyExecutionEngine) (x : Leg × OrderResult),
      (e.verifyLegSlippage x.1.intent x.2).orderTracker = e.orderTracker := by
    intro e x
    unfold verifyLegSlippage
    split
    · rfl
    · split <;> rfl
  unfold recordOutcomes
  rw [Runs.foldl_leaves orderTracker hslippage, Runs.foldl_leaves orderTracker houtcome]

/-- The ids left when the filled orders are forgotten. -/
lemma tracks_untrackFilled_iff (results : List OrderResult) (id : String) :
    (e.untrackFilled results).orderTracker.Tracks id ↔
      e.orderTracker.Tracks id ∧ ∀ r ∈ results, r.filled = true → r.orderId ≠ some id := by
  unfold untrackFilled
  induction results generalizing e with
  | nil => simp
  | cons r results ih =>
    rw [List.forall_mem_cons]
    by_cases hfilled : r.filled = true
    · rw [List.filter_cons_of_pos hfilled, List.foldl_cons, ih]
      have hstep : (e.untrackLiveOrder r).orderTracker.Tracks id ↔
          e.orderTracker.Tracks id ∧ r.orderId ≠ some id := by
        unfold untrackLiveOrder
        cases hr : r.orderId with
        | none => simp
        | some orderId =>
          rw [LiveOrderTracker.tracks_remove_iff, ne_eq id, eq_comm (a := id)]
          simp
      rw [hstep, and_assoc]
      simp [hfilled]
    · rw [List.filter_cons_of_neg hfilled, ih]
      simp [hfilled]

/-- What is tracked after a blast that runs to its end. -/
lemma tracks_blast_iff {results : List OrderResult} (hlive : e.isPaperMode = false)
    (hok : (e.blast kind env legs p c).1 = .ok results) {id : String} :
    (e.blast kind env legs p c).2.1.orderTracker.Tracks id ↔
      (e.orderTracker.trackAll (kind.sentLegs e.slippageToleranceFp legs)).Tracks id ∧
        ∀ r ∈ kind.results legs, r.filled = true → r.orderId ≠ some id := by
  obtain ⟨hb, hp, hd, hcut⟩ := completed_of_ok hok
  have hgated : (e.gatedEngine kind env legs).orderTracker = e.orderTracker ∧
      (e.gatedEngine kind env legs).isPaperMode = false := by
    unfold gatedEngine checkDailyReset
    split
    · exact ⟨rfl, hlive⟩
    · exact ⟨rfl, hlive⟩
  have hcut' : kind.cut (e.gatedEngine kind env legs).slippageToleranceFp env legs = none :=
    (kind.cut_eq_none _ _ _).mpr hcut
  have htracked := bookAnswers_orderTracker (e.gatedEngine kind env legs) kind legs hgated.2
  rw [hgated.1, gatedEngine_slippageToleranceFp] at htracked
  rw [e.blast_of_passes kind env legs p c hb hp hd]
  simp only [executeLegs, hcut']
  have hbooked : ∀ (e' : HighFrequencyExecutionEngine) (cents : ℤ),
      (e'.recordDailyPnl cents).orderTracker = e'.orderTracker := by
    intro e' cents
    unfold recordDailyPnl
    split <;> rfl
  have huntracked := tracks_untrackFilled_iff
    (((e.gatedEngine kind env legs).bookAnswers kind legs).recordOutcomes legs (kind.results legs))
    (kind.results legs) id
  rw [recordOutcomes_orderTracker, htracked] at huntracked
  split
  · rw [hbooked]
    exact huntracked
  · exact huntracked

/-! ## The remainders -/

/-- The results of the sent orders. -/
lemma sentLegs_map_result (tolFp : UInt64) :
    (kind.sentLegs tolFp legs).map SentLeg.result = kind.results legs := by
  have hlength : (kind.results legs).length ≤ legs.length := by simp [BlastKind.results]
  rw [BlastKind.sentLegs, List.map_map]
  exact List.map_snd_zip hlength

/-- Orders with different ids are pairwise told apart by them. -/
lemma pairwise_sentLegs (tolFp : UInt64)
    (hids : ((kind.results legs).filterMap OrderResult.orderId).Nodup) :
    (kind.sentLegs tolFp legs).Pairwise
      fun x y => ∀ id ∈ x.result.orderId, y.result.orderId ≠ some id := by
  rw [← sentLegs_map_result kind legs tolFp, List.Nodup, List.pairwise_filterMap,
    List.pairwise_map] at hids
  refine hids.imp ?_
  intro x y hxy id hx hy
  exact hxy id hx id hy rfl

/-- An order with an id of its own is forgotten exactly when it is reported filled. -/
lemma forall_filled_iff {tolFp : UInt64}
    (hids : ((kind.results legs).filterMap OrderResult.orderId).Nodup) {x : SentLeg}
    (hx : x ∈ kind.sentLegs tolFp legs) {id : String} (hid : x.result.orderId = some id) :
    (∀ r ∈ kind.results legs, r.filled = true → r.orderId ≠ some id) ↔
      x.result.filled = false := by
  constructor
  · intro h
    by_contra hfilled
    have hr : x.result ∈ kind.results legs := by
      rw [← sentLegs_map_result kind legs tolFp]
      exact List.mem_map_of_mem hx
    exact h x.result hr (by simpa using hfilled) hid
  · intro hfilled r hr hrf hrid
    rw [← sentLegs_map_result kind legs tolFp] at hr
    obtain ⟨y, hy, rfl⟩ := List.mem_map.mp hr
    have hsymm : Std.Symm fun x y : SentLeg =>
        ∀ id ∈ x.result.orderId, y.result.orderId ≠ some id :=
      ⟨fun a b hab id' hb ha => hab id' ha hb⟩
    have hne : x ≠ y := by
      rintro rfl
      rw [hfilled] at hrf
      cases hrf
    exact (pairwise_sentLegs kind legs tolFp hids).forall hx hy hne id hid hrid

/-- What holds of the ids of all orders that were filled for less than ordered. -/
lemma forall_rests_iff (tolFp : UInt64) (P : String → Prop) :
    (∀ x ∈ legs.zip (kind.results legs), ∀ id, x.2.orderId = some id →
        x.2.filledQty < x.1.intent.qty → P id) ↔
      ∀ x ∈ kind.sentLegs tolFp legs, x.Rests → ∀ id ∈ x.result.orderId, P id := by
  rw [BlastKind.sentLegs, List.forall_mem_map]
  refine forall₂_congr fun x hx => ?_
  simp only [SentLeg.Rests, applySlippageLimit_qty, Option.mem_def]
  constructor
  · rintro h ⟨-, hless⟩ id hid
    exact h id hid hless
  · intro h id hid hless
    exact h ⟨by rw [hid]; rfl, hless⟩ id hid

/-- In live mode, when the orders of a blast that runs to its end got different ids, the orders that
were filled for less than ordered are all still tracked exactly when none of them is reported filled
and the tracker had room for them. -/
theorem resting_tracked_iff (call : BlastCall) (results : List OrderResult)
    (hlive : e.isPaperMode = false) (hok : (e.run call).1 = .ok results)
    (hids : (results.filterMap OrderResult.orderId).Nodup) :
    (∀ x ∈ call.legs.zip results, ∀ id, x.2.orderId = some id →
        x.2.filledQty < x.1.intent.qty → (e.run call).2.1.orderTracker.Tracks id) ↔
      (∀ x ∈ call.kind.sentLegs e.slippageToleranceFp call.legs,
        x.Rests → x.result.filled = false) ∧
      e.orderTracker.HasRoom (call.kind.sentLegs e.slippageToleranceFp call.legs) := by
  rw [e.run_eq_blast call] at hok ⊢
  obtain rfl := results_eq_of_ok hok
  have hpair := pairwise_sentLegs call.kind call.legs e.slippageToleranceFp hids
  rw [forall_rests_iff call.kind call.legs e.slippageToleranceFp,
    ← LiveOrderTracker.forall_tracks_trackAll_iff hpair]
  constructor
  · intro h
    refine ⟨fun x hx hrests => ?_, fun x hx hrests id hid => ?_⟩
    · obtain ⟨id, hid⟩ := Option.isSome_iff_exists.mp hrests.1
      have htracked := (e.tracks_blast_iff call.kind call.env call.legs _ _ hlive hok).mp
        (h x hx hrests id hid)
      exact (forall_filled_iff call.kind call.legs hids hx hid).mp htracked.2
    · exact ((e.tracks_blast_iff call.kind call.env call.legs _ _ hlive hok).mp
        (h x hx hrests id hid)).1
  · rintro ⟨hfilled, htracked⟩ x hx hrests id hid
    refine (e.tracks_blast_iff call.kind call.env call.legs _ _ hlive hok).mpr
      ⟨htracked x hx hrests id hid, ?_⟩
    exact (forall_filled_iff call.kind call.legs hids hx hid).mpr (hfilled x hx hrests)

/-- An arbitrage of half a bitcoin whose buying leg has the given fill. -/
def restingCall (fill : Decimal) : BlastCall :=
  .arbitrage ⟨1, false, none⟩ (Leg.testBuy fill) (Leg.testSell (1 / 2)) 50 100000000000

/-- A buying order that is filled for nothing stays tracked. -/
theorem resting_tracked_iff_unfilled :
    (test.run (restingCall 0)).2.1.orderTracker.Tracks "A-1" := by
  have hiff := test.resting_tracked_iff (restingCall 0)
    ((restingCall 0).kind.results (restingCall 0).legs) rfl (by decide +kernel) (by decide +kernel)
  refine hiff.mpr ⟨by decide +kernel, by decide +kernel⟩ (Leg.testBuy 0, _)
    List.mem_cons_self "A-1" rfl ?_
  decide +kernel

/-- The remainder of a buying order that is filled for a quarter of a bitcoin is lost. -/
theorem partialFill_not_tracked :
    test.isPaperMode = false ∧
    (test.run (restingCall (1 / 4))).1 =
      .ok ((restingCall (1 / 4)).kind.results (restingCall (1 / 4)).legs) ∧
    (((restingCall (1 / 4)).kind.results (restingCall (1 / 4)).legs).filterMap
      OrderResult.orderId).Nodup ∧
    ¬ ∀ x ∈ (restingCall (1 / 4)).legs.zip
        ((restingCall (1 / 4)).kind.results (restingCall (1 / 4)).legs), ∀ id,
      x.2.orderId = some id → x.2.filledQty < x.1.intent.qty →
        (test.run (restingCall (1 / 4))).2.1.orderTracker.Tracks id := by
  refine ⟨rfl, by decide +kernel, by decide +kernel, fun h => ?_⟩
  have htracked := h (Leg.testBuy (1 / 4), _) List.mem_cons_self "A-1" rfl (by decide +kernel)
  exact absurd htracked (by decide +kernel)

end HighFrequencyExecutionEngine

end HftArb
