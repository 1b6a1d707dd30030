import HftArb.Execution.LiveOrderTracker

/-!
# Runs of the order tracker

The tracker is used by the engine, by a poller that reports fills and by cleanups.  A run of these
operations starts from an empty tracker.

Exchanges issue their order ids on their own, while the map is keyed by the id alone: an order with
the id of another exchange's order takes its place.  `all_tracked_iff` says that within the capacity
and the maximum age this is the only way to lose an order.
-/

namespace HftArb

/-- What is said of an order when it is tracked. -/
structure OrderSubmission where
  orderId : String
  exchangeId : UInt16
  symbol : String
  isBuy : Bool
  deriving DecidableEq

/-- An operation of the tracker that changes the map. -/
inductive TrackerOp
  | track (clk : TrackClock) (submission : OrderSubmission)
  | remove (orderId : String)
  | cleanupStale (now : ℕ)
  | pruneOldest
  | updateFill (orderId : String) (filledQty : Decimal)
  deriving DecidableEq

namespace LiveOrderTracker

/-- Track a submission. -/
def trackSubmission (t : LiveOrderTracker) (clk : TrackClock) (s : OrderSubmission) :
    LiveOrderTracker :=
  t.track clk s.orderId s.exchangeId s.symbol s.isBuy

/-- The tracker after an operation. -/
def perform (t : LiveOrderTracker) : TrackerOp → LiveOrderTracker
  | .track clk submission => t.trackSubmission clk submission
  | .remove orderId => t.remove orderId
  | .cleanupStale now => (t.cleanupStale now).2
  | .pruneOldest => t.pruneOldest.2
  | .updateFill orderId filledQty => t.updateFill orderId filledQty

/-- The tracker after some operations. -/
def performAll (t : LiveOrderTracker) (ops : List TrackerOp) : LiveOrderTracker :=
  ops.foldl perform t

lemma performAll_snoc (t : LiveOrderTracker) (ops : List TrackerOp) (op : TrackerOp) :
    t.performAll (ops ++ [op]) = (t.performAll ops).perform op := by
  simp [performAll]

end LiveOrderTracker

/-- The submission of an operation, with the time at which it is tracked. -/
def TrackerOp.tracked? : TrackerOp → Option (OrderSubmission × ℕ)
  | .track clk submission => some (submission, clk.now)
  | _ => none

/-- The reading of the clock of an operation. -/
def TrackerOp.time? : TrackerOp → Option ℕ
  | .track clk _ => some clk.now
  | .cleanupStale now => some now
  | _ => none

/-- The submissions of a run, with their times. -/
def trackedIn (ops : List TrackerOp) : List (OrderSubmission × ℕ) :=
  ops.filterMap TrackerOp.tracked?

/-- The map has an entry of the submission: with its exchange, its symbol in upper case and its
side. -/
def LiveOrderTracker.Holds (t : LiveOrderTracker) (s : OrderSubmission) : Prop :=
  ∃ o ∈ t.getAll, o.orderId = s.orderId ∧ o.exchangeId = s.exchangeId ∧
    o.symbol = t.toUppercase s.symbol ∧ o.isBuy = s.isBuy

instance (t : LiveOrderTracker) (s : OrderSubmission) : Decidable (t.Holds s) :=
  inferInstanceAs (Decidable (∃ o ∈ t.getAll, _))

/-- Orders of different exchanges or with different ids are tracked, within the capacity; up to the
time `now` none has reached the maximum age, and none is removed after it has been tracked. -/
structure WithinLimits (maxAgeSecs maxTrackedOrders : ℕ) (ops : List TrackerOp) (now : ℕ) :
    Prop where
  distinct : (trackedIn ops).Pairwise fun a b =>
    (a.1.exchangeId, a.1.orderId) ≠ (b.1.exchangeId, b.1.orderId)
  capacity : (trackedIn ops).length ≤ maxTrackedOrders
  times : ∀ op ∈ ops, ∀ time ∈ op.time?, time ≤ now
  young : ∀ a ∈ trackedIn ops, (now - a.2) / 1000000000 < maxAgeSecs
  kept : ops.Pairwise fun op op' => ∀ a ∈ op.tracked?, op' ≠ .remove a.1.orderId

/-! ## One operation -/

/-- An entry of a submission, made at the given time. -/
def TrackedOrder.IsOf (toUppercase : String → String) (o : TrackedOrder)
    (a : OrderSubmission × ℕ) : Prop :=
  o.orderId = a.1.orderId ∧ o.exchangeId = a.1.exchangeId ∧ o.symbol = toUppercase a.1.symbol ∧
    o.isBuy = a.1.isBuy ∧ o.submittedAt = a.2

namespace LiveOrderTracker

variable {t : LiveOrderTracker}

/-- An operation leaves the limits. -/
lemma perform_limits (t : LiveOrderTracker) (op : TrackerOp) :
    (t.perform op).maxAgeSecs = t.maxAgeSecs ∧
      (t.perform op).maxTrackedOrders = t.maxTrackedOrders ∧
      (t.perform op).toUppercase = t.toUppercase := by
  cases op with
  | pruneOldest =>
    simp only [perform, pruneOldest]
    split_ifs <;> exact ⟨rfl, rfl, rfl⟩
  | _ => exact ⟨rfl, rfl, rfl⟩

/-- An operation adds at most the entry of its submission. -/
lemma length_perform_le (t : LiveOrderTracker) (op : TrackerOp) :
    (t.perform op).orders.length ≤ t.orders.length + op.tracked?.toList.length := by
  cases op with
  | track clk s =>
    have hwithout : (without (t.makeRoom clk.now) s.orderId).length ≤ t.orders.length :=
      (List.filter_sublist.trans (t.makeRoom_sublist clk.now)).length_le
    simpa [perform, trackSubmission, track, TrackerOp.tracked?] using hwithout
  | remove orderId => exact List.length_filter_le _ _
  | cleanupStale now => exact List.length_filter_le _ _
  | pruneOldest =>
    simp only [perform, pruneOldest]
    split_ifs
    · exact le_rfl
    · exact List.length_filter_le _ _
  | updateFill orderId filledQty => simp [perform, updateFill, TrackerOp.tracked?]

/-- An operation keeps the entry of a submission that is fresh at its time, when it leaves the map
within the capacity, tracks no other order with this id and does not remove it. -/
lemma exists_isOf_perform {a : OrderSubmission × ℕ} {toUppercase : String → String}
    (h : ∃ o ∈ t.orders, o.IsOf toUppercase a) {op : TrackerOp}
    (hroom : t.orders.length + op.tracked?.toList.length ≤ t.maxTrackedOrders)
    (hfresh : ∀ time ∈ op.time?, (time - a.2) / 1000000000 < t.maxAgeSecs)
    (hid : ∀ b ∈ op.tracked?, b.1.orderId ≠ a.1.orderId) (hkept : op ≠ .remove a.1.orderId) :
    ∃ o ∈ (t.perform op).orders, o.IsOf toUppercase a := by
  obtain ⟨o, ho, hisOf⟩ := h
  have hoid : o.orderId = a.1.orderId := hisOf.1
  have hyoung : ∀ time ∈ op.time?, isFresh t.maxAgeSecs time o = true := by
    intro time htime
    rw [isFresh, decide_eq_true_eq, hisOf.2.2.2.2]
    exact hfresh time htime
  cases op with
  | track clk s =>
    have hlt : t.orders.length < t.maxTrackedOrders := hroom
    refine ⟨o, mem_track_iff.mpr (Or.inl ⟨mem_makeRoom ho (hyoung clk.now rfl) hlt, ?_⟩), hisOf⟩
    rw [hoid]
    exact (hid _ rfl).symm
  | remove orderId =>
    refine ⟨o, mem_without_iff.mpr ⟨ho, fun heq => hkept ?_⟩, hisOf⟩
    rw [← hoid, heq]
  | cleanupStale now => exact ⟨o, List.mem_filter.mpr ⟨ho, hyoung now rfl⟩, hisOf⟩
  | pruneOldest =>
    have hle : t.orders.length ≤ t.maxTrackedOrders := hroom
    simp only [perform, pruneOldest, if_pos hle]
    exact ⟨o, ho, hisOf⟩
  | updateFill orderId filledQty =>
    refine ⟨setFill orderId filledQty o, List.mem_map_of_mem ho, ?_⟩
    unfold setFill
    split_ifs
    · exact hisOf
    · exact hisOf

end LiveOrderTracker

/-! ## Runs -/

lemma trackedIn_snoc (ops : List TrackerOp) (op : TrackerOp) :
    trackedIn (ops ++ [op]) = trackedIn ops ++ op.tracked?.toList := by
  cases h : op.tracked? <;> simp [trackedIn, h]

section Runs

variable {maxAgeSecs maxTrackedOrders now : ℕ} {ops : List TrackerOp}
  (toUppercase : String → String)

/-- A run within the limits is so without its last operation. -/
lemma WithinLimits.dropLast {op : TrackerOp}
    (h : WithinLimits maxAgeSecs maxTrackedOrders (ops ++ [op]) now) :
    WithinLimits maxAgeSecs maxTrackedOrders ops now := by
  have htracked : (trackedIn ops).Sublist (trackedIn (ops ++ [op])) := by
    rw [trackedIn_snoc]
    exact List.sublist_append_left _ _
  exact ⟨h.distinct.sublist htracked, htracked.length_le.trans h.capacity,
    fun o ho => h.times o (List.mem_append_left _ ho), fun a ha => h.young a (htracked.mem ha),
    h.kept.sublist (List.sublist_append_left _ _)⟩

/-- Operations leave the limits, and the map has at most as many entries as orders were tracked. -/
lemma performAll_limits (maxAgeSecs maxTrackedOrders : ℕ) (ops : List TrackerOp) :
    let t := (LiveOrderTracker.withMaxOrders toUppercase maxAgeSecs maxTrackedOrders).performAll ops
    t.maxAgeSecs = maxAgeSecs ∧ t.maxTrackedOrders = maxTrackedOrders ∧
      t.toUppercase = toUppercase ∧ t.orders.length ≤ (trackedIn ops).length := by
  induction ops using List.reverseRecOn with
  | nil => exact ⟨rfl, rfl, rfl, le_rfl⟩
  | append_singleton ops op ih =>
    obtain ⟨hage, hmax, hupper, hlength⟩ := ih
    rw [LiveOrderTracker.performAll_snoc, trackedIn_snoc, List.length_append]
    obtain ⟨hage', hmax', hupper'⟩ := LiveOrderTracker.perform_limits
      ((LiveOrderTracker.withMaxOrders toUppercase maxAgeSecs maxTrackedOrders).performAll ops) op
    exact ⟨hage'.trans hage, hmax'.trans hmax, hupper'.trans hupper,
      (LiveOrderTracker.length_perform_le _ op).trans (Nat.add_le_add_right hlength _)⟩

/-- Within the limits every order whose id is its own is in the map. -/
lemma exists_isOf_performAll (h : WithinLimits maxAgeSecs maxTrackedOrders ops now)
    (hids : (trackedIn ops).Pairwise fun a b => a.1.orderId ≠ b.1.orderId) :
    ∀ a ∈ trackedIn ops, ∃ o ∈
      ((LiveOrderTracker.withMaxOrders toUppercase maxAgeSecs maxTrackedOrders).performAll
        ops).orders, o.IsOf toUppercase a := by
  induction ops using List.reverseRecOn with
  | nil => simp [trackedIn]
  | append_singleton ops op ih =>
    obtain ⟨hage, hmax, hupper, hlength⟩ :=
      performAll_limits toUppercase maxAgeSecs maxTrackedOrders ops
    have hcapacity := h.capacity
    rw [LiveOrderTracker.performAll_snoc]
    rw [trackedIn_snoc] at hids hcapacity ⊢
    rw [List.length_append] at hcapacity
    obtain ⟨hidsBefore, -, hidsLast⟩ := List.pairwise_append.mp hids
    intro a ha
    rcases List.mem_append.mp ha with ha | ha
    · refine LiveOrderTracker.exists_isOf_perform (ih h.dropLast hidsBefore a ha) ?_ ?_ ?_ ?_
      · omega
      · intro time htime
        have hle := h.times op (by simp) time htime
        have hyoung := h.young a (by rw [trackedIn_snoc]; exact List.mem_append_left _ ha)
        have hdiv : (time - a.2) / 1000000000 ≤ (now - a.2) / 1000000000 :=
          Nat.div_le_div_right (by omega)
        omega
      · intro b hb
        exact (hidsLast a ha b (Option.mem_toList.mpr hb)).symm
      · obtain ⟨op', hop', htracked⟩ := List.mem_filterMap.mp ha
        exact (List.pairwise_append.mp h.kept).2.2 op' hop' op (by simp) a htracked
    · -- The order that is tracked last.
      cases op with
      | track clk s =>
        obtain rfl : a = (s, clk.now) := by simpa [TrackerOp.tracked?] using ha
        refine ⟨_, LiveOrderTracker.mem_track_iff.mpr (Or.inr rfl), rfl, rfl, ?_, rfl, rfl⟩
        rw [hupper]
      | _ => simp [TrackerOp.tracked?] at ha

/-- Every order that is tracked in the run is in the map, and stays there when an order of another
exchange is removed. -/
def AllTracked (maxAgeSecs maxTrackedOrders : ℕ) (ops : List TrackerOp) : Prop :=
  let t := (LiveOrderTracker.withMaxOrders toUppercase maxAgeSecs maxTrackedOrders).performAll ops
  (∀ a ∈ trackedIn ops, t.Holds a.1) ∧
    ∀ a ∈ trackedIn ops, ∀ b ∈ trackedIn ops, b.1.exchangeId ≠ a.1.exchangeId →
      (t.remove a.1.orderId).Holds b.1

/-- In a run within the limits every tracked order is in the map, and is left there when an order of
another exchange is removed, exactly when no two orders share an id. -/
theorem all_tracked_iff (maxAgeSecs maxTrackedOrders : ℕ) (ops : List TrackerOp) (now : ℕ)
    (h : WithinLimits maxAgeSecs maxTrackedOrders ops now) :
    AllTracked toUppercase maxAgeSecs maxTrackedOrders ops ↔
      (trackedIn ops).Pairwise fun a b => a.1.orderId ≠ b.1.orderId := by
  constructor
  · rintro ⟨hholds, -⟩
    refine List.Pairwise.imp_of_mem ?_ h.distinct
    intro a b ha hb hne hid
    -- One entry would have to be of both exchanges.
    obtain ⟨o, ho, hoid, hoex, -⟩ := hholds a ha
    obtain ⟨o', ho', hoid', hoex', -⟩ := hholds b hb
    obtain rfl := LiveOrderTracker.eq_of_orderId_eq _ ho ho' (by rw [hoid, hoid', hid])
    exact hne (Prod.ext (hoex.symm.trans hoex') hid)
  · intro hids
    have hpresent := exists_isOf_performAll toUppercase h hids
    have hupper := (performAll_limits toUppercase maxAgeSecs maxTrackedOrders ops).2.2.1
    have hnodup : ((trackedIn ops).map fun a => a.1.orderId).Nodup := List.pairwise_map.mpr hids
    refine ⟨fun a ha => ?_, fun a ha b hb hne => ?_⟩
    · obtain ⟨o, ho, hoid, hoex, hsymbol, hbuy, -⟩ := hpresent a ha
      exact ⟨o, ho, hoid, hoex, hsymbol.trans (congrFun hupper.symm _), hbuy⟩
    · obtain ⟨o, ho, hoid, hoex, hsymbol, hbuy, -⟩ := hpresent b hb
      have hid : b.1.orderId ≠ a.1.orderId :=
        fun heq => hne (by rw [List.inj_on_of_nodup_map hnodup hb ha heq])
      exact ⟨o, LiveOrderTracker.mem_without_iff.mpr ⟨ho, by rw [hoid]; exact hid⟩, hoid, hoex,
        hsymbol.trans (congrFun hupper.symm _), hbuy⟩

end Runs

/-- The first orders of two exchanges, with a fill, a cleanup and another order between them. -/
def distinctIds : List TrackerOp :=
  [.track ⟨0, 0⟩ ⟨"A-1", 0, "BTCUSDT", true⟩, .updateFill "A-1" (1 / 2),
    .track ⟨1000000000, 1000⟩ ⟨"B-1", 1, "ethusdt", false⟩, .remove "C-1",
    .cleanupStale 2000000000]

/-- Two orders with ids of their own stay tracked. -/
theorem all_tracked_iff_distinctIds : AllTracked String.toUpper 300 2 distinctIds := by
  refine (all_tracked_iff String.toUpper 300 2 distinctIds 3000000000 ⟨?_, ?_, ?_, ?_, ?_⟩).mpr ?_
  all_goals decide +kernel

/-- The orders of two exchanges, which give them the same id. -/
def sameId : List TrackerOp :=
  [.track ⟨0, 0⟩ ⟨"1001", 0, "BTCUSDT", true⟩, .track ⟨1, 0⟩ ⟨"1001", 1, "ETHUSDT", false⟩]

/-- An order takes the place of another exchange's order with the same id. -/
theorem sameId_not_tracked :
    WithinLimits 300 10000 sameId 2 ∧ ¬ AllTracked String.toUpper 300 10000 sameId := by
  refine ⟨⟨by decide +kernel, by decide +kernel, by decide +kernel, by decide +kernel,
    by decide +kernel⟩, ?_⟩
  rintro ⟨hholds, -⟩
  exact absurd (hholds (⟨"1001", 0, "BTCUSDT", true⟩, 0) (by decide +kernel)) (by decide +kernel)

end HftArb
