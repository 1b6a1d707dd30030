import HftArb.Decimal

/-!
# The live order tracker

The tracker maps order ids to the orders submitted in live mode.  The map is the list of its
entries, no two with the same id.  Tracking an order first drops the stale entries when the map is
past half its capacity, then evicts the oldest entry when the map is still full.

Symbols are stored in upper case.  `str::to_uppercase` folds the letters of all scripts, so it is a
field of the tracker, and every statement holds for any function in its place.

Times of a `TrackedOrder` are nanoseconds of the monotonic clock.
-/

namespace HftArb

/-- An order submitted in live mode. -/
structure TrackedOrder where
  orderId : String
  exchangeId : UInt16
  symbol : String
  isBuy : Bool
  submittedAt : ℕ
  submittedAtEpochMs : UInt64
  filledQty : Decimal
  deriving DecidableEq

/-- The tracked orders, keyed by their id. -/
structure LiveOrderTracker where
  orders : List TrackedOrder
  maxAgeSecs : ℕ
  maxTrackedOrders : ℕ
  totalTracked : UInt64
  /-- `str::to_uppercase`. -/
  toUppercase : String → String
  /-- The map holds one entry for each id. -/
  orders_nodup : (orders.map TrackedOrder.orderId).Nodup

/-- The two clock readings taken when an order is tracked. -/
structure TrackClock where
  now : ℕ
  epochMs : UInt64
  deriving DecidableEq

namespace LiveOrderTracker

/-- An empty tracker with the default capacity. -/
def new (toUppercase : String → String) (maxAgeSecs : ℕ) : LiveOrderTracker :=
  ⟨[], maxAgeSecs, 10000, 0, toUppercase, List.nodup_nil⟩

/-- An empty tracker with a capacity of its own. -/
def withMaxOrders (toUppercase : String → String) (maxAgeSecs maxTrackedOrders : ℕ) :
    LiveOrderTracker :=
  ⟨[], maxAgeSecs, maxTrackedOrders, 0, toUppercase, List.nodup_nil⟩

/-- Whether an entry is younger than the maximum age. -/
def isFresh (maxAgeSecs now : ℕ) (o : TrackedOrder) : Bool :=
  (now - o.submittedAt) / 1000000000 < maxAgeSecs

/-- The entries without the given id. -/
def without (orders : List TrackedOrder) (orderId : String) : List TrackedOrder :=
  orders.filter fun o => o.orderId ≠ orderId

/-- The id of an entry with the earliest submission time. -/
def oldest (orders : List TrackedOrder) : Option String :=
  (orders.argmin TrackedOrder.submittedAt).map TrackedOrder.orderId

/-- The cleanup past half the capacity: only the fresh entries stay. -/
def dropStale (t : LiveOrderTracker) (now : ℕ) : List TrackedOrder :=
  if t.maxTrackedOrders / 2 < t.orders.length then t.orders.filter (isFresh t.maxAgeSecs now)
  else t.orders

/-- The hard cap: a full map loses its oldest entry. -/
def evictOldest (maxTrackedOrders : ℕ) (orders : List TrackedOrder) : List TrackedOrder :=
  if maxTrackedOrders ≤ orders.length then
    match oldest orders with
    | some id => without orders id
    | none => orders
  else orders

/-- The entries left when an order is inserted. -/
def makeRoom (t : LiveOrderTracker) (now : ℕ) : List TrackedOrder :=
  evictOldest t.maxTrackedOrders (t.dropStale now)

/-- A sublist of the entries still holds one entry for each id. -/
lemma nodup_of_sublist {orders orders' : List TrackedOrder} (h : orders'.Sublist orders)
    (hnd : (orders.map TrackedOrder.orderId).Nodup) :
    (orders'.map TrackedOrder.orderId).Nodup :=
  hnd.sublist (h.map TrackedOrder.orderId)

/-- The cleanup only drops entries. -/
lemma dropStale_sublist (t : LiveOrderTracker) (now : ℕ) :
    (t.dropStale now).Sublist t.orders := by
  unfold dropStale
  split
  · exact List.filter_sublist
  · exact List.Sublist.refl _

/-- Making room only drops entries. -/
lemma makeRoom_sublist (t : LiveOrderTracker) (now : ℕ) : (t.makeRoom now).Sublist t.orders := by
  have hevict : (t.makeRoom now).Sublist (t.dropStale now) := by
    unfold makeRoom evictOldest
    split
    · split
      · exact List.filter_sublist
      · exact List.Sublist.refl _
    · exact List.Sublist.refl _
  exact hevict.trans (t.dropStale_sublist now)

/-- Replacing the entry of an id keeps one entry for each id. -/
lemma nodup_without_append {orders : List TrackedOrder}
    (hnd : (orders.map TrackedOrder.orderId).Nodup) (o : TrackedOrder) :
    ((without orders o.orderId ++ [o]).map TrackedOrder.orderId).Nodup := by
  rw [List.map_append, List.nodup_append]
  refine ⟨nodup_of_sublist List.filter_sublist hnd, List.nodup_singleton _, ?_⟩
  intro a ha b hb
  obtain ⟨x, hx, rfl⟩ := List.mem_map.mp ha
  have hne : x.orderId ≠ o.orderId := by simpa [without] using (List.mem_filter.mp hx).2
  have hb' : b = o.orderId := by simpa using hb
  rw [hb']
  exact hne

/-- Record a submitted order. -/
def track (t : LiveOrderTracker) (clk : TrackClock) (orderId : String) (exchangeId : UInt16)
    (symbol : String) (isBuy : Bool) : LiveOrderTracker :=
  let entry : TrackedOrder :=
    ⟨orderId, exchangeId, t.toUppercase symbol, isBuy, clk.now, clk.epochMs, 0⟩
  { t with
    orders := without (t.makeRoom clk.now) orderId ++ [entry]
    totalTracked := t.totalTracked + 1
    orders_nodup :=
      nodup_without_append (nodup_of_sublist (t.makeRoom_sublist clk.now) t.orders_nodup) entry }

/-- Forget an order. -/
def remove (t : LiveOrderTracker) (orderId : String) : LiveOrderTracker :=
  { t with
    orders := without t.orders orderId
    orders_nodup := nodup_of_sublist List.filter_sublist t.orders_nodup }

/-- A snapshot of all tracked orders. -/
def getAll (t : LiveOrderTracker) : List TrackedOrder := t.orders

/-- Drop the stale orders, and count them. -/
def cleanupStale (t : LiveOrderTracker) (now : ℕ) : ℕ × LiveOrderTracker :=
  let fresh := t.orders.filter (isFresh t.maxAgeSecs now)
  (t.orders.length - fresh.length,
    { t with
      orders := fresh
      orders_nodup := nodup_of_sublist List.filter_sublist t.orders_nodup })

/-- The ids that a map beyond its limit loses, the oldest first. -/
def pruned (t : LiveOrderTracker) : List String :=
  let entries := t.orders.map fun o => (o.orderId, o.submittedAt)
  ((entries.mergeSort fun a b => a.2 ≤ b.2).take (t.orders.length - t.maxTrackedOrders)).map
    Prod.fst

/-- Drop the oldest orders until the map is within the limit, and count them. -/
def pruneOldest (t : LiveOrderTracker) : ℕ × LiveOrderTracker :=
  if t.orders.length ≤ t.maxTrackedOrders then (0, t)
  else
    (t.orders.length - t.maxTrackedOrders,
      { t with
        orders := t.orders.filter fun o => o.orderId ∉ t.pruned
        orders_nodup := nodup_of_sublist List.filter_sublist t.orders_nodup })

/-- Set the filled quantity of an entry, if it has the id. -/
def setFill (orderId : String) (filledQty : Decimal) (o : TrackedOrder) : TrackedOrder :=
  if o.orderId = orderId then { o with filledQty := filledQty } else o

/-- A fill leaves the id of an entry. -/
lemma setFill_orderId (orderId : String) (filledQty : Decimal) (o : TrackedOrder) :
    (setFill orderId filledQty o).orderId = o.orderId := by
  unfold setFill
  split_ifs <;> rfl

/-- Fills keep one entry for each id. -/
lemma nodup_map_setFill (orderId : String) (filledQty : Decimal) {orders : List TrackedOrder}
    (hnd : (orders.map TrackedOrder.orderId).Nodup) :
    ((orders.map (setFill orderId filledQty)).map TrackedOrder.orderId).Nodup := by
  have hids : TrackedOrder.orderId ∘ setFill orderId filledQty = TrackedOrder.orderId :=
    funext fun o => setFill_orderId orderId filledQty o
  rw [List.map_map, hids]
  exact hnd

/-- Report the filled quantity of an order. -/
def updateFill (t : LiveOrderTracker) (orderId : String) (filledQty : Decimal) :
    LiveOrderTracker :=
  { t with
    orders := t.orders.map (setFill orderId filledQty)
    orders_nodup := nodup_map_setFill orderId filledQty t.orders_nodup }

/-! ## What is in the map -/

/-- The map has at most one entry for an id. -/
lemma eq_of_orderId_eq (t : LiveOrderTracker) {o o' : TrackedOrder} (ho : o ∈ t.orders)
    (ho' : o' ∈ t.orders) (hid : o.orderId = o'.orderId) : o = o' :=
  List.inj_on_of_nodup_map t.orders_nodup ho ho' hid

/-- An entry other than the one that is removed stays. -/
lemma mem_without_iff {orders : List TrackedOrder} {orderId : String} {o : TrackedOrder} :
    o ∈ without orders orderId ↔ o ∈ orders ∧ o.orderId ≠ orderId := by
  simp [without]

/-- The entries after an order is tracked: its own, and what stays of the others. -/
lemma mem_track_iff {t : LiveOrderTracker} {clk : TrackClock} {orderId symbol : String}
    {exchangeId : UInt16} {isBuy : Bool} {o : TrackedOrder} :
    o ∈ (t.track clk orderId exchangeId symbol isBuy).orders ↔
      o ∈ t.makeRoom clk.now ∧ o.orderId ≠ orderId ∨
        o = ⟨orderId, exchangeId, t.toUppercase symbol, isBuy, clk.now, clk.epochMs, 0⟩ := by
  simp [track, mem_without_iff]

/-- The map has an entry with this id. -/
def Tracks (t : LiveOrderTracker) (orderId : String) : Prop := ∃ o ∈ t.orders, o.orderId = orderId

instance (t : LiveOrderTracker) (orderId : String) : Decidable (t.Tracks orderId) :=
  inferInstanceAs (Decidable (∃ o ∈ t.orders, _))

/-- Tracking an order leaves the other ids for which the map has kept room. -/
lemma tracks_track_iff {t : LiveOrderTracker} {clk : TrackClock} {orderId symbol : String}
    {exchangeId : UInt16} {isBuy : Bool} {id : String} (hne : id ≠ orderId) :
    (t.track clk orderId exchangeId symbol isBuy).Tracks id ↔
      ∃ o ∈ t.makeRoom clk.now, o.orderId = id := by
  unfold Tracks
  constructor
  · rintro ⟨o, ho, rfl⟩
    rcases mem_track_iff.mp ho with ⟨hroom, -⟩ | rfl
    · exact ⟨o, hroom, rfl⟩
    · exact absurd rfl hne
  · rintro ⟨o, ho, rfl⟩
    exact ⟨o, mem_track_iff.mpr (Or.inl ⟨ho, hne⟩), rfl⟩

/-- Forgetting an order leaves the other ids. -/
lemma tracks_remove_iff {t : LiveOrderTracker} {id orderId : String} :
    (t.remove orderId).Tracks id ↔ t.Tracks id ∧ id ≠ orderId := by
  unfold Tracks remove
  constructor
  · rintro ⟨o, ho, rfl⟩
    obtain ⟨hmem, hne⟩ := mem_without_iff.mp ho
    exact ⟨⟨o, hmem, rfl⟩, hne⟩
  · rintro ⟨⟨o, ho, rfl⟩, hne⟩
    exact ⟨o, mem_without_iff.mpr ⟨ho, hne⟩, rfl⟩

/-! ## Which entries are dropped -/

/-- An entry is dropped when the map makes room at the time `now`: it is stale and the map past half
its capacity, or it is the oldest of a full map. -/
def Drops (t : LiveOrderTracker) (now : ℕ) (o : TrackedOrder) : Prop :=
  t.maxTrackedOrders / 2 < t.orders.length ∧ isFresh t.maxAgeSecs now o = false ∨
    t.maxTrackedOrders ≤ (t.dropStale now).length ∧ oldest (t.dropStale now) = some o.orderId

instance (t : LiveOrderTracker) (now : ℕ) (o : TrackedOrder) : Decidable (t.Drops now o) :=
  inferInstanceAs (Decidable (_ ∨ _))

/-- The cleanup keeps an entry that is fresh, and every entry up to half the capacity. -/
lemma mem_dropStale_iff {t : LiveOrderTracker} {now : ℕ} {o : TrackedOrder} (ho : o ∈ t.orders) :
    o ∈ t.dropStale now ↔
      ¬ (t.maxTrackedOrders / 2 < t.orders.length ∧ isFresh t.maxAgeSecs now o = false) := by
  unfold dropStale
  split_ifs with hhalf
  · simp [hhalf, ho]
  · simp [hhalf, ho]

/-- The hard cap takes the oldest entry of a full map. -/
lemma mem_evictOldest_iff {maxTrackedOrders : ℕ} {orders : List TrackedOrder} {o : TrackedOrder} :
    o ∈ evictOldest maxTrackedOrders orders ↔
      o ∈ orders ∧ ¬ (maxTrackedOrders ≤ orders.length ∧ oldest orders = some o.orderId) := by
  unfold evictOldest
  split_ifs with hfull
  · cases hold : oldest orders with
    | none => simp
    | some id =>
      rw [mem_without_iff]
      simp [hfull, eq_comm]
  · simp [hfull]

/-- Making room keeps the entries that it does not drop. -/
lemma mem_makeRoom_iff {t : LiveOrderTracker} {now : ℕ} {o : TrackedOrder} (ho : o ∈ t.orders) :
    o ∈ t.makeRoom now ↔ ¬ t.Drops now o := by
  unfold makeRoom Drops
  rw [mem_evictOldest_iff, mem_dropStale_iff ho, not_or]

/-- A map that is not full loses no entry that is fresh. -/
lemma mem_makeRoom {t : LiveOrderTracker} {now : ℕ} {o : TrackedOrder} (ho : o ∈ t.orders)
    (hfresh : isFresh t.maxAgeSecs now o = true) (hroom : t.orders.length < t.maxTrackedOrders) :
    o ∈ t.makeRoom now := by
  rw [mem_makeRoom_iff ho]
  rintro (⟨-, hstale⟩ | ⟨hfull, -⟩)
  · rw [hfresh] at hstale
    cases hstale
  · have hlength := (t.dropStale_sublist now).length_le
    omega

end LiveOrderTracker

end HftArb
