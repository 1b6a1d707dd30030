import HftArb.Feeds.MarketDepth

/-!
# What a delta does to a side

A side of a book is a partial function from prices to quantities.  `referenceSide` says what an
accepted delta makes of it, without the maps of the program: a snapshot starts from nothing, the
updates are folded from left to right, and the 500 best prices are kept.  Bids rank downwards and
asks upwards.

An update of an incremental delta is measured against the best price the side had before the delta,
whatever the updates before it have done to that level.
-/

namespace HftArb

open OrderedMap

namespace OrderBook

/-- The quantity at each price of a side. -/
abbrev Quantities := Decimal → Option Decimal

/-! ## The reference -/

/-- A price is out of range: it is not within a factor of ten of the best price of the old side. -/
def OutOfRange (better : Decimal → Decimal → Prop) (old : Quantities) (price : Decimal) : Prop :=
  ∃ best, IsFirst better old best ∧ 0 < best ∧ ¬ (best / 10 ≤ price ∧ price ≤ 10 * best)

open Classical in
/-- An update deletes its price or overwrites the quantity there; only an incremental delta has its
prices checked. -/
noncomputable def referenceUpdate (better : Decimal → Decimal → Prop) (isSnapshot : Bool)
    (old side : Quantities) (level : Decimal × Decimal) : Quantities :=
  if level.2 ≤ 0 then Function.update side level.1 none
  else if isSnapshot = false ∧ OutOfRange better old level.1 then side
  else Function.update side level.1 (some level.2)

/-- A side after a delta. -/
noncomputable def referenceSide (better : Decimal → Decimal → Prop) (isSnapshot : Bool)
    (old : Quantities) (updates : List (Decimal × Decimal)) : Quantities :=
  restrictFirst better maxLevelsPerSide
    (updates.foldl (referenceUpdate better isSnapshot old)
      (if isSnapshot then fun _ => none else old))

/-! ## The updates of a side -/

/-- The check of a price against a reference that stands for the best price of a side. -/
lemma isPriceSane_iff {better : Decimal → Decimal → Prop} {old : Quantities}
    {reference : Option Decimal}
    (hreference : ∀ best, reference = some best ↔ IsFirst better old best) (price : Decimal) :
    isPriceSane price reference = true ↔ ¬ OutOfRange better old price := by
  unfold isPriceSane OutOfRange
  cases reference with
  | none =>
    refine iff_of_true rfl ?_
    rintro ⟨best, hbest, -⟩
    cases (hreference best).mpr hbest
  | some best =>
    have hbest : ∀ p, IsFirst better old p ↔ best = p := by
      intro p
      rw [← hreference p, Option.some.injEq]
    simp only [hbest, exists_eq_left']
    by_cases hpos : 0 < best
    · rw [if_pos hpos]
      split_ifs with hprice
      · -- A price that is not positive is below a tenth of the best one.
        refine iff_of_false (by simp) (not_not.mpr ⟨hpos, ?_⟩)
        rintro ⟨hlow, -⟩
        linarith
      · simp only [Bool.and_eq_true, decide_eq_true_eq, hpos, true_and, not_not, mul_comm best]
    · rw [if_neg hpos]
      exact iff_of_true rfl fun h => hpos h.1

/-- One update, on the map and on the partial function. -/
lemma get?_applyLevel {better : Decimal → Decimal → Prop} {old : Quantities} {isSnapshot : Bool}
    {reference : Option Decimal}
    (hsane : ∀ price, isPriceSane price reference = true ↔
      ¬ (isSnapshot = false ∧ OutOfRange better old price))
    (side : Levels × Bool) (level : Decimal × Decimal) :
    (applyLevel reference side level).1.get? =
      referenceUpdate better isSnapshot old side.1.get? level := by
  unfold applyLevel referenceUpdate
  by_cases hremove : level.2 ≤ 0
  · rw [if_pos hremove, if_pos hremove, get?_erase]
  · rw [if_neg hremove, if_neg hremove]
    by_cases hrange : isSnapshot = false ∧ OutOfRange better old level.1
    · rw [if_pos hrange, if_neg (mt (hsane level.1).mp (not_not.mpr hrange))]
    · rw [if_neg hrange, if_pos ((hsane level.1).mpr hrange), get?_insert]

/-- The updates of a side, on the map and on the partial function. -/
lemma get?_applyLevels {better : Decimal → Decimal → Prop} {old : Quantities} {isSnapshot : Bool}
    {reference : Option Decimal}
    (hsane : ∀ price, isPriceSane price reference = true ↔
      ¬ (isSnapshot = false ∧ OutOfRange better old price))
    (levels : Levels) (anyApplied : Bool) (updates : List (Decimal × Decimal)) :
    (applyLevels reference levels anyApplied updates).1.get? =
      updates.foldl (referenceUpdate better isSnapshot old) levels.get? := by
  unfold applyLevels
  induction updates generalizing levels anyApplied with
  | nil => rfl
  | cons level updates ih =>
    rw [List.foldl_cons, List.foldl_cons, ← get?_applyLevel hsane (levels, anyApplied) level]
    exact ih _ _

/-- Every entry of a side comes from the side before or from an update with a positive quantity. -/
lemma mem_applyLevels {reference : Option Decimal} {levels : Levels} {anyApplied : Bool}
    {updates : List (Decimal × Decimal)} {entry : Decimal × Decimal}
    (h : entry ∈ (applyLevels reference levels anyApplied updates).1.entries) :
    entry ∈ levels.entries ∨ entry ∈ updates ∧ 0 < entry.2 := by
  unfold applyLevels at h
  induction updates generalizing levels anyApplied with
  | nil => exact Or.inl h
  | cons level updates ih =>
    rw [List.foldl_cons] at h
    rcases ih h with hlevels | ⟨hupdates, hpos⟩
    · change entry ∈ (applyLevel reference (levels, anyApplied) level).1.entries at hlevels
      unfold applyLevel at hlevels
      split_ifs at hlevels with hremove
      · exact Or.inl (List.mem_filter.mp hlevels).1
      · rcases mem_insertEntry hlevels with rfl | hold
        · exact Or.inr ⟨List.mem_cons_self, not_le.mp hremove⟩
        · exact Or.inl hold
      · exact Or.inl hlevels
    · exact Or.inr ⟨List.mem_cons_of_mem level hupdates, hpos⟩

/-! ## A delta -/

/-- The delta is a snapshot, or an update that is neither old nor leaves a gap. -/
def Accepted (book : OrderBook) (delta : OrderBookDelta) : Prop :=
  delta.isSnapshot = true ∨ ¬ book.Stale delta ∧ ¬ book.Gap delta

instance (book : OrderBook) (delta : OrderBookDelta) : Decidable (book.Accepted delta) :=
  inferInstanceAs (Decidable (_ ∨ _))

/-- An accepted delta has its levels applied, to an empty book if it is a snapshot. -/
lemma applyDelta_of_accepted {book : OrderBook} {delta : OrderBookDelta}
    (h : book.Accepted delta) :
    book.applyDelta delta =
      if delta.isSnapshot then
        applyUpdates { book with bids := .empty, asks := .empty } delta none none
      else applyUpdates book delta book.bids.lastKey? book.asks.firstKey? := by
  unfold applyDelta
  split_ifs with hsnapshot hstale hgap
  · rfl
  · exact absurd hstale (h.resolve_left hsnapshot).1
  · exact absurd hgap (h.resolve_left hsnapshot).2
  · rfl

/-- The sides after an accepted delta are the reference sides. -/
lemma get?_applyDelta {book : OrderBook} {delta : OrderBookDelta} (h : book.Accepted delta) :
    (book.applyDelta delta).bids.get? =
        referenceSide (· > ·) delta.isSnapshot book.bids.get? delta.bidUpdates ∧
      (book.applyDelta delta).asks.get? =
        referenceSide (· < ·) delta.isSnapshot book.asks.get? delta.askUpdates := by
  rw [applyDelta_of_accepted h]
  unfold referenceSide
  cases delta.isSnapshot with
  | true =>
    -- A snapshot has no reference prices, and no price is out of range.
    have hsane : ∀ (better : Decimal → Decimal → Prop) (old : Quantities) price,
        isPriceSane price none = true ↔ ¬ (true = false ∧ OutOfRange better old price) := by
      intro better old price
      refine iff_of_true rfl ?_
      rintro ⟨hfalse, -⟩
      cases hfalse
    simp only [if_true, applyUpdates]
    rw [get?_keepLast, get?_keepFirst, get?_applyLevels (hsane _ book.bids.get?),
      get?_applyLevels (hsane _ book.asks.get?)]
    exact ⟨rfl, rfl⟩
  | false =>
    have hbids : ∀ price, isPriceSane price book.bids.lastKey? = true ↔
        ¬ (false = false ∧ OutOfRange (· > ·) book.bids.get? price) := by
      intro price
      rw [isPriceSane_iff fun _ => lastKey?_eq_some_iff, and_iff_right rfl]
    have hasks : ∀ price, isPriceSane price book.asks.firstKey? = true ↔
        ¬ (false = false ∧ OutOfRange (· < ·) book.asks.get? price) := by
      intro price
      rw [isPriceSane_iff fun _ => firstKey?_eq_some_iff, and_iff_right rfl]
    simp only [Bool.false_eq_true, if_false, applyUpdates]
    rw [get?_keepLast, get?_keepFirst, get?_applyLevels hbids, get?_applyLevels hasks]
    exact ⟨rfl, rfl⟩

/-- Every entry after an accepted delta is an old one or an update with a positive quantity. -/
lemma mem_applyDelta {book : OrderBook} {delta : OrderBookDelta} (h : book.Accepted delta)
    (entry : Decimal × Decimal) :
    (entry ∈ (book.applyDelta delta).bids.entries →
        entry ∈ book.bids.entries ∨ entry ∈ delta.bidUpdates ∧ 0 < entry.2) ∧
      (entry ∈ (book.applyDelta delta).asks.entries →
        entry ∈ book.asks.entries ∨ entry ∈ delta.askUpdates ∧ 0 < entry.2) := by
  rw [applyDelta_of_accepted h]
  split_ifs
  · simp only [applyUpdates]
    refine ⟨fun hentry => Or.inr ?_, fun hentry => Or.inr ?_⟩
    · exact (mem_applyLevels (mem_of_mem_keepLast hentry)).resolve_left List.not_mem_nil
    · exact (mem_applyLevels (mem_of_mem_keepFirst hentry)).resolve_left List.not_mem_nil
  · simp only [applyUpdates]
    exact ⟨fun hentry => mem_applyLevels (mem_of_mem_keepLast hentry),
      fun hentry => mem_applyLevels (mem_of_mem_keepFirst hentry)⟩

/-- The size of the sides after an accepted delta. -/
lemma size_of_accepted {book : OrderBook} {delta : OrderBookDelta} (h : book.Accepted delta) :
    (book.applyDelta delta).bids.size ≤ maxLevelsPerSide ∧
      (book.applyDelta delta).asks.size ≤ maxLevelsPerSide := by
  rw [applyDelta_of_accepted h]
  split_ifs <;> exact ⟨size_keepLast_le _ _, size_keepFirst_le _ _⟩

/-- An accepted delta makes of each side what the reference says.  So each side has at most 500
levels and one quantity for each price, the quantities stay positive, and the prices do if those of
the updates are positive. -/
theorem applyDelta_eq_reference (book : OrderBook) (delta : OrderBookDelta)
    (hpositive : book.Positive) (haccepted : book.Accepted delta) :
    (book.applyDelta delta).bids.get? =
        referenceSide (· > ·) delta.isSnapshot book.bids.get? delta.bidUpdates ∧
      (book.applyDelta delta).asks.get? =
        referenceSide (· < ·) delta.isSnapshot book.asks.get? delta.askUpdates ∧
      ((book.applyDelta delta).bids.size ≤ maxLevelsPerSide ∧
        (book.applyDelta delta).asks.size ≤ maxLevelsPerSide) ∧
      (((book.applyDelta delta).bids.entries.map Prod.fst).Nodup ∧
        ((book.applyDelta delta).asks.entries.map Prod.fst).Nodup) ∧
      (∀ entry ∈ (book.applyDelta delta).bids.entries ++ (book.applyDelta delta).asks.entries,
        0 < entry.2) ∧
      ((∀ level ∈ delta.bidUpdates ++ delta.askUpdates, 0 < level.1) →
        ∀ entry ∈ (book.applyDelta delta).bids.entries ++ (book.applyDelta delta).asks.entries,
          0 < entry.1) := by
  obtain ⟨hbids, hasks⟩ := get?_applyDelta haccepted
  refine ⟨hbids, hasks, size_of_accepted haccepted, ⟨nodup_keys _, nodup_keys _⟩, ?_, ?_⟩
  · intro entry hentry
    rcases List.mem_append.mp hentry with hbid | hask
    · rcases (mem_applyDelta haccepted entry).1 hbid with hold | ⟨-, hpos⟩
      · exact (hpositive.2 entry hold).2
      · exact hpos
    · rcases (mem_applyDelta haccepted entry).2 hask with hold | ⟨-, hpos⟩
      · exact (hpositive.1 entry hold).2
      · exact hpos
  · intro hprices entry hentry
    rcases List.mem_append.mp hentry with hbid | hask
    · rcases (mem_applyDelta haccepted entry).1 hbid with hold | ⟨hupdate, -⟩
      · exact (hpositive.2 entry hold).1
      · exact hprices entry (List.mem_append_left _ hupdate)
    · rcases (mem_applyDelta haccepted entry).2 hask with hold | ⟨hupdate, -⟩
      · exact (hpositive.1 entry hold).1
      · exact hprices entry (List.mem_append_right _ hupdate)

/-- An update with the id after that of `twoLevelBook`.  It deletes the best bid, sets a price near
that bid twice and another far from it. -/
def mixedUpdate : OrderBookDelta where
  bidUpdates := [(100, 0), (98, 1), (9, 1), (98, 3)]
  askUpdates := [(103, 1)]
  isSnapshot := false
  lastUpdateId := 2
  lastUpdateNs := 0

/-- The price far from the best bid is rejected, although that level is deleted before. -/
theorem applyDelta_eq_reference_mixedUpdate :
    (twoLevelBook.applyDelta mixedUpdate).bids.entries = [(98, 3), (99, 2)] ∧
      (twoLevelBook.applyDelta mixedUpdate).bids.get? =
        referenceSide (· > ·) false twoLevelBook.bids.get?
          [(100, 0), (98, 1), (9, 1), (98, 3)] := by
  have hreference := applyDelta_eq_reference twoLevelBook mixedUpdate (by decide +kernel)
    (by decide +kernel)
  exact ⟨by decide +kernel, hreference.1⟩

end OrderBook

end HftArb
