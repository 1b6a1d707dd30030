import HftArb.Decimal
import HftArb.Foundations.OrderedMap
import HftArb.Foundations.Runs

/-!
# The order book and its sequence numbers

An order book is kept up to date by snapshots and incremental deltas.  An incremental delta must
follow on the last one: one that is older is skipped, and one that leaves a gap clears the book.

The sequence number only moves on when a delta changes some level.  A delta without levels, or one
whose levels all fail the sanity check of prices, therefore makes the delta after it look like a
gap.  `contiguous_feed_iff` says which contiguous feeds get through.

The sanity check multiplies and divides the reference by ten.  Both are exact here, as everywhere
over `Decimal`: that the program stops when ten times the reference is beyond the largest decimal is
not part of these statements.
-/

namespace HftArb

/-- Prices with their quantities. -/
abbrev Levels := OrderedMap Decimal Decimal

/-- A change of an order book.  Update ids are numbers without a bound: the code only adds one to an
id that it compares with a greater one. -/
structure OrderBookDelta where
  bidUpdates : List (Decimal × Decimal)
  askUpdates : List (Decimal × Decimal)
  isSnapshot : Bool
  lastUpdateId : ℕ
  lastUpdateNs : ℕ

/-- The delta has levels. -/
def OrderBookDelta.HasLevels (delta : OrderBookDelta) : Prop :=
  ¬ (delta.bidUpdates = [] ∧ delta.askUpdates = [])

instance (delta : OrderBookDelta) : Decidable delta.HasLevels :=
  inferInstanceAs (Decidable (¬ _))

/-- An order book. -/
structure OrderBook where
  bids : Levels
  asks : Levels
  lastUpdateId : ℕ
  lastUpdateNs : ℕ

namespace OrderBook

/-- A book without levels. -/
def new : OrderBook := ⟨.empty, .empty, 0, 0⟩

/-- A price is within a factor of ten of the reference, if there is one; with exact products and
quotients. -/
def isPriceSane (price : Decimal) (reference : Option Decimal) : Bool :=
  match reference with
  | none => true
  | some refPrice =>
    if 0 < refPrice then
      if price ≤ 0 then false
      else decide (refPrice / 10 ≤ price) && decide (price ≤ refPrice * 10)
    else true

/-- An update of a level takes effect: it removes the level, or its price is sane. -/
def levelApplies (reference : Option Decimal) (level : Decimal × Decimal) : Bool :=
  decide (level.2 ≤ 0) || isPriceSane level.1 reference

/-- Apply an update to the levels of a side, and record whether any took effect. -/
def applyLevel (reference : Option Decimal) (side : Levels × Bool) (level : Decimal × Decimal) :
    Levels × Bool :=
  if level.2 ≤ 0 then (side.1.erase level.1, true)
  else if isPriceSane level.1 reference then (side.1.insert level.1 level.2, true)
  else side

/-- Apply updates to the levels of a side. -/
def applyLevels (reference : Option Decimal) (levels : Levels) (anyApplied : Bool)
    (updates : List (Decimal × Decimal)) : Levels × Bool :=
  updates.foldl (applyLevel reference) (levels, anyApplied)

/-- `MAX_LEVELS_PER_SIDE`. -/
def maxLevelsPerSide : ℕ := 500

/-- Apply the levels of a delta and trim the sides to their best levels.  References are the best
prices of the book before the delta. -/
def applyUpdates (book : OrderBook) (delta : OrderBookDelta) (bestBid bestAsk : Option Decimal) :
    OrderBook :=
  let bids := applyLevels bestBid book.bids false delta.bidUpdates
  let asks := applyLevels bestAsk book.asks bids.2 delta.askUpdates
  { bids := bids.1.keepLast maxLevelsPerSide
    asks := asks.1.keepFirst maxLevelsPerSide
    lastUpdateId :=
      if asks.2 = true ∧ book.lastUpdateId < delta.lastUpdateId then delta.lastUpdateId
      else book.lastUpdateId
    lastUpdateNs := if asks.2 then delta.lastUpdateNs else book.lastUpdateNs }

/-- The delta is an update that is not newer than the book. -/
def Stale (book : OrderBook) (delta : OrderBookDelta) : Prop :=
  book.lastUpdateId ≠ 0 ∧ delta.lastUpdateId ≤ book.lastUpdateId

/-- The delta is an update that does not follow on the book. -/
def Gap (book : OrderBook) (delta : OrderBookDelta) : Prop :=
  book.lastUpdateId ≠ 0 ∧ book.lastUpdateId + 1 < delta.lastUpdateId

instance (book : OrderBook) (delta : OrderBookDelta) : Decidable (book.Stale delta) :=
  inferInstanceAs (Decidable (_ ∧ _))

instance (book : OrderBook) (delta : OrderBookDelta) : Decidable (book.Gap delta) :=
  inferInstanceAs (Decidable (_ ∧ _))

/-- Apply a delta. -/
def applyDelta (book : OrderBook) (delta : OrderBookDelta) : OrderBook :=
  if delta.isSnapshot then
    applyUpdates { book with bids := .empty, asks := .empty } delta none none
  else if book.Stale delta then book
  else if book.Gap delta then
    { book with bids := .empty, asks := .empty, lastUpdateId := delta.lastUpdateId }
  else applyUpdates book delta book.bids.lastKey? book.asks.firstKey?

/-- Some level of an update takes effect. -/
def Applies (book : OrderBook) (delta : OrderBookDelta) : Prop :=
  (∃ level ∈ delta.bidUpdates, levelApplies book.bids.lastKey? level = true) ∨
    ∃ level ∈ delta.askUpdates, levelApplies book.asks.firstKey? level = true

instance (book : OrderBook) (delta : OrderBookDelta) : Decidable (book.Applies delta) :=
  inferInstanceAs (Decidable (_ ∨ _))

/-- The book after some deltas. -/
def applyAll (book : OrderBook) (deltas : List OrderBookDelta) : OrderBook :=
  deltas.foldl applyDelta book

/-! ## One delta -/

/-- Whether any update takes effect. -/
lemma applyLevels_anyApplied (reference : Option Decimal) (levels : Levels) (anyApplied : Bool)
    (updates : List (Decimal × Decimal)) :
    (applyLevels reference levels anyApplied updates).2 =
      (anyApplied || updates.any (levelApplies reference)) := by
  unfold applyLevels
  induction updates generalizing levels anyApplied with
  | nil => simp
  | cons level updates ih =>
    have hone : (applyLevel reference (levels, anyApplied) level).2 =
        (anyApplied || levelApplies reference level) := by
      unfold applyLevel levelApplies
      split_ifs with hremove hsane
      · simp [hremove]
      · simp [hsane]
      · simp [hremove, hsane]
    rw [List.foldl_cons, List.any_cons, ← Bool.or_assoc, ← hone]
    exact ih _ _

/-- Every delta leaves at most 500 levels on each side of a book that had no more. -/
lemma size_applyDelta_le {book : OrderBook} (hbids : book.bids.size ≤ maxLevelsPerSide)
    (hasks : book.asks.size ≤ maxLevelsPerSide) (delta : OrderBookDelta) :
    (book.applyDelta delta).bids.size ≤ maxLevelsPerSide ∧
      (book.applyDelta delta).asks.size ≤ maxLevelsPerSide := by
  unfold applyDelta
  split_ifs
  · exact ⟨OrderedMap.size_keepLast_le _ _, OrderedMap.size_keepFirst_le _ _⟩
  · exact ⟨hbids, hasks⟩
  · exact ⟨Nat.zero_le _, Nat.zero_le _⟩
  · exact ⟨OrderedMap.size_keepLast_le _ _, OrderedMap.size_keepFirst_le _ _⟩

/-- The sequence number after an update that follows on the book, or comes first. -/
lemma lastUpdateId_of_next {book : OrderBook} {delta : OrderBookDelta}
    (hdelta : delta.isSnapshot = false) (hnext : book.lastUpdateId = 0 ∨
      delta.lastUpdateId = book.lastUpdateId + 1) (hlt : book.lastUpdateId < delta.lastUpdateId) :
    (book.applyDelta delta).lastUpdateId =
      if book.Applies delta then delta.lastUpdateId else book.lastUpdateId := by
  have hstale : ¬ book.Stale delta := by
    rintro ⟨-, hle⟩
    omega
  have hgap : ¬ book.Gap delta := by
    rintro ⟨hne, hgt⟩
    omega
  have happlies : book.Applies delta ↔
      (applyLevels book.asks.firstKey? book.asks
        (applyLevels book.bids.lastKey? book.bids false delta.bidUpdates).2
        delta.askUpdates).2 = true := by
    rw [applyLevels_anyApplied, applyLevels_anyApplied]
    simp [Applies]
  simp only [applyDelta, hdelta, Bool.false_eq_true, if_false, if_neg hstale, if_neg hgap,
    applyUpdates, happlies, hlt, and_true]

/-- The sequence number after a snapshot. -/
lemma lastUpdateId_of_snapshot (book : OrderBook) {delta : OrderBookDelta}
    (hdelta : delta.isSnapshot = true) :
    (book.applyDelta delta).lastUpdateId =
      if delta.HasLevels then max book.lastUpdateId delta.lastUpdateId else book.lastUpdateId := by
  have hany : ∀ updates : List (Decimal × Decimal),
      updates.any (levelApplies none) = decide (updates ≠ []) := by
    intro updates
    cases updates with
    | nil => rfl
    | cons level updates => simp [levelApplies, isPriceSane]
  simp only [applyDelta, hdelta, if_true, applyUpdates, applyLevels_anyApplied, hany,
    Bool.false_or, Bool.or_eq_true, decide_eq_true_eq]
  have hsome : (delta.bidUpdates ≠ [] ∨ delta.askUpdates ≠ []) ↔ delta.HasLevels :=
    not_and_or.symm
  by_cases hlevels : delta.HasLevels
  · simp only [hsome, hlevels, true_and, if_true]
    split_ifs <;> omega
  · simp only [hsome, hlevels, false_and, if_false]

/-- An update that is not newer than the book changes nothing. -/
lemma applyDelta_of_stale {book : OrderBook} {delta : OrderBookDelta}
    (hdelta : delta.isSnapshot = false) (h : book.Stale delta) : book.applyDelta delta = book := by
  simp only [applyDelta, hdelta, Bool.false_eq_true, if_false, if_pos h]

/-! ## Contiguous feeds -/

/-- Updates with the ids after `n`, one after the other. -/
def Contiguous : ℕ → List OrderBookDelta → Prop
  | _, [] => True
  | n, delta :: deltas =>
    delta.isSnapshot = false ∧ delta.lastUpdateId = n + 1 ∧ Contiguous (n + 1) deltas

/-- No delta finds a gap, and the book ends at the id of the last one. -/
structure Sequenced (book : OrderBook) (n : ℕ) (deltas : List OrderBookDelta) : Prop where
  noGap : ∀ before delta after, deltas = before ++ delta :: after →
    ¬ (book.applyAll before).Gap delta
  lastUpdateId : (book.applyAll deltas).lastUpdateId = n + deltas.length

/-- A feed gets through delta by delta. -/
lemma sequenced_cons {book : OrderBook} {n : ℕ} {delta : OrderBookDelta}
    {deltas : List OrderBookDelta} :
    book.Sequenced n (delta :: deltas) ↔
      ¬ book.Gap delta ∧ (book.applyDelta delta).Sequenced (n + 1) deltas := by
  have hlength : n + (delta :: deltas).length = n + 1 + deltas.length := by
    rw [List.length_cons]
    omega
  constructor
  · rintro ⟨hgap, hid⟩
    obtain ⟨hfirst, hrest⟩ := Runs.forall_split_cons.mp hgap
    exact ⟨hfirst, hrest, hid.trans hlength⟩
  · rintro ⟨hfirst, hrest⟩
    exact ⟨Runs.forall_split_cons.mpr ⟨hfirst, hrest.noGap⟩, hrest.lastUpdateId.trans hlength.symm⟩

lemma sequenced_nil {book : OrderBook} {n : ℕ} :
    book.Sequenced n [] ↔ book.lastUpdateId = n := by
  constructor
  · intro h
    exact h.lastUpdateId
  · intro h
    exact ⟨Runs.forall_split_nil, h⟩

/-- Every delta changes some level of the book it is applied to. -/
def AllApply (book : OrderBook) (deltas : List OrderBookDelta) : Prop :=
  ∀ before delta after, deltas = before ++ delta :: after → (book.applyAll before).Applies delta

/-- No delta changes a level of the book it is applied to. -/
def NoneApply (book : OrderBook) (deltas : List OrderBookDelta) : Prop :=
  ∀ before delta after, deltas = before ++ delta :: after → ¬ (book.applyAll before).Applies delta

/-- A book that is behind the feed meets a gap or ends behind it. -/
lemma not_sequenced_of_lt {book : OrderBook} {n : ℕ} {deltas : List OrderBookDelta}
    (hpos : book.lastUpdateId ≠ 0) (hlt : book.lastUpdateId < n) (h : Contiguous n deltas) :
    ¬ book.Sequenced n deltas := by
  cases deltas with
  | nil =>
    rw [sequenced_nil]
    omega
  | cons delta deltas =>
    obtain ⟨-, hid, -⟩ := h
    rw [sequenced_cons]
    rintro ⟨hgap, -⟩
    exact hgap ⟨hpos, by omega⟩

/-- A book that is up to date follows the feed exactly when every delta changes some level. -/
lemma sequenced_iff_of_eq {book : OrderBook} {n : ℕ} {deltas : List OrderBookDelta}
    (hpos : n ≠ 0) (heq : book.lastUpdateId = n) (h : Contiguous n deltas) :
    book.Sequenced n deltas ↔ book.AllApply deltas := by
  induction deltas generalizing book n with
  | nil => exact iff_of_true (sequenced_nil.mpr heq) Runs.forall_split_nil
  | cons delta deltas ih =>
    obtain ⟨hdelta, hid, hrest⟩ := h
    have hgap : ¬ book.Gap delta := by
      rintro ⟨-, hgt⟩
      omega
    have hlt : book.lastUpdateId < delta.lastUpdateId := by omega
    have hnext := lastUpdateId_of_next hdelta (Or.inr (by omega)) hlt
    rw [sequenced_cons]
    unfold AllApply
    rw [Runs.forall_split_cons]
    by_cases happlies : book.Applies delta
    · rw [if_pos happlies, hid] at hnext
      exact and_congr (iff_of_true hgap happlies) (ih (by omega) hnext hrest)
    · rw [if_neg happlies] at hnext
      refine iff_of_false ?_ fun hall => happlies hall.1
      rintro ⟨-, hseq⟩
      exact not_sequenced_of_lt (by omega) (by omega) hrest hseq

/-- A book without a sequence number takes the first delta that changes a level for its start. -/
lemma sequenced_iff_of_zero {book : OrderBook} {n : ℕ} {deltas : List OrderBookDelta}
    (hpos : n ≠ 0) (hzero : book.lastUpdateId = 0) (h : Contiguous n deltas) :
    book.Sequenced n deltas ↔ ∃ idle rest, deltas = idle ++ rest ∧ rest ≠ [] ∧
      book.NoneApply idle ∧ (book.applyAll idle).AllApply rest := by
  induction deltas generalizing book n with
  | nil =>
    refine iff_of_false (by rw [sequenced_nil]; omega) ?_
    rintro ⟨idle, rest, heq, hne, -⟩
    exact hne (List.append_eq_nil_iff.mp heq.symm).2
  | cons delta deltas ih =>
    obtain ⟨hdelta, hid, hrest⟩ := h
    have hgap : ¬ book.Gap delta := fun hgap => hgap.1 hzero
    have hlt : book.lastUpdateId < delta.lastUpdateId := by omega
    have hnext := lastUpdateId_of_next hdelta (Or.inl hzero) hlt
    rw [sequenced_cons, and_iff_right hgap]
    by_cases happlies : book.Applies delta
    · rw [if_pos happlies, hid] at hnext
      rw [sequenced_iff_of_eq (by omega) hnext hrest]
      constructor
      · intro hall
        exact ⟨[], delta :: deltas, rfl, by simp, Runs.forall_split_nil,
          Runs.forall_split_cons.mpr ⟨happlies, hall⟩⟩
      · rintro ⟨idle, rest, heq, -, hidle, hall⟩
        cases idle with
        | nil =>
          rw [List.nil_append] at heq
          subst heq
          exact (Runs.forall_split_cons.mp hall).2
        | cons delta' idle =>
          obtain ⟨rfl, -⟩ := List.cons.inj heq
          exact absurd happlies (hidle [] delta idle rfl)
    · rw [if_neg happlies, hzero] at hnext
      rw [ih (by omega) hnext hrest]
      constructor
      · rintro ⟨idle, rest, rfl, hne, hidle, hall⟩
        exact ⟨delta :: idle, rest, rfl, hne, Runs.forall_split_cons.mpr ⟨happlies, hidle⟩, hall⟩
      · rintro ⟨idle, rest, heq, hne, hidle, hall⟩
        cases idle with
        | nil =>
          rw [List.nil_append] at heq
          subst heq
          exact absurd (hall [] delta deltas rfl) happlies
        | cons delta' idle =>
          obtain ⟨rfl, rfl⟩ := List.cons.inj heq
          exact ⟨idle, rest, rfl, hne, (Runs.forall_split_cons.mp hidle).2, hall⟩

/-- The ids of a contiguous feed. -/
lemma lastUpdateId_of_contiguous {n : ℕ} {deltas before after : List OrderBookDelta}
    {delta : OrderBookDelta} (h : Contiguous n deltas) (heq : deltas = before ++ delta :: after) :
    delta.lastUpdateId = n + 1 + before.length := by
  induction before generalizing n deltas with
  | nil =>
    subst heq
    exact h.2.1
  | cons delta' before ih =>
    subst heq
    have hid := ih h.2.2 rfl
    rw [List.length_cons]
    omega

/-- A book that is ahead of the feed skips the deltas up to its own id. -/
lemma sequenced_iff_of_gt {book : OrderBook} {n : ℕ} {deltas : List OrderBookDelta}
    (hgt : n < book.lastUpdateId) (h : Contiguous n deltas) :
    book.Sequenced n deltas ↔ book.lastUpdateId ≤ n + deltas.length ∧
      ∀ before delta after, deltas = before ++ delta :: after →
        book.lastUpdateId < delta.lastUpdateId → (book.applyAll before).Applies delta := by
  induction deltas generalizing n with
  | nil =>
    refine iff_of_false (by rw [sequenced_nil]; omega) ?_
    rintro ⟨hle, -⟩
    simp only [List.length_nil] at hle
    omega
  | cons delta deltas ih =>
    obtain ⟨hdelta, hid, hrest⟩ := h
    have hgap : ¬ book.Gap delta := by
      rintro ⟨-, hlt⟩
      omega
    have hskip : book.applyDelta delta = book := applyDelta_of_stale hdelta ⟨by omega, by omega⟩
    have hsplit : (∀ before delta' after, delta :: deltas = before ++ delta' :: after →
        book.lastUpdateId < delta'.lastUpdateId → (book.applyAll before).Applies delta') ↔
        ∀ before delta' after, deltas = before ++ delta' :: after →
          book.lastUpdateId < delta'.lastUpdateId → (book.applyAll before).Applies delta' := by
      have hall : ∀ before, book.applyAll (delta :: before) = book.applyAll before := by
        intro before
        unfold applyAll
        rw [List.foldl_cons, hskip]
      rw [Runs.forall_split_cons (P := fun before delta' =>
        book.lastUpdateId < delta'.lastUpdateId → (book.applyAll before).Applies delta')]
      simp only [hall]
      refine and_iff_right fun hlt => ?_
      omega
    rw [sequenced_cons, and_iff_right hgap, hskip, hsplit, List.length_cons]
    rcases Nat.lt_or_ge (n + 1) book.lastUpdateId with hgt' | hle
    · rw [ih hgt' hrest]
      refine and_congr_left fun _ => ?_
      omega
    · have heq : book.lastUpdateId = n + 1 := by omega
      rw [sequenced_iff_of_eq (by omega) heq hrest, and_iff_right (by omega)]
      refine forall_congr' fun before => forall_congr' fun delta' => forall_congr' fun after =>
        imp_congr_right fun hdeltas => ?_
      have hid' := lastUpdateId_of_contiguous hrest hdeltas
      exact (imp_iff_right (by omega)).symm

/-- A contiguous feed behind a snapshot gets through exactly in three cases: the snapshot has
brought the book to its id and every delta changes some level; the snapshot was empty, the book had
no sequence number, and from some delta on, but for none before it, every delta changes some level;
or the book was ahead of the snapshot, by no more than the feed, and every delta beyond the book
changes some level. -/
theorem contiguous_feed_iff (book : OrderBook) (snapshot : OrderBookDelta)
    (deltas : List OrderBookDelta) (hsnapshot : snapshot.isSnapshot = true)
    (hpos : 0 < snapshot.lastUpdateId) (hdeltas : Contiguous snapshot.lastUpdateId deltas) :
    (book.applyDelta snapshot).Sequenced snapshot.lastUpdateId deltas ↔
      ((book.lastUpdateId ≤ snapshot.lastUpdateId ∧ snapshot.HasLevels ∨
          book.lastUpdateId = snapshot.lastUpdateId) ∧
        (book.applyDelta snapshot).AllApply deltas) ∨
      (book.lastUpdateId = 0 ∧ ¬ snapshot.HasLevels ∧
        ∃ idle rest, deltas = idle ++ rest ∧ rest ≠ [] ∧
          (book.applyDelta snapshot).NoneApply idle ∧
          ((book.applyDelta snapshot).applyAll idle).AllApply rest) ∨
      (snapshot.lastUpdateId < book.lastUpdateId ∧
        book.lastUpdateId ≤ snapshot.lastUpdateId + deltas.length ∧
        ∀ before delta after, deltas = before ++ delta :: after →
          book.lastUpdateId < delta.lastUpdateId →
          ((book.applyDelta snapshot).applyAll before).Applies delta) := by
  have hid := lastUpdateId_of_snapshot book hsnapshot
  generalize book.applyDelta snapshot = start at hid ⊢
  have hahead : snapshot.lastUpdateId < book.lastUpdateId →
      start.lastUpdateId = book.lastUpdateId := by
    intro hlt
    split_ifs at hid <;> omega
  rcases lt_trichotomy book.lastUpdateId snapshot.lastUpdateId with hlt | heq | hgt
  · by_cases hlevels : snapshot.HasLevels
    · rw [if_pos hlevels, max_eq_right hlt.le] at hid
      rw [sequenced_iff_of_eq hpos.ne' hid hdeltas]
      simp [hlt.le, hlt.not_gt, hlevels]
    · rw [if_neg hlevels] at hid
      rcases Nat.eq_zero_or_pos book.lastUpdateId with hzero | hbook
      · rw [sequenced_iff_of_zero hpos.ne' (hid.trans hzero) hdeltas]
        simp [hlevels, hzero, hpos.ne]
      · refine iff_of_false (not_sequenced_of_lt (by omega) (by omega) hdeltas) ?_
        simp [hlt.ne, hlt.not_gt, hlevels, hbook.ne']
  · have hstart : start.lastUpdateId = snapshot.lastUpdateId := by
      split_ifs at hid <;> omega
    rw [sequenced_iff_of_eq hpos.ne' hstart hdeltas]
    simp [heq, hpos.ne']
  · have hstart := hahead hgt
    rw [sequenced_iff_of_gt (by omega) hdeltas, hstart]
    simp [hgt, hgt.not_ge, hgt.ne', (hpos.trans hgt).ne']

/-- A snapshot with a bid and an ask. -/
def testSnapshot : OrderBookDelta := ⟨[(100, 1)], [(101, 1)], true, 5, 0⟩

/-- An update of the bid. -/
def testUpdate (id : ℕ) : OrderBookDelta := ⟨[(100, 2)], [], false, id, 0⟩

/-- A snapshot and two updates of its bid. -/
theorem contiguous_feed_updates :
    Contiguous 5 [testUpdate 6, testUpdate 7] ∧
      (new.applyDelta testSnapshot).Sequenced 5 [testUpdate 6, testUpdate 7] := by
  have hdeltas : Contiguous 5 [testUpdate 6, testUpdate 7] := ⟨rfl, rfl, rfl, rfl, trivial⟩
  refine ⟨hdeltas, (contiguous_feed_iff new testSnapshot _ rfl (by decide) hdeltas).mpr ?_⟩
  refine Or.inl ⟨Or.inl ⟨by decide, by decide⟩, ?_⟩
  refine Runs.forall_split_cons.mpr ⟨by decide +kernel, ?_⟩
  exact Runs.forall_split_cons.mpr ⟨by decide +kernel, Runs.forall_split_nil⟩

/-- An update without levels makes the update after it clear the book. -/
theorem empty_update_makes_gap :
    ¬ (Contiguous 5 [⟨[], [], false, 6, 0⟩, testUpdate 7] →
      (new.applyDelta testSnapshot).Sequenced 5 [⟨[], [], false, 6, 0⟩, testUpdate 7]) := by
  intro h
  have hseq := h ⟨rfl, rfl, rfl, rfl, trivial⟩
  exact hseq.noGap [⟨[], [], false, 6, 0⟩] (testUpdate 7) [] rfl (by decide +kernel)

/-! ## The update after a snapshot -/

/-- The delta lists some quantity. -/
def HasQuantity (delta : OrderBookDelta) : Prop :=
  ∃ level ∈ delta.bidUpdates ++ delta.askUpdates, 0 < level.2

lemma HasQuantity.hasLevels {delta : OrderBookDelta} (h : HasQuantity delta) : delta.HasLevels := by
  rintro ⟨hbids, hasks⟩
  obtain ⟨level, hlevel, -⟩ := h
  rw [hbids, hasks] at hlevel
  exact List.not_mem_nil hlevel

/-- The updates with an id are neither skipped nor taken for a gap. -/
def Accepts (book : OrderBook) (id : ℕ) : Prop :=
  ∀ delta : OrderBookDelta, delta.isSnapshot = false → delta.lastUpdateId = id →
    ¬ book.Stale delta ∧ ¬ book.Gap delta

/-- A book accepts the update after its own id, and any update while it has no id. -/
lemma accepts_succ_iff {book : OrderBook} {id : ℕ} :
    book.Accepts (id + 1) ↔ book.lastUpdateId = 0 ∨ book.lastUpdateId = id := by
  constructor
  · intro h
    obtain ⟨hstale, hgap⟩ := h ⟨[], [], false, id + 1, 0⟩ rfl rfl
    by_contra hne
    obtain ⟨hzero, hid⟩ := not_or.mp hne
    rcases Nat.lt_or_gt_of_ne hid with hlt | hgt
    · exact hgap ⟨hzero, Nat.add_lt_add_right hlt 1⟩
    · exact hstale ⟨hzero, hgt⟩
  · intro h delta _ hdelta
    refine ⟨fun hstale => ?_, fun hgap => ?_⟩
    · obtain ⟨hzero, hle⟩ := hstale
      omega
    · obtain ⟨hzero, hlt⟩ := hgap
      omega

/-- After a snapshot the book accepts the next update exactly when it was not ahead of the snapshot:
the levels are replaced, but the id of the book is only ever raised. -/
theorem snapshot_resynchronises_iff (book : OrderBook) (snapshot : OrderBookDelta)
    (hsnapshot : snapshot.isSnapshot = true) (hquantity : HasQuantity snapshot) :
    (book.applyDelta snapshot).Accepts (snapshot.lastUpdateId + 1) ↔
      book.lastUpdateId ≤ snapshot.lastUpdateId := by
  rw [accepts_succ_iff, lastUpdateId_of_snapshot book hsnapshot, if_pos hquantity.hasLevels]
  omega

/-- A snapshot brings a fresh book to its id. -/
theorem snapshot_resynchronises_new :
    HasQuantity testSnapshot ∧ (new.applyDelta testSnapshot).Accepts 6 := by
  have hquantity : HasQuantity testSnapshot := ⟨(100, 1), by decide +kernel, by decide +kernel⟩
  exact ⟨hquantity, (snapshot_resynchronises_iff new testSnapshot rfl hquantity).mpr (by decide)⟩

/-- A book at id 10 keeps its id when the exchange starts again at 5, and skips the update 6. -/
theorem snapshot_behind_book_not_accepted :
    ¬ ({ new with lastUpdateId := 10 }.applyDelta testSnapshot).Accepts 6 := by
  intro h
  exact (h (testUpdate 6) rfl rfl).1 (by decide +kernel)

end OrderBook

end HftArb
