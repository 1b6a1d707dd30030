import HftArb.Feeds.BookReference

/-!
# The depth messages of Binance

A message of Binance or MEXC is a partial-depth snapshot, without a field `e`, or an event with an
`e` of `depthUpdate`, and may be wrapped in the fields `result` and `data`.  The parser takes both
for snapshots: an `e` of `depthUpdate` sets the flag that a missing `e` sets too.  The book is
therefore replaced by every update, and loses the levels that the update does not have
(`parseBinanceDepth_iff`).

The text of a message, decimal literals and floating-point numbers are read by parameters.
-/

namespace HftArb

namespace BinanceDepth

/-- A number of a JSON value, as it is stored: a `u64`, a negative `i64` or the bits of a double. -/
inductive JsonNumber
  | posInt (n : UInt64)
  | negInt (z : ℤ)
  | float (bits : UInt64)

/-- A JSON value. -/
inductive Json
  | null
  | bool (b : Bool)
  | number (n : JsonNumber)
  | string (s : String)
  | array (values : List Json)
  | object (entries : List (String × Json))

namespace Json

/-- A field of an object. -/
def get? (v : Json) (key : String) : Option Json :=
  match v with
  | .object entries => entries.lookup key
  | _ => none

/-- `as_array`. -/
def asArray : Json → Option (List Json)
  | .array values => some values
  | _ => none

/-- `as_str`. -/
def asStr : Json → Option String
  | .string s => some s
  | _ => none

/-- `as_u64`. -/
def asU64 : Json → Option UInt64
  | .number (.posInt n) => some n
  | _ => none

end Json

section Model

-- `serde_json::from_str`, the parser of decimals, and `as_f64` followed by `from_f64_retain`.
variable (fromStr : String → Option Json) (parseDecimal : String → Option Decimal)
  (decimalOfNumber : JsonNumber → Option Decimal)

/-- `parse_decimal_value`: a string or a number. -/
def parseDecimalValue : Json → Option Decimal
  | .string s => parseDecimal s
  | .number n => decimalOfNumber n
  | _ => none

/-- A pair of a positive price and a quantity; other entries are skipped. -/
def parsePair (pair : Json) : Option (Decimal × Decimal) :=
  match pair.asArray with
  | some (price :: qty :: _) =>
    match parseDecimalValue parseDecimal decimalOfNumber price,
      parseDecimalValue parseDecimal decimalOfNumber qty with
    | some p, some q => if 0 < p then some (p, q) else none
    | _, _ => none
  | _ => none

/-- `parse_price_qty_pairs`. -/
def parsePriceQtyPairs (pairs : List Json) : List (Decimal × Decimal) :=
  pairs.filterMap (parsePair parseDecimal decimalOfNumber)

/-- What is left of a message without its wrappers. -/
def payload (v : Json) : Json :=
  let result := (v.get? "result").getD v
  let inner := (result.get? "data").getD result
  (v.get? "data").getD inner

/-- The flag of a payload. -/
def snapshotFlag (data : Json) : Bool :=
  (((data.get? "e").bind Json.asStr).map fun e => decide (e = "depthUpdate")).getD true

/-- The update id of a payload. -/
def updateId (data : Json) : UInt64 :=
  (((data.get? "lastUpdateId").orElse fun _ => data.get? "u").bind Json.asU64).getD 0

/-- `parse_binance_depth`, with the reading of the clock. -/
def parseBinanceDepth (raw : String) (ts : ℕ) : Option OrderBookDelta :=
  (fromStr raw).bind fun v =>
  let data := payload v
  ((data.get? "b").bind Json.asArray).bind fun bidsArr =>
  ((data.get? "a").bind Json.asArray).bind fun asksArr =>
  let bidUpdates := parsePriceQtyPairs parseDecimal decimalOfNumber bidsArr
  let askUpdates := parsePriceQtyPairs parseDecimal decimalOfNumber asksArr
  if bidUpdates = [] ∧ askUpdates = [] then none
  else some
    { bidUpdates := bidUpdates
      askUpdates := askUpdates
      isSnapshot := snapshotFlag data
      lastUpdateId := (updateId data).toNat
      lastUpdateNs := ts }

/-- The delta is parsed from a message whose payload has the given field `e`. -/
def FromMessage (event : Option Json) (delta : OrderBookDelta) : Prop :=
  ∃ raw v ts, fromStr raw = some v ∧ (payload v).get? "e" = event ∧
    parseBinanceDepth fromStr parseDecimal decimalOfNumber raw ts = some delta

end Model

/-! ## One message -/

section Message

variable {fromStr : String → Option Json} {parseDecimal : String → Option Decimal}
  {decimalOfNumber : JsonNumber → Option Decimal}

/-- The prices of parsed pairs are positive. -/
lemma pos_of_mem_parsePriceQtyPairs {pairs : List Json} {level : Decimal × Decimal}
    (h : level ∈ parsePriceQtyPairs parseDecimal decimalOfNumber pairs) : 0 < level.1 := by
  obtain ⟨pair, -, hpair⟩ := List.mem_filterMap.mp h
  unfold parsePair at hpair
  split at hpair
  · split at hpair
    · split at hpair
      · next hpos =>
        cases hpair
        exact hpos
      · cases hpair
    · cases hpair
  · cases hpair

/-- A parsed delta has the flag of its payload, some level, and positive prices only. -/
lemma parseBinanceDepth_spec {raw : String} {v : Json} {ts : ℕ} {delta : OrderBookDelta}
    (hv : fromStr raw = some v)
    (h : parseBinanceDepth fromStr parseDecimal decimalOfNumber raw ts = some delta) :
    delta.isSnapshot = snapshotFlag (payload v) ∧ delta.HasLevels ∧
      ∀ level ∈ delta.bidUpdates ++ delta.askUpdates, 0 < level.1 := by
  unfold parseBinanceDepth at h
  rw [hv, Option.bind_some] at h
  obtain ⟨bidsArr, -, h⟩ := Option.bind_eq_some_iff.mp h
  obtain ⟨asksArr, -, h⟩ := Option.bind_eq_some_iff.mp h
  dsimp only at h
  split at h
  · cases h
  · next hlevels =>
    cases h
    refine ⟨rfl, hlevels, fun level hlevel => ?_⟩
    rcases List.mem_append.mp hlevel with hlevel | hlevel
    · exact pos_of_mem_parsePriceQtyPairs hlevel
    · exact pos_of_mem_parsePriceQtyPairs hlevel

/-- The flag is set without an `e`, by an `e` of `depthUpdate`, and by an `e` that is no string. -/
lemma snapshotFlag_eq_true_iff (data : Json) : snapshotFlag data = true ↔
    data.get? "e" = none ∨ data.get? "e" = some (.string "depthUpdate") ∨
      ∃ e, data.get? "e" = some e ∧ e.asStr = none := by
  unfold snapshotFlag
  cases data.get? "e" with
  | none => simp
  | some e => cases e <;> simp [Json.asStr]

/-- The flag tells the two kinds of messages apart when there is no `e`, or one of another event. -/
lemma snapshotFlag_right_iff (data : Json) :
    ((snapshotFlag data = true ↔ data.get? "e" = none) ∧
      (data.get? "e" = some (.string "depthUpdate") → snapshotFlag data = false)) ↔
    data.get? "e" = none ∨ ∃ s, data.get? "e" = some (.string s) ∧ s ≠ "depthUpdate" := by
  rw [← Bool.not_eq_true, snapshotFlag_eq_true_iff]
  cases data.get? "e" with
  | none => simp
  | some e => cases e <;> simp [Json.asStr]

/-- A delta of an update is a snapshot. -/
lemma isSnapshot_of_depthUpdate {delta : OrderBookDelta}
    (h : FromMessage fromStr parseDecimal decimalOfNumber (some (.string "depthUpdate")) delta) :
    delta.isSnapshot = true := by
  obtain ⟨raw, v, ts, hv, hevent, hparse⟩ := h
  rw [(parseBinanceDepth_spec hv hparse).1, snapshotFlag_eq_true_iff]
  exact Or.inr (Or.inl hevent)

end Message

/-! ## A snapshot and updates -/

/-- After a snapshot a book has only levels of the snapshot. -/
lemma mem_of_snapshot (book : OrderBook) {delta : OrderBookDelta} (h : delta.isSnapshot = true)
    (level : Decimal × Decimal) :
    (level ∈ (book.applyDelta delta).bids.entries → level ∈ delta.bidUpdates) ∧
      (level ∈ (book.applyDelta delta).asks.entries → level ∈ delta.askUpdates) := by
  unfold OrderBook.applyDelta
  rw [if_pos h]
  constructor
  · intro hmem
    rcases OrderBook.mem_applyLevels (OrderedMap.mem_of_mem_keepLast hmem) with hold | hnew
    · cases hold
    · exact hnew.1
  · intro hmem
    rcases OrderBook.mem_applyLevels (OrderedMap.mem_of_mem_keepFirst hmem) with hold | hnew
    · cases hold
    · exact hnew.1

/-- Some of the deltas has a bid at the price. -/
def TouchesBid (deltas : List OrderBookDelta) (price : Decimal) : Prop :=
  ∃ delta ∈ deltas, price ∈ delta.bidUpdates.map Prod.fst

/-- Some of the deltas has an ask at the price. -/
def TouchesAsk (deltas : List OrderBookDelta) (price : Decimal) : Prop :=
  ∃ delta ∈ deltas, price ∈ delta.askUpdates.map Prod.fst

/-- The deltas leave the levels of a book that they do not touch. -/
def KeepsUntouched (book : OrderBook) (deltas : List OrderBookDelta) : Prop :=
  (∀ level ∈ book.bids.entries, ¬ TouchesBid deltas level.1 →
      level ∈ (book.applyAll deltas).bids.entries) ∧
    ∀ level ∈ book.asks.entries, ¬ TouchesAsk deltas level.1 →
      level ∈ (book.applyAll deltas).asks.entries

/-- Snapshots leave no untouched level: they keep those there are only if there are none. -/
lemma keepsUntouched_iff {deltas : List OrderBookDelta}
    (h : ∀ delta ∈ deltas, delta.isSnapshot = true) (book : OrderBook) :
    KeepsUntouched book deltas ↔ deltas = [] ∨
      (∀ level ∈ book.bids.entries, TouchesBid deltas level.1) ∧
        ∀ level ∈ book.asks.entries, TouchesAsk deltas level.1 := by
  rcases List.eq_nil_or_concat deltas with rfl | ⟨front, last, rfl⟩
  · refine iff_of_true ⟨fun level hlevel _ => hlevel, fun level hlevel _ => hlevel⟩ (Or.inl rfl)
  rw [List.concat_eq_append] at h ⊢
  have hlast := mem_of_snapshot (book.applyAll front)
    (h last (List.mem_append_right _ (List.mem_singleton_self last)))
  have hfinal : book.applyAll (front ++ [last]) = (book.applyAll front).applyDelta last := by
    simp [OrderBook.applyAll]
  have hin : last ∈ front ++ [last] := List.mem_append_right _ (List.mem_singleton_self last)
  unfold KeepsUntouched
  rw [hfinal]
  constructor
  · rintro ⟨hbids, hasks⟩
    refine Or.inr ⟨fun level hlevel => ?_, fun level hlevel => ?_⟩
    · by_contra hnot
      have hmem := (hlast level).1 (hbids level hlevel hnot)
      exact hnot ⟨last, hin, List.mem_map_of_mem hmem⟩
    · by_contra hnot
      have hmem := (hlast level).2 (hasks level hlevel hnot)
      exact hnot ⟨last, hin, List.mem_map_of_mem hmem⟩
  · rintro (hnil | ⟨hbids, hasks⟩)
    · simp at hnil
    · exact ⟨fun level hlevel hnot => absurd (hbids level hlevel) hnot,
        fun level hlevel hnot => absurd (hasks level hlevel) hnot⟩

/-- A message keeps its kind exactly when its payload has no `e`, or one of another event.  After a
snapshot, updates keep the levels they do not touch exactly when there are no updates, or no such
levels. -/
theorem parseBinanceDepth_iff (fromStr : String → Option Json)
    (parseDecimal : String → Option Decimal) (decimalOfNumber : JsonNumber → Option Decimal) :
    (∀ raw v ts delta, fromStr raw = some v →
      parseBinanceDepth fromStr parseDecimal decimalOfNumber raw ts = some delta →
      (((delta.isSnapshot = true ↔ (payload v).get? "e" = none) ∧
          ((payload v).get? "e" = some (.string "depthUpdate") → delta.isSnapshot = false)) ↔
        (payload v).get? "e" = none ∨
          ∃ s, (payload v).get? "e" = some (.string s) ∧ s ≠ "depthUpdate")) ∧
    ∀ (book : OrderBook) (snapshot : OrderBookDelta) (updates : List OrderBookDelta),
      FromMessage fromStr parseDecimal decimalOfNumber none snapshot →
      (∀ update ∈ updates, FromMessage fromStr parseDecimal decimalOfNumber
        (some (.string "depthUpdate")) update) →
      (KeepsUntouched (book.applyDelta snapshot) updates ↔ updates = [] ∨
        (∀ level ∈ (book.applyDelta snapshot).bids.entries, TouchesBid updates level.1) ∧
          ∀ level ∈ (book.applyDelta snapshot).asks.entries, TouchesAsk updates level.1) := by
  refine ⟨?_, ?_⟩
  · intro raw v ts delta hv hparse
    rw [(parseBinanceDepth_spec hv hparse).1]
    exact snapshotFlag_right_iff (payload v)
  · intro book snapshot updates _ hupdates
    exact keepsUntouched_iff (fun update hmem => isSnapshot_of_depthUpdate (hupdates update hmem)) _

/-! ## One snapshot and one update -/

/-- A snapshot with a bid at 100. -/
def snapshotText : String :=
  "\x7b\"lastUpdateId\":160,\"b\":[[\"100\",\"1\"]],\"a\":[]\x7d"

/-- The next update, with a bid at 99. -/
def updateText : String :=
  "\x7b\"e\":\"depthUpdate\",\"u\":161,\"b\":[[\"99\",\"1\"]],\"a\":[]\x7d"

/-- The value of the update. -/
def updateValue : Json :=
  .object [("e", .string "depthUpdate"), ("u", .number (.posInt 161)),
    ("b", .array [.array [.string "99", .string "1"]]), ("a", .array [])]

/-- The values of the two texts. -/
def readText (raw : String) : Option Json :=
  if raw = snapshotText then
    some (.object [("lastUpdateId", .number (.posInt 160)),
      ("b", .array [.array [.string "100", .string "1"]]), ("a", .array [])])
  else if raw = updateText then some updateValue
  else none

/-- The decimals of the two texts. -/
def readDecimal (s : String) : Option Decimal :=
  if s = "100" then some 100 else if s = "99" then some 99 else if s = "1" then some 1 else none

/-- The delta of the snapshot. -/
def snapshotDelta : OrderBookDelta := ⟨[(100, 1)], [], true, 160, 0⟩

/-- The delta of the update, which is marked as a snapshot. -/
def updateDelta : OrderBookDelta := ⟨[(99, 1)], [], true, 161, 1⟩

lemma parse_snapshotText :
    parseBinanceDepth readText readDecimal (fun _ => none) snapshotText 0 = some snapshotDelta := by
  rfl

lemma parse_updateText :
    parseBinanceDepth readText readDecimal (fun _ => none) updateText 1 = some updateDelta := by
  rfl

/-- The message of the snapshot keeps its kind, and without updates its levels stay. -/
theorem parseBinanceDepth_iff_snapshotText :
    snapshotDelta.isSnapshot = true ∧
      KeepsUntouched (OrderBook.new.applyDelta snapshotDelta) [] := by
  obtain ⟨hmessage, hrun⟩ := parseBinanceDepth_iff readText readDecimal fun _ => none
  refine ⟨?_, ?_⟩
  · exact ((hmessage snapshotText _ 0 snapshotDelta rfl parse_snapshotText).mpr
      (Or.inl rfl)).1.mpr rfl
  · refine (hrun OrderBook.new snapshotDelta [] ?_ (by simp)).mpr (Or.inl rfl)
    exact ⟨snapshotText, _, 0, rfl, rfl, parse_snapshotText⟩

/-- The update is marked as a snapshot, and removes a level that it does not touch. -/
theorem depthUpdate_replaces_book :
    (readText updateText = some updateValue ∧
      (payload updateValue).get? "e" = some (.string "depthUpdate") ∧
      parseBinanceDepth readText readDecimal (fun _ => none) updateText 1 = some updateDelta ∧
      updateDelta.isSnapshot = true) ∧
    updateDelta.lastUpdateId = snapshotDelta.lastUpdateId + 1 ∧
    (OrderBook.new.applyDelta snapshotDelta).bids.entries = [(100, 1)] ∧
    ¬ TouchesBid [updateDelta] 100 ∧
    ((OrderBook.new.applyDelta snapshotDelta).applyAll [updateDelta]).bids.entries =
      [(99, 1)] := by
  refine ⟨⟨rfl, rfl, parse_updateText, rfl⟩, rfl, by decide +kernel, ?_, by decide +kernel⟩
  rintro ⟨delta, hdelta, hprice⟩
  rw [List.mem_singleton] at hdelta
  subst hdelta
  have hnot : (100 : Decimal) ∉ updateDelta.bidUpdates.map Prod.fst := by decide +kernel
  exact hnot hprice

end BinanceDepth

end HftArb
