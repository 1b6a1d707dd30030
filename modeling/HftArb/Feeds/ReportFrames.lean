import Mathlib.Logic.Relation
import HftArb.Feeds.ExecutionReports

/-!
# The frames of the order feed

The parsers of execution reports read a frame with a cursor.  Here they are written with it: every
read of a byte and every slice is checked, and one outside of the frame panics.  They compute what
the parsers on suffixes do (`scanFrom_eq`).

The arms of five keys look at the byte behind the colon without a check.  The cursor leaves the
frame exactly when it comes to such a key at the very end (`parsers_return_iff`).
-/

namespace HftArb

open TickerParser

namespace OrderFeed

/-! ## Checked reads -/

/-- A slice, nothing when it is not within the frame. -/
def getRange (payload : List UInt8) (a b : ℕ) : Option (List UInt8) :=
  if a ≤ b ∧ b ≤ payload.length then some ((payload.drop a).take (b - a)) else none

/-- A loop that moves the cursor over the bytes with a property. -/
def advanceWhile (p : UInt8 → Bool) (payload : List UInt8) (i : ℕ) : Option ℕ :=
  if i < payload.length then
    (payload[i]?).bind fun c => if p c then advanceWhile p payload (i + 1) else some i
  else some i
termination_by payload.length - i

/-! ## The arms -/

/-- The arm of the event. -/
def eventAt (payload : List UInt8) (i : ℕ) (f : Fields) : Option (ℕ × Fields) :=
  if getRange payload i (i + quotedReport.length) = some quotedReport then
    some (quotedReport.length, { f with isExecutionReport := true })
  else some (0, f)

/-- The arm of the trade id. -/
def tradeIdAt (payload : List UInt8) (i : ℕ) (f : Fields) : Option (ℕ × Fields) := do
  let j ← advanceWhile isDigit payload i
  let digits ← (if i < j then getRange payload i j else some [])
  return (j - i, { f with tradeIdStr := digits, tokenId := (parseU16 digits).getD f.tokenId })

/-- The cursor behind an opening quote. -/
def behindQuote (c : UInt8) (i : ℕ) : ℕ := if c = quote then i + 1 else i

/-- The bytes with a property behind an optional quote, and how far they move the cursor. -/
def bytesAt (p : UInt8 → Bool) (payload : List UInt8) (i : ℕ) : Option (ℕ × List UInt8) := do
  let c ← payload[i]?
  let start := behindQuote c i
  let j ← advanceWhile p payload start
  let text ← getRange payload start j
  return (j - i, text)

/-- The bytes of a decimal. -/
def decimalAt (payload : List UInt8) (i : ℕ) : Option (ℕ × List UInt8) :=
  bytesAt (fun c => isDigit c || c == dot) payload i

/-- The bytes up to the next quote. -/
def textAt (payload : List UInt8) (i : ℕ) : Option (ℕ × List UInt8) :=
  bytesAt (fun c => c != quote) payload i

/-- The arms that skip a string. -/
def skipStringAt (payload : List UInt8) (i : ℕ) : Option ℕ := do
  let c ← payload[i]?
  if c = quote then do
    let j ← advanceWhile (fun c => c != quote) payload (i + 1)
    return j - i
  else return 0

section Arms

variable (fromStr : List UInt8 → Option ℚ)

/-- The arms of the first parser. -/
def fieldAt (payload : List UInt8) (key : UInt8) (i : ℕ) (f : Fields) : Option (ℕ × Fields) :=
  if key = keyE then eventAt payload i f
  else if key = keyT then tradeIdAt payload i f
  else if key = keyBalance then
    (decimalAt payload i).map fun read => (read.1,
      { f with
        balance := if read.2 = [] then f.balance else (fromStr read.2).getD f.balance })
  else if key = keySymbol ∨ key = keySide ∨ key = keyQty ∨ key = keyPrice then
    (skipStringAt payload i).map fun moved => (moved, f)
  else some (0, f)

/-- The arms of the full parser. -/
def fullFieldAt (payload : List UInt8) (key : UInt8) (i : ℕ) (f : Fields) : Option (ℕ × Fields) :=
  if key = keyE then eventAt payload i f
  else if key = keyT then tradeIdAt payload i f
  else if key = keyBalance ∨ key = keyQty ∨ key = keyPrice then
    (decimalAt payload i).map fun read => (read.1,
      if key = keyBalance then { f with balance := (fromStr read.2).getD f.balance }
      else if key = keyQty then { f with filledQty := (fromStr read.2).getD f.filledQty }
      else { f with fillPrice := (fromStr read.2).getD f.fillPrice })
  else if key = keySymbol ∨ key = keySide then
    (textAt payload i).map fun read => (read.1,
      if key = keySymbol then { f with symbol := textOr read.2 f.symbol }
      else { f with side := textOr read.2 f.side })
  else some (0, f)

/-- The loop of the parsers, from a position on. -/
def scanFrom (arm : UInt8 → ℕ → Fields → Option (ℕ × Fields)) (payload : List UInt8) (i : ℕ)
    (f : Fields) : Option Fields :=
  if i < payload.length then do
    let c ← payload[i]?
    if c = quote ∧ i + 2 < payload.length then do
      let key ← payload[i + 1]?
      let b ← payload[i + 2]?
      if b = quote ∧ payload[i + 3]? = some colon then do
        let moved ← arm key (i + 4) f
        scanFrom arm payload (i + 4 + moved.1 + 1) moved.2
      else scanFrom arm payload (i + 1) f
    else scanFrom arm payload (i + 1) f
  else some f
termination_by payload.length - i

/-- `parse_execution_report_bytes` with its cursor. -/
def parseExecutionReportBytesIndexed (payload : List UInt8) : Option (Option ExecutionReport) :=
  (scanFrom (fieldAt fromStr payload) payload 0 Fields.init).map fun f =>
    if f.isExecutionReport = true ∧ f.tradeIdStr ≠ [] ∧ f.tradeIdStr ≠ [zeroByte] then
      some ⟨f.tokenId, f.tradeIdStr, f.balance, true⟩
    else none

/-- `parse_full_execution_report` with its cursor. -/
def parseFullExecutionReportIndexed (payload : List UInt8) :
    Option (Option FullExecutionReport) :=
  (scanFrom (fullFieldAt fromStr payload) payload 0 Fields.init).map fun f =>
    if f.isExecutionReport = true ∧ f.symbol ≠ [] then
      some ⟨f.tokenId, f.tradeIdStr, f.balance, f.symbol, f.side, f.filledQty, f.fillPrice⟩
    else none

end Arms

/-! ## The cursor and the suffix -/

section Suffix

variable {payload : List UInt8} {i : ℕ}

/-- The loop stops behind the longest run of bytes with the property. -/
lemma advanceWhile_eq (p : UInt8 → Bool) :
    advanceWhile p payload i = some (i + ((payload.drop i).takeWhile p).length) := by
  induction hn : payload.length - i generalizing i with
  | zero =>
    have hend : ¬ i < payload.length := by omega
    rw [advanceWhile, if_neg hend, List.drop_eq_nil_of_le (not_lt.mp hend)]
    rfl
  | succ n ih =>
    have hi : i < payload.length := by omega
    rw [advanceWhile, if_pos hi, List.getElem?_eq_getElem hi, Option.bind_some,
      List.drop_eq_getElem_cons hi, List.takeWhile_cons]
    by_cases hp : p payload[i] = true
    · rw [if_pos hp, if_pos hp, ih (by omega), List.length_cons, Nat.add_assoc, Nat.add_comm 1]
    · rw [if_neg hp, if_neg hp]
      rfl

lemma getRange_takeWhile (hi : i ≤ payload.length) (p : UInt8 → Bool) :
    getRange payload i (i + ((payload.drop i).takeWhile p).length) =
      some ((payload.drop i).takeWhile p) := by
  have hle := (List.takeWhile_prefix p (l := payload.drop i)).length_le
  rw [List.length_drop] at hle
  rw [getRange, if_pos (by omega), Nat.add_sub_cancel_left,
    ← List.prefix_iff_eq_take.mp (List.takeWhile_prefix p)]

lemma eventAt_eq (f : Fields) : eventAt payload i f = some (readEvent (payload.drop i) f) := by
  have hrange : getRange payload i (i + quotedReport.length) = some quotedReport ↔
      quotedReport.isPrefixOf (payload.drop i) = true := by
    rw [List.isPrefixOf_iff_prefix, List.prefix_iff_eq_take, getRange, Nat.add_sub_cancel_left]
    constructor
    · intro h
      split at h
      · exact (Option.some.inj h).symm
      · cases h
    · intro h
      have hlength := congrArg List.length h
      rw [List.length_take, List.length_drop] at hlength
      have hpos : 0 < quotedReport.length := by decide
      rw [if_pos (by omega), ← h]
  unfold eventAt readEvent
  by_cases hprefix : quotedReport.isPrefixOf (payload.drop i) = true
  · rw [if_pos (hrange.mpr hprefix), if_pos hprefix]
  · rw [if_neg (mt hrange.mp hprefix), if_neg hprefix]

lemma tradeIdAt_eq (f : Fields) :
    tradeIdAt payload i f = some (readTradeId (payload.drop i) f) := by
  have hdigits : (if i < i + ((payload.drop i).takeWhile isDigit).length then
      getRange payload i (i + ((payload.drop i).takeWhile isDigit).length) else some []) =
      some ((payload.drop i).takeWhile isDigit) := by
    split_ifs with hlt
    · refine getRange_takeWhile ?_ _
      by_contra hi
      rw [List.drop_eq_nil_of_le (by omega)] at hlt
      exact lt_irrefl _ hlt
    · have hnil : ((payload.drop i).takeWhile isDigit).length = 0 := by omega
      rw [List.length_eq_zero_iff.mp hnil]
  rw [tradeIdAt, advanceWhile_eq, Option.bind_eq_bind, Option.bind_some, hdigits,
    Nat.add_sub_cancel_left]
  rfl

/-- The byte at the cursor decides whether a quote is skipped. -/
lemma behindQuote_eq {c : UInt8} {rest : List UInt8} (h : payload.drop i = c :: rest) :
    behindQuote c i = i + openingQuote (payload.drop i) := by
  rw [h]
  unfold behindQuote openingQuote
  by_cases hc : c = quote
  · simp [hc]
  · simp [hc]

lemma bytesAt_eq (p : UInt8 → Bool) :
    bytesAt p payload i =
      if payload.drop i = [] then none
      else some (openingQuote (payload.drop i) +
          (((payload.drop i).drop (openingQuote (payload.drop i))).takeWhile p).length,
        ((payload.drop i).drop (openingQuote (payload.drop i))).takeWhile p) := by
  unfold bytesAt
  rw [← List.head?_drop]
  cases hdrop : payload.drop i with
  | nil => rfl
  | cons c rest =>
    have hle : i + openingQuote (payload.drop i) ≤ payload.length := by
      have hlength := congrArg List.length hdrop
      rw [List.length_drop, List.length_cons] at hlength
      have hone : openingQuote (payload.drop i) ≤ 1 := by
        unfold openingQuote
        split_ifs <;> omega
      omega
    rw [if_neg (List.cons_ne_nil _ _), List.head?_cons, Option.bind_eq_bind, Option.bind_some]
    simp only [behindQuote_eq hdrop, advanceWhile_eq, getRange_takeWhile hle, Option.bind_eq_bind,
      Option.bind_some, Option.pure_def]
    rw [← List.drop_drop, hdrop, Nat.add_assoc, Nat.add_sub_cancel_left]

lemma skipStringAt_eq :
    skipStringAt payload i =
      if payload.drop i = [] then none else some (skipString (payload.drop i)) := by
  unfold skipStringAt skipString
  rw [← List.head?_drop]
  cases hdrop : payload.drop i with
  | nil => rfl
  | cons c rest =>
    rw [if_neg (List.cons_ne_nil _ _), List.head?_cons, Option.bind_eq_bind, Option.bind_some]
    by_cases hc : c = quote
    · have hrest : payload.drop (i + 1) = rest := by
        rw [← List.drop_drop, hdrop, List.drop_one, List.tail_cons]
      have htext : textBytes (c :: rest) = rest.takeWhile fun c => c != quote := by
        simp [textBytes, openingQuote, hc]
      rw [if_pos hc, if_pos (congrArg some hc), advanceWhile_eq, hrest, htext]
      simp only [Option.bind_eq_bind, Option.bind_some, Option.pure_def]
      congr 1
      omega
    · rw [if_neg hc, if_neg (fun h => hc (Option.some.inj h))]
      rfl

variable (fromStr : List UInt8 → Option ℚ)

/-- An arm of the first parser is its rule on the bytes behind the colon. -/
lemma fieldAt_eq (key : UInt8) (f : Fields) :
    fieldAt fromStr payload key i f = field fromStr key (payload.drop i) f := by
  unfold fieldAt field
  rw [eventAt_eq, tradeIdAt_eq, decimalAt, bytesAt_eq, skipStringAt_eq]
  by_cases hnil : payload.drop i = []
  · simp only [hnil, if_true, Option.map_none]
  · simp only [hnil, if_false, Option.map_some, decimalBytes]
    rfl

/-- An arm of the full parser is its rule on the bytes behind the colon. -/
lemma fullFieldAt_eq (key : UInt8) (f : Fields) :
    fullFieldAt fromStr payload key i f = fullField fromStr key (payload.drop i) f := by
  unfold fullFieldAt fullField
  rw [eventAt_eq, tradeIdAt_eq, decimalAt, textAt, bytesAt_eq, bytesAt_eq]
  by_cases hnil : payload.drop i = []
  · simp only [hnil, if_true, Option.map_none]
  · simp only [hnil, if_false, Option.map_some, decimalBytes, textBytes]

end Suffix

section Scan

variable {arm : UInt8 → ℕ → Fields → Option (ℕ × Fields)}
  {rule : UInt8 → List UInt8 → Fields → Option (ℕ × Fields)} {payload : List UInt8}

/-- Behind a key with its colon the arm moves the cursor. -/
lemma scanFrom_keyed {i : ℕ} {key : UInt8} {value : List UInt8}
    (hdrop : payload.drop i = quote :: key :: quote :: colon :: value) (f : Fields) :
    scanFrom arm payload i f = (arm key (i + 4) f).bind fun moved =>
      scanFrom arm payload (i + 4 + moved.1 + 1) moved.2 := by
  have hget : ∀ k, payload[i + k]? = (quote :: key :: quote :: colon :: value)[k]? := by
    intro k
    rw [← hdrop, List.getElem?_drop]
  have hlength := congrArg List.length hdrop
  simp only [List.length_drop, List.length_cons] at hlength
  have hi : i < payload.length := by omega
  have hi2 : i + 2 < payload.length := by omega
  have h0 : payload[i]? = some quote := hget 0
  have h1 : payload[i + 1]? = some key := hget 1
  have h2 : payload[i + 2]? = some quote := hget 2
  have h3 : payload[i + 3]? = some colon := hget 3
  rw [scanFrom, if_pos hi]
  simp only [h0, h1, h2, h3, hi2, and_self, if_true, Option.bind_eq_bind, Option.bind_some]

/-- Elsewhere the cursor moves by one byte. -/
lemma scanFrom_of_keyed_none {i : ℕ} (hi : i < payload.length)
    (hkeyed : ∀ key value, payload.drop i ≠ quote :: key :: quote :: colon :: value) (f : Fields) :
    scanFrom arm payload i f = scanFrom arm payload (i + 1) f := by
  rw [scanFrom, if_pos hi, List.getElem?_eq_getElem hi, Option.bind_eq_bind, Option.bind_some]
  split_ifs with hhead
  · obtain ⟨ha, hi2⟩ := hhead
    have hi1 : i + 1 < payload.length := by omega
    rw [List.getElem?_eq_getElem hi1, List.getElem?_eq_getElem hi2, Option.bind_eq_bind,
      Option.bind_some, Option.bind_some, if_neg]
    rintro ⟨hb, hcolon⟩
    obtain ⟨hi3, hc⟩ := List.getElem?_eq_some_iff.mp hcolon
    apply hkeyed payload[i + 1] (payload.drop (i + 4))
    rw [List.drop_eq_getElem_cons hi, List.drop_eq_getElem_cons hi1,
      List.drop_eq_getElem_cons hi2, List.drop_eq_getElem_cons hi3, ha, hb, hc]
  · rfl

/-- The loop with its cursor is the loop on the bytes from the cursor on. -/
lemma scanFrom_eq (harm : ∀ key i f, arm key i f = rule key (payload.drop i) f) (i : ℕ)
    (f : Fields) : scanFrom arm payload i f = scan rule (payload.drop i) f := by
  induction hn : payload.length - i using Nat.strong_induction_on generalizing i f with
  | _ n ih =>
    by_cases hi : i < payload.length
    · by_cases hkeyed : ∃ key value, payload.drop i = quote :: key :: quote :: colon :: value
      · obtain ⟨key, value, hdrop⟩ := hkeyed
        have hvalue : payload.drop (i + 4) = value := by
          rw [← List.drop_drop, hdrop]
          rfl
        rw [scanFrom_keyed hdrop, hdrop, scan_keyed, harm, hvalue]
        refine Option.bind_congr fun moved _ => ?_
        rw [ih _ (by omega) _ _ rfl, Nat.add_assoc, ← List.drop_drop, hvalue]
      · push Not at hkeyed
        have hnone : keyed (payload[i] :: payload.drop (i + 1)) = none := by
          rw [← List.drop_eq_getElem_cons hi]
          exact keyed_eq_none hkeyed
        rw [scanFrom_of_keyed_none hi hkeyed, ih _ (by omega) _ _ rfl,
          List.drop_eq_getElem_cons hi, scan_of_keyed_none rule hnone]
    · rw [scanFrom, if_neg hi, List.drop_eq_nil_of_le (not_lt.mp hi), scan]

end Scan

section Parsers

variable (fromStr : List UInt8 → Option ℚ) (payload : List UInt8)

/-- The parsers with their cursors compute what the parsers on suffixes do. -/
lemma parsers_indexed :
    parseExecutionReportBytesIndexed fromStr payload = parseExecutionReportBytes fromStr payload ∧
      parseFullExecutionReportIndexed fromStr payload =
        parseFullExecutionReport fromStr payload := by
  constructor
  · rw [parseExecutionReportBytesIndexed, parseExecutionReportBytes,
      scanFrom_eq fun key i f => fieldAt_eq fromStr key f, List.drop_zero]
  · rw [parseFullExecutionReportIndexed, parseFullExecutionReport,
      scanFrom_eq fun key i f => fullFieldAt_eq fromStr key f, List.drop_zero]

end Parsers

/-! ## The way of the cursor -/

/-- The keys whose arms look at the byte behind the colon. -/
def LooksAhead (key : UInt8) : Prop :=
  key = keyBalance ∨ key = keySymbol ∨ key = keySide ∨ key = keyQty ∨ key = keyPrice

/-- How far the arm of the event moves the cursor. -/
def eventConsumed (value : List UInt8) : ℕ :=
  if quotedReport.isPrefixOf value then quotedReport.length else 0

/-- How far an arm of the first parser moves the cursor. -/
def consumed (key : UInt8) (value : List UInt8) : ℕ :=
  if key = keyE then eventConsumed value
  else if key = keyT then (value.takeWhile isDigit).length
  else if key = keyBalance then openingQuote value + (decimalBytes value).length
  else if key = keySymbol ∨ key = keySide ∨ key = keyQty ∨ key = keyPrice then skipString value
  else 0

/-- How far an arm of the full parser moves the cursor. -/
def fullConsumed (key : UInt8) (value : List UInt8) : ℕ :=
  if key = keyE then eventConsumed value
  else if key = keyT then (value.takeWhile isDigit).length
  else if key = keyBalance ∨ key = keyQty ∨ key = keyPrice then
    openingQuote value + (decimalBytes value).length
  else if key = keySymbol ∨ key = keySide then openingQuote value + (textBytes value).length
  else 0

/-- One round of the loop: over a byte, or over a key with its colon, what its arm reads, and one
byte more. -/
inductive CursorStep (consumed : UInt8 → List UInt8 → ℕ) : List UInt8 → List UInt8 → Prop
  | byte {c : UInt8} {rest : List UInt8}
      (h : ∀ key value, c :: rest ≠ quote :: key :: quote :: colon :: value) :
      CursorStep consumed (c :: rest) rest
  | member (key : UInt8) (value : List UInt8) :
      CursorStep consumed (quote :: key :: quote :: colon :: value)
        (value.drop (consumed key value + 1))

/-- The cursor comes to a key at the very end whose arm looks at the byte behind its colon. -/
def ComesToBareKey (consumed : UInt8 → List UInt8 → ℕ) (bytes : List UInt8) : Prop :=
  ∃ key, LooksAhead key ∧
    Relation.ReflTransGen (CursorStep consumed) bytes [quote, key, quote, colon]

section Cursor

variable {consumed : UInt8 → List UInt8 → ℕ} {bytes rest rest' : List UInt8}

lemma CursorStep.unique (h : CursorStep consumed bytes rest)
    (h' : CursorStep consumed bytes rest') : rest = rest' := by
  cases h with
  | byte hbyte =>
    cases h' with
    | byte => rfl
    | member key value => exact absurd rfl (hbyte key value)
  | member key value =>
    cases h' with
    | byte hbyte => exact absurd rfl (hbyte key value)
    | member => rfl

/-- A round passes on whether the cursor comes to a bare key. -/
lemma comesToBareKey_iff_of_step (h : CursorStep consumed bytes rest)
    (hbare : ∀ key, LooksAhead key → bytes ≠ [quote, key, quote, colon]) :
    ComesToBareKey consumed bytes ↔ ComesToBareKey consumed rest := by
  refine exists_congr fun key => and_congr_right fun hkey => ?_
  rw [Relation.ReflTransGen.cases_head_iff]
  constructor
  · rintro (heq | ⟨next, hnext, hrest⟩)
    · exact absurd heq (hbare key hkey)
    · rwa [h.unique hnext]
  · intro hrest
    exact Or.inr ⟨rest, h, hrest⟩

lemma not_comesToBareKey_nil : ¬ ComesToBareKey consumed [] := by
  rintro ⟨key, -, hway⟩
  rcases Relation.ReflTransGen.cases_head_iff.mp hway with heq | ⟨next, hnext, -⟩
  · cases heq
  · cases hnext

/-- The rules move the cursor as `consumed` says, and have no result exactly for a bare key. -/
structure Moves (rule : UInt8 → List UInt8 → Fields → Option (ℕ × Fields))
    (consumed : UInt8 → List UInt8 → ℕ) : Prop where
  none_iff : ∀ key value f, rule key value f = none ↔ LooksAhead key ∧ value = []
  moved_eq : ∀ key value f moved f', rule key value f = some (moved, f') →
    moved = consumed key value

/-- The loop panics exactly when the cursor comes to a bare key. -/
lemma scan_eq_none_iff {rule : UInt8 → List UInt8 → Fields → Option (ℕ × Fields)}
    (hrule : Moves rule consumed) (bytes : List UInt8) (f : Fields) :
    scan rule bytes f = none ↔ ComesToBareKey consumed bytes := by
  induction hn : bytes.length using Nat.strong_induction_on generalizing bytes f with
  | _ n ih =>
    cases bytes with
    | nil =>
      rw [scan]
      exact iff_of_false (Option.some_ne_none _) not_comesToBareKey_nil
    | cons c rest =>
      by_cases hkeyed : ∃ key value, c :: rest = quote :: key :: quote :: colon :: value
      · obtain ⟨key, value, heq⟩ := hkeyed
        rw [heq] at hn ⊢
        rw [scan_keyed]
        cases hmoved : rule key value f with
        | none =>
          obtain ⟨hkey, rfl⟩ := (hrule.none_iff key value f).mp hmoved
          exact iff_of_true rfl ⟨key, hkey, .refl⟩
        | some moved =>
          have hbare : ∀ key', LooksAhead key' →
              quote :: key :: quote :: colon :: value ≠ [quote, key', quote, colon] := by
            intro key' hkey' hbare
            simp only [List.cons.injEq, true_and] at hbare
            obtain ⟨rfl, rfl⟩ := hbare
            rw [(hrule.none_iff key [] f).mpr ⟨hkey', rfl⟩] at hmoved
            cases hmoved
          rw [comesToBareKey_iff_of_step (CursorStep.member key value) hbare,
            ← hrule.moved_eq key value f moved.1 moved.2 hmoved, Option.bind_some]
          refine ih _ ?_ _ _ rfl
          rw [← hn, List.length_drop]
          simp only [List.length_cons]
          omega
      · push Not at hkeyed
        rw [scan_of_keyed_none rule (keyed_eq_none hkeyed), comesToBareKey_iff_of_step
          (CursorStep.byte hkeyed) fun key _ => hkeyed key []]
        exact ih _ (by rw [← hn]; simp) _ _ rfl

end Cursor

/-! ## Frames -/

section Frames

variable (fromStr : List UInt8 → Option ℚ)

lemma fst_readEvent (value : List UInt8) (f : Fields) :
    (readEvent value f).1 = eventConsumed value := by
  unfold readEvent eventConsumed
  split_ifs <;> rfl

lemma not_looksAhead_keyE : ¬ LooksAhead keyE := by
  unfold LooksAhead
  decide

lemma not_looksAhead_keyT : ¬ LooksAhead keyT := by
  unfold LooksAhead
  decide

lemma field_moves : Moves (field fromStr) consumed where
  none_iff key value f := by
    unfold field LooksAhead
    split_ifs with he ht hbalance hvalue hskip hvalue
    · exact iff_of_false nofun fun h => not_looksAhead_keyE (he ▸ h.1)
    · exact iff_of_false nofun fun h => not_looksAhead_keyT (ht ▸ h.1)
    · exact iff_of_true rfl ⟨Or.inl hbalance, hvalue⟩
    · exact iff_of_false nofun fun h => hvalue h.2
    · exact iff_of_true rfl ⟨Or.inr hskip, hvalue⟩
    · exact iff_of_false nofun fun h => hvalue h.2
    · exact iff_of_false nofun fun h => h.1.elim hbalance hskip
  moved_eq key value f moved f' h := by
    unfold field at h
    unfold consumed
    split_ifs at h ⊢ <;> have hmoved := congrArg Prod.fst (Option.some.inj h)
    · exact hmoved.symm.trans (fst_readEvent value f)
    all_goals exact hmoved.symm

lemma fullField_moves : Moves (fullField fromStr) fullConsumed where
  none_iff key value f := by
    unfold fullField LooksAhead
    split_ifs with he ht hdecimal hvalue htext hvalue
    · exact iff_of_false nofun fun h => not_looksAhead_keyE (he ▸ h.1)
    · exact iff_of_false nofun fun h => not_looksAhead_keyT (ht ▸ h.1)
    · refine iff_of_true rfl ⟨?_, hvalue⟩
      rcases hdecimal with h | h | h <;> simp [h]
    · exact iff_of_false nofun fun h => hvalue h.2
    · refine iff_of_true rfl ⟨?_, hvalue⟩
      rcases htext with h | h <;> simp [h]
    · exact iff_of_false nofun fun h => hvalue h.2
    · refine iff_of_false nofun fun h => ?_
      rcases h.1 with h | h | h | h | h <;> simp [h] at hdecimal htext
  moved_eq key value f moved f' h := by
    unfold fullField at h
    unfold fullConsumed
    split_ifs at h ⊢ <;> have hmoved := congrArg Prod.fst (Option.some.inj h)
    · exact hmoved.symm.trans (fst_readEvent value f)
    all_goals exact hmoved.symm

/-- The parsers panic exactly when their cursors come to a bare key. -/
lemma parsers_eq_none_iff (payload : List UInt8) :
    (parseExecutionReportBytesIndexed fromStr payload = none ↔ ComesToBareKey consumed payload) ∧
      (parseFullExecutionReportIndexed fromStr payload = none ↔
        ComesToBareKey fullConsumed payload) := by
  rw [(parsers_indexed fromStr payload).1, (parsers_indexed fromStr payload).2,
    parseExecutionReportBytes, parseFullExecutionReport, Option.map_eq_none_iff,
    Option.map_eq_none_iff]
  exact ⟨scan_eq_none_iff (field_moves fromStr) payload _,
    scan_eq_none_iff (fullField_moves fromStr) payload _⟩

/-- The parsers read a frame to its end, with every index within the frame, exactly when their
cursors do not come to a bare key at the end. -/
theorem parsers_return_iff (payload : List UInt8) :
    (parseExecutionReportBytesIndexed fromStr payload ≠ none ↔
        ¬ ComesToBareKey consumed payload) ∧
      (parseFullExecutionReportIndexed fromStr payload ≠ none ↔
        ¬ ComesToBareKey fullConsumed payload) := by
  obtain ⟨hfirst, hfull⟩ := parsers_eq_none_iff fromStr payload
  exact ⟨not_congr hfirst, not_congr hfull⟩

/-- The key of the balance alone. -/
theorem bare_balance_key :
    parseExecutionReportBytesIndexed (fun _ => none) [quote, keyBalance, quote, colon] = none ∧
      parseFullExecutionReportIndexed (fun _ => none) [quote, keyBalance, quote, colon] =
        none := by
  obtain ⟨hfirst, hfull⟩ :=
    parsers_eq_none_iff (fun _ => none) [quote, keyBalance, quote, colon]
  exact ⟨hfirst.mpr ⟨keyBalance, Or.inl rfl, .refl⟩, hfull.mpr ⟨keyBalance, Or.inl rfl, .refl⟩⟩

end Frames

end OrderFeed

end HftArb
