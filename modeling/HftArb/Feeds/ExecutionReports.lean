import Mathlib.Data.List.TakeWhile
import HftArb.Feeds.TickerParser
import HftArb.Foundations.TextSearch
import HftArb.Foundations.Utf8

/-!
# The parsers of execution reports

`parseExecutionReportBytes` and `parseFullExecutionReport` scan the bytes of a message for one-byte
keys with their colons.  The position is the list of the bytes still to read; each key has its own
rule for how far it moves the position, and the loop moves it one byte further.

On a compact flat object whose strings have no quotes, backslashes and colons, a one-byte key with
its colon is found exactly at the members with such keys, and the scan stays in step with the
members whatever order they come in: `scan_members`.  Only the full parser gets out of step, at a
symbol or a side that is not a string: it reads up to the next quote, which is the one of the next
key, and loses this member.  `scan_side` says so for the side.

`Decimal::from_str` is a parameter.
-/

namespace HftArb

open Numerals TickerParser

namespace OrderFeed

/-! ## The parsers -/

/-- The key of the event. -/
def keyE : UInt8 := 101

/-- The key of the balance. -/
def keyBalance : UInt8 := 66

/-- The key of the symbol. -/
def keySymbol : UInt8 := 115

/-- The key of the side. -/
def keySide : UInt8 := 83

/-- The key of the filled quantity. -/
def keyQty : UInt8 := 108

/-- The key of the fill price. -/
def keyPrice : UInt8 := 76

/-- The digit zero. -/
def zeroByte : UInt8 := 48

/-- `executionReport`. -/
def executionReport : List UInt8 :=
  [101, 120, 101, 99, 117, 116, 105, 111, 110, 82, 101, 112, 111, 114, 116]

/-- `executionReport` in quotes. -/
def quotedReport : List UInt8 := quote :: (executionReport ++ [quote])

/-- The locals of the parsers.  The first parser has no use for the last four. -/
structure Fields where
  tokenId : UInt16
  tradeIdStr : List UInt8
  balance : ℚ
  isExecutionReport : Bool
  symbol : List UInt8
  side : List UInt8
  filledQty : ℚ
  fillPrice : ℚ

/-- The locals at the start. -/
def Fields.init : Fields := ⟨0, [], 0, false, [], [], 0, 0⟩

/-- A one-byte key in quotes with its colon at the position, and the bytes behind it. -/
def keyed : List UInt8 → Option (UInt8 × List UInt8)
  | a :: key :: b :: c :: value =>
    if a = quote ∧ b = quote ∧ c = colon then some (key, value) else none
  | _ => none

lemma length_keyed {bytes value : List UInt8} {key : UInt8} (h : keyed bytes = some (key, value)) :
    value.length < bytes.length := by
  unfold keyed at h
  split at h
  · split at h
    · obtain ⟨-, rfl⟩ := Prod.mk.inj (Option.some.inj h)
      simp only [List.length_cons]
      omega
    · cases h
  · cases h

/-- The loop of the parsers.  A key moves the position by the number of bytes its rule says and one
more.  There is no result when a rule reads behind the payload, which panics. -/
def scan (field : UInt8 → List UInt8 → Fields → Option (ℕ × Fields)) (bytes : List UInt8)
    (f : Fields) : Option Fields :=
  match bytes with
  | [] => some f
  | c :: rest =>
    match _h : keyed (c :: rest) with
    | none => scan field rest f
    | some (key, value) =>
      match field key value f with
      | none => none
      | some (moved, f) => scan field (value.drop (moved + 1)) f
termination_by bytes.length
decreasing_by
  · simp
  · have hvalue := length_keyed _h
    rw [List.length_drop]
    omega

/-- The rule of the event. -/
def readEvent (value : List UInt8) (f : Fields) : ℕ × Fields :=
  if quotedReport.isPrefixOf value then (quotedReport.length, { f with isExecutionReport := true })
  else (0, f)

/-- `str::parse::<u16>` on digits. -/
def parseU16 (digits : List UInt8) : Option UInt16 :=
  if digits = [] then none
  else (readDigits 16 0 (digits.map digitValue)).map UInt16.ofNat

/-- The rule of the trade id. -/
def readTradeId (value : List UInt8) (f : Fields) : ℕ × Fields :=
  let digits := value.takeWhile isDigit
  (digits.length,
    { f with tradeIdStr := digits, tokenId := (parseU16 digits).getD f.tokenId })

/-- The number of bytes of an optional opening quote. -/
def openingQuote (value : List UInt8) : ℕ := if value.head? = some quote then 1 else 0

/-- The bytes of a decimal behind an optional quote. -/
def decimalBytes (value : List UInt8) : List UInt8 :=
  (value.drop (openingQuote value)).takeWhile fun c => isDigit c || c == dot

/-- The bytes up to the next quote, behind an optional quote. -/
def textBytes (value : List UInt8) : List UInt8 :=
  (value.drop (openingQuote value)).takeWhile fun c => c != quote

/-- `str::from_utf8`, with what is kept when the bytes are no text. -/
def textOr (bytes old : List UInt8) : List UInt8 := if Utf8.Valid bytes then bytes else old

section Rules

variable (fromStr : List UInt8 → Option ℚ)

/-- The rule of a string that is skipped. -/
def skipString (value : List UInt8) : ℕ :=
  if value.head? = some quote then (textBytes value).length + 1 else 0

/-- The rules of the first parser.  A rule that looks at the byte at the position panics when there
is none. -/
def field (key : UInt8) (value : List UInt8) (f : Fields) : Option (ℕ × Fields) :=
  if key = keyE then some (readEvent value f)
  else if key = keyT then some (readTradeId value f)
  else if key = keyBalance then
    if value = [] then none
    else
      some (openingQuote value + (decimalBytes value).length,
        { f with
          balance :=
            if decimalBytes value = [] then f.balance
            else (fromStr (decimalBytes value)).getD f.balance })
  else if key = keySymbol ∨ key = keySide ∨ key = keyQty ∨ key = keyPrice then
    if value = [] then none else some (skipString value, f)
  else some (0, f)

/-- The rules of the full parser. -/
def fullField (key : UInt8) (value : List UInt8) (f : Fields) : Option (ℕ × Fields) :=
  if key = keyE then some (readEvent value f)
  else if key = keyT then some (readTradeId value f)
  else if key = keyBalance ∨ key = keyQty ∨ key = keyPrice then
    if value = [] then none
    else
      some (openingQuote value + (decimalBytes value).length,
        if key = keyBalance then
          { f with balance := (fromStr (decimalBytes value)).getD f.balance }
        else if key = keyQty then
          { f with filledQty := (fromStr (decimalBytes value)).getD f.filledQty }
        else { f with fillPrice := (fromStr (decimalBytes value)).getD f.fillPrice })
  else if key = keySymbol ∨ key = keySide then
    if value = [] then none
    else
      some (openingQuote value + (textBytes value).length,
        if key = keySymbol then { f with symbol := textOr (textBytes value) f.symbol }
        else { f with side := textOr (textBytes value) f.side })
  else some (0, f)

/-- A parsed report. -/
structure ExecutionReport where
  tokenId : UInt16
  tradeIdStr : List UInt8
  balance : ℚ
  isExecutionReport : Bool

/-- A parsed report with all fields. -/
structure FullExecutionReport where
  tokenId : UInt16
  tradeIdStr : List UInt8
  balance : ℚ
  symbol : List UInt8
  side : List UInt8
  filledQty : ℚ
  fillPrice : ℚ

/-- The first parser.  There is no result when it panics. -/
def parseExecutionReportBytes (payload : List UInt8) : Option (Option ExecutionReport) :=
  (scan (field fromStr) payload Fields.init).map fun f =>
    if f.isExecutionReport = true ∧ f.tradeIdStr ≠ [] ∧ f.tradeIdStr ≠ [zeroByte] then
      some ⟨f.tokenId, f.tradeIdStr, f.balance, true⟩
    else none

/-- The full parser. -/
def parseFullExecutionReport (payload : List UInt8) : Option (Option FullExecutionReport) :=
  (scan (fullField fromStr) payload Fields.init).map fun f =>
    if f.isExecutionReport = true ∧ f.symbol ≠ [] then
      some ⟨f.tokenId, f.tradeIdStr, f.balance, f.symbol, f.side, f.filledQty, f.fillPrice⟩
    else none

end Rules

/-! ## Messages -/

/-- A string without quotes, backslashes and colons. -/
structure PlainString where
  bytes : List UInt8
  plain : ∀ c ∈ bytes, c ≠ quote ∧ c ≠ 92 ∧ c ≠ colon
  valid : Utf8.Valid bytes

/-- An exponent: its letter, its sign and its digits. -/
structure Exponent where
  mark : UInt8
  sign : List UInt8
  digits : List (Fin 10)
  mark_eq : mark = 101 ∨ mark = 69
  sign_eq : sign = [] ∨ sign = [43] ∨ sign = [45]
  digits_ne : digits ≠ []

/-- A number as JSON writes it. -/
structure NumberLiteral where
  negative : Bool
  integer : List (Fin 10)
  fraction : List (Fin 10)
  exponent : Option Exponent
  integer_ne : integer ≠ []
  /-- Only zero itself begins with a zero. -/
  leading : ∀ ds, integer = 0 :: ds → ds = []

/-- The literals that are neither strings nor numbers. -/
inductive Literal where
  | true
  | false
  | null

/-- A value of a flat object. -/
inductive Value where
  | string (s : PlainString)
  | number (n : NumberLiteral)
  | literal (l : Literal)

/-- A member of a flat object. -/
structure Member where
  key : PlainString
  value : Value

/-- An exponent as it is written. -/
def Exponent.render (e : Exponent) : List UInt8 := e.mark :: (e.sign ++ e.digits.map digitByte)

/-- What follows the integer part of a number. -/
def NumberLiteral.suffix (n : NumberLiteral) : List UInt8 :=
  (if n.fraction = [] then [] else dot :: n.fraction.map digitByte) ++
    (n.exponent.map Exponent.render).getD []

/-- A number as it is written. -/
def NumberLiteral.render (n : NumberLiteral) : List UInt8 :=
  (if n.negative then [45] else []) ++ (n.integer.map digitByte ++ n.suffix)

/-- A literal as it is written. -/
def Literal.render : Literal → List UInt8
  | .true => [116, 114, 117, 101]
  | .false => [102, 97, 108, 115, 101]
  | .null => [110, 117, 108, 108]

/-- A string as it is written. -/
def PlainString.render (s : PlainString) : List UInt8 := quote :: (s.bytes ++ [quote])

/-- A value as it is written. -/
def Value.render : Value → List UInt8
  | .string s => s.render
  | .number n => n.render
  | .literal l => l.render

/-- A value without the quotes of a string. -/
def Value.inner : Value → List UInt8
  | .string s => s.bytes
  | .number n => n.render
  | .literal l => l.render

/-- A member as it is written. -/
def Member.render (m : Member) : List UInt8 := m.key.render ++ colon :: m.value.render

/-- What follows a member of an object. -/
def renderTail : List Member → List UInt8
  | [] => [rbrace]
  | m :: ms => comma :: (m.render ++ renderTail ms)

/-- A flat object in compact form. -/
def renderObject (members : List Member) : List UInt8 :=
  lbrace :: ([comma].intercalate (members.map Member.render) ++ [rbrace])

/-- An object member by member. -/
lemma renderObject_cons (m : Member) (ms : List Member) :
    renderObject (m :: ms) = lbrace :: (m.render ++ renderTail ms) :=
  congrArg (lbrace :: ·) (TextSearch.intercalate_map_append renderTail rfl (fun _ _ => rfl) m ms)

/-! ## Where keys are found -/

/-- What follows a member starts with a comma or a brace. -/
lemma exists_renderTail_eq (ms : List Member) :
    ∃ c rest, renderTail ms = c :: rest ∧ (c = comma ∨ c = rbrace) := by
  cases ms with
  | nil => exact ⟨rbrace, [], rfl, Or.inr rfl⟩
  | cons m ms => exact ⟨comma, _, rfl, Or.inl rfl⟩

lemma PlainString.quote_not_mem (s : PlainString) : quote ∉ s.bytes :=
  fun hmem => (s.plain quote hmem).1 rfl

/-- A string does not begin with a colon, also when it is empty. -/
lemma PlainString.ne_colon (s : PlainString) (rest rest' : List UInt8) :
    s.bytes ++ quote :: rest ≠ colon :: rest' := by
  intro heq
  cases hbytes : s.bytes with
  | nil =>
    rw [hbytes] at heq
    exact absurd (List.cons.inj heq).1 (by decide)
  | cons b bytes =>
    rw [hbytes] at heq
    exact (s.plain b (by simp [hbytes])).2.2 (List.cons.inj heq).1

lemma quote_not_mem_digits (ds : List (Fin 10)) : quote ∉ ds.map digitByte := by
  intro hmem
  obtain ⟨d, -, hd⟩ := List.mem_map.mp hmem
  exact digitByte_ne_quote d hd

lemma Exponent.quote_not_mem (e : Exponent) : quote ∉ e.render := by
  rw [Exponent.render, List.mem_cons, List.mem_append]
  rintro (h | h | h)
  · rcases e.mark_eq with hmark | hmark <;> exact absurd (h.trans hmark) (by decide)
  · rcases e.sign_eq with hsign | hsign | hsign <;> rw [hsign] at h <;> exact absurd h (by decide)
  · exact quote_not_mem_digits e.digits h

lemma NumberLiteral.quote_not_mem (n : NumberLiteral) : quote ∉ n.render := by
  rw [NumberLiteral.render, NumberLiteral.suffix, List.mem_append, List.mem_append, List.mem_append]
  rintro (h | h | h | h)
  · split at h <;> exact absurd h (by decide)
  · exact quote_not_mem_digits n.integer h
  · split at h
    · exact absurd h List.not_mem_nil
    · rcases List.mem_cons.mp h with h | h
      · exact absurd h (by decide)
      · exact quote_not_mem_digits n.fraction h
  · cases hexponent : n.exponent with
    | none =>
      rw [hexponent] at h
      exact absurd h List.not_mem_nil
    | some e =>
      rw [hexponent] at h
      exact e.quote_not_mem h

/-- The value is a string. -/
def Value.IsString : Value → Prop
  | .string _ => True
  | _ => False

instance (v : Value) : Decidable v.IsString :=
  match v with
  | .string _ => .isTrue trivial
  | .number _ => .isFalse id
  | .literal _ => .isFalse id

/-- A value that is not a string is written without quotes, and it is written as it is. -/
lemma Value.quote_not_mem {v : Value} (h : ¬ v.IsString) :
    quote ∉ v.render ∧ v.inner = v.render := by
  cases v with
  | string s => exact absurd trivial h
  | number n => exact ⟨n.quote_not_mem, rfl⟩
  | literal l =>
    cases l <;> exact ⟨by decide, rfl⟩

/-- A value is not written without bytes. -/
lemma Value.render_ne_nil (v : Value) : v.render ≠ [] := by
  cases v with
  | string s => exact List.cons_ne_nil _ _
  | number n =>
    intro h
    rw [Value.render, NumberLiteral.render, List.append_eq_nil_iff, List.append_eq_nil_iff,
      List.map_eq_nil_iff] at h
    exact n.integer_ne h.2.1
  | literal l => cases l <;> exact List.cons_ne_nil _ _

/-- What it takes for a key to be found. -/
lemma keyed_eq_some_iff {bytes value : List UInt8} {key : UInt8} :
    keyed bytes = some (key, value) ↔ bytes = quote :: key :: quote :: colon :: value := by
  constructor
  · intro h
    unfold keyed at h
    split at h
    · split at h
      · next hquotes =>
        obtain ⟨rfl, rfl⟩ := Prod.mk.inj (Option.some.inj h)
        obtain ⟨rfl, rfl, rfl⟩ := hquotes
        rfl
      · cases h
    · cases h
  · rintro rfl
    simp [keyed]

lemma keyed_eq_none {bytes : List UInt8}
    (h : ∀ key value, bytes ≠ quote :: key :: quote :: colon :: value) : keyed bytes = none := by
  cases hkeyed : keyed bytes with
  | none => rfl
  | some found => exact absurd (keyed_eq_some_iff.mp hkeyed) (h found.1 found.2)

/-- No key begins at the closing quote of a value. -/
lemma keyed_closing (ms : List Member) : keyed (quote :: renderTail ms) = none := by
  apply keyed_eq_none
  intro key value heq
  cases ms with
  | nil => simp [renderTail] at heq
  | cons m ms =>
    simp only [renderTail, Member.render, PlainString.render, List.cons_append, List.append_assoc,
      List.nil_append, List.cons.injEq, true_and] at heq
    exact m.key.ne_colon _ _ heq.2

/-- No key begins at the closing quote of a key. -/
lemma keyed_key_end (v : Value) (ms : List Member) :
    keyed (quote :: colon :: (v.render ++ renderTail ms)) = none := by
  apply keyed_eq_none
  intro key value heq
  have hvalue : v.render ++ renderTail ms = quote :: colon :: value := by
    simpa using (List.cons.inj (List.cons.inj heq).2).2
  cases v with
  | string s =>
    simp only [Value.render, PlainString.render, List.cons_append, List.append_assoc,
      List.cons.injEq, true_and] at hvalue
    exact s.ne_colon _ _ hvalue
  | number n =>
    obtain ⟨b, rest, hrender⟩ := List.exists_cons_of_ne_nil (Value.render_ne_nil (.number n))
    rw [hrender, List.cons_append] at hvalue
    exact (Value.quote_not_mem (v := .number n) id).1
      (by rw [hrender, (List.cons.inj hvalue).1]; exact List.mem_cons_self)
  | literal l => cases l <;> exact absurd (List.cons.inj hvalue).1 (by decide)

/-- No key begins at the opening quote of a string that is not a one-byte key. -/
lemma keyed_string (s : PlainString) {c : UInt8} (hc : c ≠ quote)
    (hshort : s.bytes.length = 1 → c ≠ colon) (rest : List UInt8) :
    keyed (quote :: (s.bytes ++ quote :: c :: rest)) = none := by
  apply keyed_eq_none
  intro key value heq
  rcases hbytes : s.bytes with _ | ⟨b, _ | ⟨b', bytes⟩⟩
  · rw [hbytes] at heq
    simp only [List.nil_append, List.cons.injEq] at heq
    exact hc heq.2.2.1
  · rw [hbytes] at heq
    simp only [List.cons_append, List.nil_append, List.cons.injEq] at heq
    exact hshort (by rw [hbytes]; rfl) heq.2.2.2.1
  · rw [hbytes] at heq
    simp only [List.cons_append, List.cons.injEq] at heq
    exact (s.plain b' (by simp [hbytes])).1 heq.2.2.1

/-! ## How the loop moves -/

section Scan

variable (field : UInt8 → List UInt8 → Fields → Option (ℕ × Fields))

lemma scan_of_keyed_none {c : UInt8} {rest : List UInt8} (h : keyed (c :: rest) = none)
    (f : Fields) : scan field (c :: rest) f = scan field rest f := by
  rw [scan]
  split
  · rfl
  · next hsome => exact absurd (h.symm.trans hsome) (by simp)

lemma scan_of_ne {c : UInt8} (hc : c ≠ quote) (rest : List UInt8) (f : Fields) :
    scan field (c :: rest) f = scan field rest f := by
  apply scan_of_keyed_none
  apply keyed_eq_none
  intro key value heq
  exact hc (List.cons.inj heq).1

/-- Bytes without quotes are skipped. -/
lemma scan_append {bytes : List UInt8} (h : quote ∉ bytes) (rest : List UInt8) (f : Fields) :
    scan field (bytes ++ rest) f = scan field rest f := by
  induction bytes with
  | nil => rfl
  | cons c bytes ih =>
    rw [List.mem_cons, not_or] at h
    rw [List.cons_append, scan_of_ne field (Ne.symm h.1), ih h.2]

lemma scan_keyed (key : UInt8) (value : List UInt8) (f : Fields) :
    scan field (quote :: key :: quote :: colon :: value) f =
      (field key value f).bind fun moved => scan field (value.drop (moved.1 + 1)) moved.2 := by
  rw [scan]
  split
  · next hnone => exact absurd (hnone.symm.trans (keyed_eq_some_iff.mpr rfl)) (by simp)
  · next hsome =>
    have hfound := (keyed_eq_some_iff.mpr rfl).symm.trans hsome
    obtain ⟨rfl, rfl⟩ := Prod.mk.inj (Option.some.inj hfound)
    split
    · next hfield => rw [hfield, Option.bind_none]
    · next hfield => rw [hfield, Option.bind_some]

lemma scan_tail_drop (ms : List Member) (f : Fields) :
    scan field ((renderTail ms).drop 1) f = scan field (renderTail ms) f := by
  obtain ⟨c, rest, htail, hc⟩ := exists_renderTail_eq ms
  have hne : c ≠ quote := by
    rcases hc with rfl | rfl <;> decide
  rw [htail, List.drop_one, List.tail_cons, scan_of_ne field hne]

/-- Wherever the position is moved to within a value or to its end, the loop gets to the next
member. -/
lemma scan_drop_value (v : Value) (ms : List Member) {n : ℕ} (hn : n ≤ v.render.length)
    (f : Fields) :
    scan field ((v.render ++ renderTail ms).drop (n + 1)) f = scan field (renderTail ms) f := by
  rcases hn.lt_or_eq with hlt | rfl
  · rw [List.drop_append_of_le_length hlt]
    by_cases hv : v.IsString
    · cases v with
      | string s =>
        simp only [Value.render, PlainString.render, List.length_cons, List.length_append,
          List.length_nil] at hlt
        rw [Value.render, PlainString.render, List.drop_succ_cons]
        rcases Nat.lt_or_ge s.bytes.length n with hgt | hle
        · have hall : (s.bytes ++ [quote]).drop n = [] := by
            rw [List.drop_eq_nil_iff, List.length_append, List.length_singleton]
            omega
          rw [hall, List.nil_append]
        · have hsub : quote ∉ s.bytes.drop n := fun h => s.quote_not_mem (List.mem_of_mem_drop h)
          rw [List.drop_append_of_le_length hle, List.append_assoc, scan_append field hsub,
            List.singleton_append, scan_of_keyed_none field (keyed_closing ms)]
      | number n => exact absurd hv id
      | literal l => exact absurd hv id
    · exact scan_append field (fun h => (v.quote_not_mem hv).1 (List.mem_of_mem_drop h)) _ f
  · rw [List.drop_append, Nat.add_sub_cancel_left, List.drop_eq_nil_of_le (Nat.le_succ _),
      List.nil_append, scan_tail_drop]

/-- A value is skipped. -/
lemma scan_value (v : Value) (ms : List Member) (f : Fields) :
    scan field (v.render ++ renderTail ms) f = scan field (renderTail ms) f := by
  by_cases hv : v.IsString
  · cases v with
    | string s =>
      obtain ⟨c, rest, htail, hc⟩ := exists_renderTail_eq ms
      have hquote : c ≠ quote := by
        rcases hc with rfl | rfl <;> decide
      have hcolon : c ≠ colon := by
        rcases hc with rfl | rfl <;> decide
      have hnone : keyed (quote :: (s.bytes ++ quote :: renderTail ms)) = none := by
        rw [htail]
        exact keyed_string s hquote (fun _ => hcolon) rest
      rw [Value.render, PlainString.render, List.cons_append, List.append_assoc,
        List.singleton_append, scan_of_keyed_none field hnone, scan_append field s.quote_not_mem,
        scan_of_keyed_none field (keyed_closing ms)]
    | number n => exact absurd hv id
    | literal l => exact absurd hv id
  · exact scan_append field (v.quote_not_mem hv).1 _ f

/-- A member is skipped when the position is behind the opening quote of its key. -/
lemma scan_lost (m : Member) (ms : List Member) (f : Fields) :
    scan field (m.key.bytes ++ quote :: colon :: (m.value.render ++ renderTail ms)) f =
      scan field (renderTail ms) f := by
  rw [scan_append field m.key.quote_not_mem, scan_of_keyed_none field (keyed_key_end m.value ms),
    scan_of_ne field (by decide), scan_value]

lemma Member.render_append (m : Member) (rest : List UInt8) :
    m.render ++ rest = quote :: (m.key.bytes ++ quote :: colon :: (m.value.render ++ rest)) := by
  simp [Member.render, PlainString.render]

/-- A member whose key is not one byte is skipped. -/
lemma scan_long_key {m : Member} (hm : m.key.bytes.length ≠ 1) (ms : List Member) (f : Fields) :
    scan field (m.render ++ renderTail ms) f = scan field (renderTail ms) f := by
  rw [m.render_append, scan_of_keyed_none field
    (keyed_string m.key (by decide) (fun h => absurd h hm) _), scan_lost]

/-- A member with a one-byte key whose rule stays within the value. -/
lemma scan_short_key {m : Member} {key : UInt8} (hm : m.key.bytes = [key]) {ms : List Member}
    {f f' : Fields} {n : ℕ} (hfield : field key (m.value.render ++ renderTail ms) f = some (n, f'))
    (hn : n ≤ m.value.render.length) :
    scan field (m.render ++ renderTail ms) f = scan field (renderTail ms) f' := by
  rw [m.render_append, hm, List.singleton_append, scan_keyed, hfield, Option.bind_some,
    scan_drop_value field m.value ms hn]

/-- The loop keeps in step with members that it reads one by one. -/
lemma scan_members {store : Fields → Member → Fields} {ms : List Member}
    (h : ∀ m ∈ ms, ∀ post f, scan field (m.render ++ renderTail post) f =
      scan field (renderTail post) (store f m)) (post : List Member) (f : Fields) :
    scan field (renderTail (ms ++ post)) f = scan field (renderTail post) (ms.foldl store f) := by
  induction ms generalizing f with
  | nil => rfl
  | cons m ms ih =>
    rw [List.cons_append, renderTail, scan_of_ne field (by decide), h m (by simp),
      ih (fun m' hm' => h m' (by simp [hm'])), List.foldl_cons]

lemma scan_tail_nil (f : Fields) : scan field (renderTail []) f = some f := by
  rw [renderTail, scan_of_ne field (by decide), scan]

/-- The loop reads the members to the end. -/
lemma scan_members_to_end {store : Fields → Member → Fields} {ms : List Member}
    (h : ∀ m ∈ ms, ∀ post f, scan field (m.render ++ renderTail post) f =
      scan field (renderTail post) (store f m)) (f : Fields) :
    scan field (renderTail ms) f = some (ms.foldl store f) := by
  have hmembers := scan_members field h [] f
  rw [List.append_nil, scan_tail_nil] at hmembers
  exact hmembers

lemma scan_renderObject (ms : List Member) (f : Fields) :
    scan field (renderObject ms) f = scan field (renderTail ms) f := by
  cases ms with
  | nil => exact scan_of_ne field (by decide) _ f
  | cons m ms =>
    rw [renderObject_cons, renderTail, scan_of_ne field (by decide), scan_of_ne field (by decide)]

end Scan

/-! ## What the rules read -/

/-- What is read in front of a byte that ends it. -/
lemma takeWhile_append_cons {p : UInt8 → Bool} {c : UInt8} (hc : p c = false)
    (bytes rest : List UInt8) : (bytes ++ c :: rest).takeWhile p = bytes.takeWhile p := by
  induction bytes with
  | nil => simp [hc]
  | cons b bytes ih => simp only [List.cons_append, List.takeWhile_cons, ih]

lemma length_takeWhile_le (p : UInt8 → Bool) (bytes : List UInt8) :
    (bytes.takeWhile p).length ≤ bytes.length :=
  (List.takeWhile_sublist p).length_le

/-- The bytes of a decimal that the rules read in a value. -/
def Value.decimal (v : Value) : List UInt8 := v.inner.takeWhile fun c => isDigit c || c == dot

section Reading

variable (v : Value) (ms : List Member)

/-- The opening quote of a value. -/
lemma openingQuote_render :
    openingQuote (v.render ++ renderTail ms) = if v.IsString then 1 else 0 := by
  unfold openingQuote
  by_cases hv : v.IsString
  · cases v with
    | string s => rfl
    | number n => exact absurd hv id
    | literal l => exact absurd hv id
  · obtain ⟨b, rest, hrender⟩ := List.exists_cons_of_ne_nil v.render_ne_nil
    have hb : b ≠ quote := by
      rintro rfl
      exact (v.quote_not_mem hv).1 (hrender ▸ List.mem_cons_self)
    rw [if_neg hv, hrender, List.cons_append, List.head?_cons, if_neg (by simpa using hb)]

/-- The value behind its opening quote. -/
lemma drop_openingQuote :
    ∃ c rest, (v.render ++ renderTail ms).drop (openingQuote (v.render ++ renderTail ms)) =
      v.inner ++ c :: rest ∧ (isDigit c || c == dot) = false ∧
      openingQuote (v.render ++ renderTail ms) + v.inner.length ≤ v.render.length := by
  rw [openingQuote_render]
  by_cases hv : v.IsString
  · cases v with
    | string s =>
      refine ⟨quote, renderTail ms, ?_, by decide, ?_⟩
      · simp [Value.render, PlainString.render, Value.inner, Value.IsString]
      · simp [Value.render, PlainString.render, Value.inner, Value.IsString]
        omega
    | number n => exact absurd hv id
    | literal l => exact absurd hv id
  · obtain ⟨c, rest, htail, hc⟩ := exists_renderTail_eq ms
    have hstop : (isDigit c || c == dot) = false := by
      rcases hc with rfl | rfl <;> decide
    refine ⟨c, rest, ?_, hstop, ?_⟩
    · rw [if_neg hv, List.drop_zero, (v.quote_not_mem hv).2, htail]
    · rw [if_neg hv, (v.quote_not_mem hv).2, Nat.zero_add]

/-- The decimal that is read in a value. -/
lemma decimalBytes_render :
    decimalBytes (v.render ++ renderTail ms) = v.decimal ∧
      openingQuote (v.render ++ renderTail ms) + v.decimal.length ≤ v.render.length := by
  obtain ⟨c, rest, hdrop, hstop, hle⟩ := drop_openingQuote v ms
  have hlength : v.decimal.length ≤ v.inner.length := length_takeWhile_le _ _
  refine ⟨?_, by omega⟩
  rw [decimalBytes, hdrop]
  exact takeWhile_append_cons hstop _ _

/-- The digits that are read in a value. -/
lemma takeWhile_isDigit_render :
    (v.render ++ renderTail ms).takeWhile isDigit = v.render.takeWhile isDigit := by
  obtain ⟨c, rest, htail, hc⟩ := exists_renderTail_eq ms
  have hstop : isDigit c = false := by
    rcases hc with rfl | rfl <;> decide
  rw [htail, takeWhile_append_cons hstop]

/-- The event is recognised when it is written as it should be. -/
lemma isPrefixOf_render :
    quotedReport.isPrefixOf (v.render ++ renderTail ms) = true ↔ v.render = quotedReport := by
  rw [List.isPrefixOf_iff_prefix]
  constructor
  · intro hprefix
    by_cases hv : v.IsString
    · cases v with
      | string s =>
        have hinner : executionReport ++ quote :: [] <+: s.bytes ++ quote :: renderTail ms := by
          simpa [quotedReport, Value.render, PlainString.render] using hprefix
        obtain ⟨hbytes, -⟩ := TextSearch.prefix_quoted (by decide) s.quote_not_mem hinner
        rw [Value.render, PlainString.render, ← hbytes]
        rfl
      | number n => exact absurd hv id
      | literal l => exact absurd hv id
    · obtain ⟨b, rest, hrender⟩ := List.exists_cons_of_ne_nil v.render_ne_nil
      rw [hrender, List.cons_append, quotedReport, List.cons_prefix_cons] at hprefix
      exact absurd (hrender ▸ hprefix.1 ▸ List.mem_cons_self) (v.quote_not_mem hv).1
  · intro hrender
    rw [hrender]
    exact List.prefix_append _ _

/-- The text of a string. -/
lemma textBytes_string (s : PlainString) :
    textBytes ((Value.string s).render ++ renderTail ms) = s.bytes := by
  have hopen : openingQuote ((Value.string s).render ++ renderTail ms) = 1 := rfl
  have hall : ∀ c ∈ s.bytes, (c != quote) = true := by
    intro c hc
    exact bne_iff_ne.mpr (s.plain c hc).1
  rw [textBytes, hopen, Value.render, PlainString.render, List.cons_append, List.drop_one,
    List.tail_cons, List.append_assoc, List.singleton_append,
    takeWhile_append_cons (by simp), List.takeWhile_eq_self_iff.mpr hall]

end Reading

/-! ## What the members leave -/

section Effects

variable (fromStr : List UInt8 → Option ℚ)

/-- The locals after the event. -/
def eventEffect (v : Value) (f : Fields) : Fields :=
  if v.render = quotedReport then { f with isExecutionReport := true } else f

/-- The locals after the trade id. -/
def tradeEffect (v : Value) (f : Fields) : Fields :=
  { f with
    tradeIdStr := v.render.takeWhile isDigit
    tokenId := (parseU16 (v.render.takeWhile isDigit)).getD f.tokenId }

/-- The locals of the first parser after a one-byte key. -/
def effect (key : UInt8) (v : Value) (f : Fields) : Fields :=
  if key = keyE then eventEffect v f
  else if key = keyT then tradeEffect v f
  else if key = keyBalance then
    { f with
      balance := if v.decimal = [] then f.balance else (fromStr v.decimal).getD f.balance }
  else f

/-- The locals of the full parser after a one-byte key. -/
def fullEffect (key : UInt8) (v : Value) (f : Fields) : Fields :=
  if key = keyE then eventEffect v f
  else if key = keyT then tradeEffect v f
  else if key = keyBalance then { f with balance := (fromStr v.decimal).getD f.balance }
  else if key = keyQty then { f with filledQty := (fromStr v.decimal).getD f.filledQty }
  else if key = keyPrice then { f with fillPrice := (fromStr v.decimal).getD f.fillPrice }
  else if key = keySymbol then { f with symbol := v.inner }
  else if key = keySide then { f with side := v.inner }
  else f

/-- The locals after a member whose one-byte key has an effect. -/
def storeBy (effect : UInt8 → Value → Fields → Fields) (f : Fields) (m : Member) : Fields :=
  match m.key.bytes with
  | [key] => effect key m.value f
  | _ => f

lemma storeBy_of_key {effect : UInt8 → Value → Fields → Fields} {m : Member} {key : UInt8}
    (hm : m.key.bytes = [key]) (f : Fields) : storeBy effect f m = effect key m.value f := by
  rw [storeBy, hm]

lemma storeBy_of_length {effect : UInt8 → Value → Fields → Fields} {m : Member}
    (hm : m.key.bytes.length ≠ 1) (f : Fields) : storeBy effect f m = f := by
  rw [storeBy]
  split
  · next heq => exact absurd (by rw [heq]; rfl) hm
  · rfl

/-- A loop keeps in step with a member when each rule for its key stays within its value. -/
lemma scan_storeBy {field : UInt8 → List UInt8 → Fields → Option (ℕ × Fields)}
    {effect : UInt8 → Value → Fields → Fields} {m : Member} {post : List Member} {f : Fields}
    (h : ∀ key, m.key.bytes = [key] → ∃ n ≤ m.value.render.length,
      field key (m.value.render ++ renderTail post) f = some (n, effect key m.value f)) :
    scan field (m.render ++ renderTail post) f =
      scan field (renderTail post) (storeBy effect f m) := by
  by_cases hm : m.key.bytes.length = 1
  · obtain ⟨key, hkey⟩ := List.length_eq_one_iff.mp hm
    obtain ⟨n, hn, hfield⟩ := h key hkey
    rw [scan_short_key field hkey hfield hn, storeBy_of_key hkey]
  · rw [scan_long_key field hm, storeBy_of_length hm]

variable (v : Value) (ms : List Member) (f : Fields)

lemma readEvent_render :
    ∃ n ≤ v.render.length, readEvent (v.render ++ renderTail ms) f = (n, eventEffect v f) := by
  unfold readEvent eventEffect
  by_cases hreport : v.render = quotedReport
  · refine ⟨quotedReport.length, by rw [hreport], ?_⟩
    rw [if_pos ((isPrefixOf_render v ms).mpr hreport), if_pos hreport]
  · refine ⟨0, Nat.zero_le _, ?_⟩
    rw [if_neg ((isPrefixOf_render v ms).not.mpr hreport), if_neg hreport]

lemma readTradeId_render :
    ∃ n ≤ v.render.length, readTradeId (v.render ++ renderTail ms) f = (n, tradeEffect v f) := by
  refine ⟨(v.render.takeWhile isDigit).length, length_takeWhile_le _ _, ?_⟩
  rw [readTradeId, takeWhile_isDigit_render]
  rfl

lemma render_append_ne_nil : v.render ++ renderTail ms ≠ [] := by
  simp [v.render_ne_nil]

/-- A skipped string. -/
lemma skipString_render : skipString (v.render ++ renderTail ms) ≤ v.render.length := by
  unfold skipString
  split
  · next hquote =>
    have hopen : openingQuote (v.render ++ renderTail ms) = 1 := if_pos hquote
    rw [openingQuote_render] at hopen
    cases v with
    | string s =>
      rw [textBytes_string, Value.render, PlainString.render, List.length_cons, List.length_append]
      omega
    | number n => exact absurd hopen (by simp [Value.IsString])
    | literal l => exact absurd hopen (by simp [Value.IsString])
  · exact Nat.zero_le _

/-- The rules of the first parser stay within a value. -/
lemma field_render (key : UInt8) :
    ∃ n ≤ v.render.length,
      field fromStr key (v.render ++ renderTail ms) f = some (n, effect fromStr key v f) := by
  have hne := render_append_ne_nil v ms
  unfold field effect
  by_cases hE : key = keyE
  · obtain ⟨n, hn, hread⟩ := readEvent_render v ms f
    exact ⟨n, hn, by rw [if_pos hE, if_pos hE, hread]⟩
  rw [if_neg hE, if_neg hE]
  by_cases hT : key = keyT
  · obtain ⟨n, hn, hread⟩ := readTradeId_render v ms f
    exact ⟨n, hn, by rw [if_pos hT, if_pos hT, hread]⟩
  rw [if_neg hT, if_neg hT]
  by_cases hB : key = keyBalance
  · obtain ⟨hdecimal, hle⟩ := decimalBytes_render v ms
    exact ⟨_, hle, by rw [if_pos hB, if_pos hB, if_neg hne, hdecimal]⟩
  rw [if_neg hB, if_neg hB]
  by_cases hskip : key = keySymbol ∨ key = keySide ∨ key = keyQty ∨ key = keyPrice
  · exact ⟨_, skipString_render v ms, by rw [if_pos hskip, if_neg hne]⟩
  · exact ⟨0, Nat.zero_le _, by rw [if_neg hskip]⟩

/-- The rules of the full parser stay within a value, a symbol and a side that are not strings
excepted. -/
lemma fullField_render (key : UInt8) (hstring : key = keySymbol ∨ key = keySide → v.IsString) :
    ∃ n ≤ v.render.length,
      fullField fromStr key (v.render ++ renderTail ms) f =
        some (n, fullEffect fromStr key v f) := by
  have hne := render_append_ne_nil v ms
  unfold fullField fullEffect
  by_cases hE : key = keyE
  · obtain ⟨n, hn, hread⟩ := readEvent_render v ms f
    exact ⟨n, hn, by rw [if_pos hE, if_pos hE, hread]⟩
  rw [if_neg hE, if_neg hE]
  by_cases hT : key = keyT
  · obtain ⟨n, hn, hread⟩ := readTradeId_render v ms f
    exact ⟨n, hn, by rw [if_pos hT, if_pos hT, hread]⟩
  rw [if_neg hT, if_neg hT]
  obtain ⟨hdecimal, hle⟩ := decimalBytes_render v ms
  by_cases hnumber : key = keyBalance ∨ key = keyQty ∨ key = keyPrice
  · refine ⟨_, hle, ?_⟩
    rw [if_pos hnumber, if_neg hne, hdecimal]
    rcases hnumber with rfl | rfl | rfl <;> rfl
  rw [if_neg hnumber]
  have hB : key ≠ keyBalance := fun h => hnumber (Or.inl h)
  have hQ : key ≠ keyQty := fun h => hnumber (Or.inr (Or.inl h))
  have hP : key ≠ keyPrice := fun h => hnumber (Or.inr (Or.inr h))
  rw [if_neg hB, if_neg hQ, if_neg hP]
  by_cases htext : key = keySymbol ∨ key = keySide
  · have hv := hstring htext
    cases v with
    | string s =>
      have hopen : openingQuote ((Value.string s).render ++ renderTail ms) = 1 := rfl
      have hvalid : ∀ old, textOr s.bytes old = s.bytes := fun old => if_pos s.valid
      refine ⟨1 + s.bytes.length, ?_, ?_⟩
      · rw [Value.render, PlainString.render, List.length_cons, List.length_append]
        omega
      · rw [if_pos htext, if_neg hne, hopen, textBytes_string]
        simp only [hvalid]
        rcases htext with rfl | rfl <;> rfl
    | number n => exact absurd hv id
    | literal l => exact absurd hv id
  · have hsymbol : key ≠ keySymbol := fun h => htext (Or.inl h)
    have hside : key ≠ keySide := fun h => htext (Or.inr h)
    exact ⟨0, Nat.zero_le _, by rw [if_neg htext, if_neg hsymbol, if_neg hside]⟩

end Effects

/-! ## A side that is not a string -/

lemma digitByte_lt : ∀ d, digitByte d < 128 := by decide

lemma ascii_digits (ds : List (Fin 10)) : ∀ c ∈ ds.map digitByte, c < 128 := by
  intro c hc
  obtain ⟨d, -, rfl⟩ := List.mem_map.mp hc
  exact digitByte_lt d

/-- A value that is not a string is written in plain characters. -/
lemma Value.ascii {v : Value} (h : ¬ v.IsString) : ∀ c ∈ v.render, c < 128 := by
  cases v with
  | string s => exact absurd trivial h
  | literal l => cases l <;> simp [Value.render, Literal.render]
  | number n =>
    rw [Value.render, NumberLiteral.render, NumberLiteral.suffix]
    intro c hc
    rw [List.mem_append, List.mem_append, List.mem_append] at hc
    rcases hc with hc | hc | hc | hc
    · split at hc
      · rw [List.mem_singleton.mp hc]
        decide
      · exact absurd hc List.not_mem_nil
    · exact ascii_digits n.integer c hc
    · split at hc
      · exact absurd hc List.not_mem_nil
      · rcases List.mem_cons.mp hc with rfl | hc
        · decide
        · exact ascii_digits n.fraction c hc
    · cases hexponent : n.exponent with
      | none =>
        rw [hexponent] at hc
        exact absurd hc List.not_mem_nil
      | some e =>
        rw [hexponent] at hc
        rcases List.mem_cons.mp hc with rfl | hc
        · rcases e.mark_eq with hmark | hmark <;> rw [hmark] <;> decide
        · rcases List.mem_append.mp hc with hc | hc
          · rcases e.sign_eq with hsign | hsign | hsign <;> rw [hsign] at hc
            · exact absurd hc List.not_mem_nil
            · rw [List.mem_singleton.mp hc]
              decide
            · rw [List.mem_singleton.mp hc]
              decide
          · exact ascii_digits e.digits c hc

/-- What the full parser takes for a side that is not a string: the value with the comma or the
brace behind it. -/
lemma textBytes_of_not_string {v : Value} (hv : ¬ v.IsString) (ms : List Member) :
    ∃ c, c < 128 ∧ textBytes (v.render ++ renderTail ms) = v.render ++ [c] ∧
      ∀ field f, scan field ((v.render ++ renderTail ms).drop ((v.render ++ [c]).length + 1)) f =
        scan field (renderTail ms.tail) f := by
  have hopen : openingQuote (v.render ++ renderTail ms) = 0 := by
    rw [openingQuote_render, if_neg hv]
  have hall : ∀ c ∈ v.render, (c != quote) = true := by
    intro c hc
    refine bne_iff_ne.mpr fun heq => ?_
    exact (v.quote_not_mem hv).1 (heq ▸ hc)
  cases ms with
  | nil =>
    refine ⟨rbrace, by decide, ?_, ?_⟩
    · rw [textBytes, hopen, List.drop_zero, renderTail, List.takeWhile_append_of_pos hall]
      rfl
    · intro field f
      rw [renderTail, List.drop_eq_nil_of_le (Nat.le_succ _), List.tail_nil, scan_tail_nil, scan]
  | cons m ms =>
    refine ⟨comma, by decide, ?_, ?_⟩
    · rw [textBytes, hopen, List.drop_zero, List.takeWhile_append_of_pos hall, renderTail,
        m.render_append]
      rfl
    · intro field f
      have hsplit : v.render ++ renderTail (m :: ms) = (v.render ++ [comma] ++ [quote]) ++
          (m.key.bytes ++ quote :: colon :: (m.value.render ++ renderTail ms)) := by
        rw [renderTail, m.render_append]
        simp
      rw [hsplit, List.drop_left' (by simp), scan_lost, List.tail_cons]

/-- The full parser reads too far into a side that is not a string, and loses the next member. -/
lemma scan_side (fromStr : List UInt8 → Option ℚ) {m : Member} (hkey : m.key.bytes = [keySide])
    (hv : ¬ m.value.IsString) (ms : List Member) (f : Fields) :
    ∃ side ≠ [], scan (fullField fromStr) (m.render ++ renderTail ms) f =
      scan (fullField fromStr) (renderTail ms.tail) { f with side := side } := by
  obtain ⟨c, hc, htext, hscan⟩ := textBytes_of_not_string hv ms
  have hopen : openingQuote (m.value.render ++ renderTail ms) = 0 := by
    rw [openingQuote_render, if_neg hv]
  have hvalid : Utf8.Valid (m.value.render ++ [c]) :=
    (Utf8.valid_of_ascii (Value.ascii hv)).append (Utf8.valid_singleton hc)
  have hfield : fullField fromStr keySide (m.value.render ++ renderTail ms) f =
      some ((m.value.render ++ [c]).length, { f with side := m.value.render ++ [c] }) := by
    have hside : fullField fromStr keySide (m.value.render ++ renderTail ms) f =
        if m.value.render ++ renderTail ms = [] then none
        else some (openingQuote (m.value.render ++ renderTail ms) +
          (textBytes (m.value.render ++ renderTail ms)).length,
          { f with side := textOr (textBytes (m.value.render ++ renderTail ms)) f.side }) := rfl
    rw [hside, if_neg (render_append_ne_nil m.value ms), hopen, htext, Nat.zero_add, textOr,
      if_pos hvalid]
  refine ⟨m.value.render ++ [c], by simp, ?_⟩
  rw [m.render_append, hkey, List.singleton_append, scan_keyed, hfield, Option.bind_some]
  exact hscan _ _

end OrderFeed

end HftArb
