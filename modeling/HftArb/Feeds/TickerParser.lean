import Mathlib.Algebra.Order.Floor.Semifield
import HftArb.Foundations.Numerals
import HftArb.Foundations.Runs
import HftArb.Foundations.TextSearch

/-!
# The ticker parser of the feeds

`parseRawBytesFast` scans the bytes of a message for the one-byte keys `t`, `b` and `a` and reads
the numbers behind them.  The position in the payload is the list of the bytes still to read.

The scanner does not know where strings begin and end: every quote is taken for the start of a key.
A string with two bytes or more therefore puts it out of step, at the closing quote of the string,
and it stays there over further strings until it has run over a number.  What that does to the
compact messages of the exchanges is `parseRawBytesFast_eq_some_iff`.
-/

namespace HftArb

open Numerals

namespace TickerParser

/-! ## The parser -/

def quote : UInt8 := 34

def comma : UInt8 := 44

def dot : UInt8 := 46

def colon : UInt8 := 58

def lbrace : UInt8 := 123

def rbrace : UInt8 := 125

/-- The key of the token id. -/
def keyT : UInt8 := 116

/-- The key of the bid. -/
def keyB : UInt8 := 98

/-- The key of the ask. -/
def keyA : UInt8 := 97

/-- `is_ascii_digit`. -/
def isDigit (c : UInt8) : Bool := decide (48 ≤ c) && decide (c ≤ 57)

/-- The bytes skipped after a colon. -/
def isSpace (c : UInt8) : Bool := c == 32 || c == 10 || c == 13 || c == 9

/-- The value of a digit. -/
def digitValue (c : UInt8) : ℕ := (c - 48).toNat

/-- An unsigned 16-bit integer at the position, with the position after it. -/
def parseU16At (bytes : List UInt8) : Option (UInt16 × List UInt8) :=
  if bytes.takeWhile isDigit = [] then none
  else
    (readDigits 16 0 ((bytes.takeWhile isDigit).map digitValue)).map fun val =>
      (UInt16.ofNat val, bytes.dropWhile isDigit)

/-- The extent of a number with at most one dot: its bytes, its decimal places and the bytes after
it. -/
def scanNumber : Bool → ℕ → List UInt8 → List UInt8 × ℕ × List UInt8
  | _, decimalPlaces, [] => ([], decimalPlaces, [])
  | dotSeen, decimalPlaces, c :: rest =>
    if c = dot then
      if dotSeen then ([], decimalPlaces, c :: rest)
      else
        let scanned := scanNumber true decimalPlaces rest
        (c :: scanned.1, scanned.2)
    else if isDigit c then
      let scanned := scanNumber dotSeen (if dotSeen then decimalPlaces + 1 else decimalPlaces) rest
      (c :: scanned.1, scanned.2)
    else ([], decimalPlaces, c :: rest)

/-- The number of decimal places of a price. -/
def targetDecimals : ℕ := 9

/-- A number with a given number of decimal places, in units of nine decimal places. -/
def normalize (rawVal decimalPlaces : ℕ) : Option ℕ :=
  if decimalPlaces ≤ targetDecimals then
    (checked 64 (10 ^ (targetDecimals - decimalPlaces))).bind fun scale =>
      checked 64 (rawVal * scale)
  else
    (checked 64 (10 ^ (decimalPlaces - targetDecimals))).map fun divisor => rawVal / divisor

/-- A price at the position, with the position after it. -/
def parseU64SkipDot (bytes : List UInt8) : Option (UInt64 × List UInt8) :=
  let scanned := scanNumber false 0 bytes
  if scanned.1 = [] then none
  else
    (readDigits 64 0 ((scanned.1.filter fun c => c ≠ dot).map digitValue)).bind fun rawVal =>
      (normalize rawVal scanned.2.1).map fun normalized =>
        (UInt64.ofNat normalized, scanned.2.2)

/-- What the parser has read so far. -/
structure Fields where
  tokenId : Option UInt16
  bidPrice : Option UInt64
  askPrice : Option UInt64
  deriving DecidableEq

/-- The part of a pass of the loop behind a key and its colon. -/
def readField (key : UInt8) (bytes : List UInt8) (f : Fields) : Option (List UInt8 × Fields) :=
  if bytes = [] then some ([], f)
  else if key = keyT then
    (parseU16At bytes).map fun read => (read.2, { f with tokenId := some read.1 })
  else if key = keyB then
    (parseU64SkipDot bytes).map fun read => (read.2, { f with bidPrice := some read.1 })
  else if key = keyA then
    (parseU64SkipDot bytes).map fun read => (read.2, { f with askPrice := some read.1 })
  else some (bytes.dropWhile fun c => c ≠ quote, f)

/-- One pass of the loop.  Leaving the loop leaves no bytes to read. -/
def pass : List UInt8 → Fields → Option (List UInt8 × Fields)
  | [], f => some ([], f)
  | c :: rest, f =>
    if c ≠ quote then some (rest, f)
    else
      match rest with
      | [] => some ([], f)
      | [_] => some ([], f)
      | key :: c :: rest =>
        if c ≠ quote then some (c :: rest, f)
        else
          match rest with
          | [] => some ([], f)
          | c :: rest =>
            if c ≠ colon then some (c :: rest, f)
            else readField key (rest.dropWhile isSpace) f

lemma length_dropWhile_le {p : UInt8 → Bool} (bytes : List UInt8) :
    (bytes.dropWhile p).length ≤ bytes.length :=
  (List.dropWhile_sublist p).length_le

/-- The bytes after a number are not more than those before it. -/
lemma length_scanNumber_le (dotSeen : Bool) (decimalPlaces : ℕ) (bytes : List UInt8) :
    (scanNumber dotSeen decimalPlaces bytes).2.2.length ≤ bytes.length := by
  fun_induction scanNumber dotSeen decimalPlaces bytes with
  | case1 => exact le_rfl
  | case2 => exact le_rfl
  | case3 _ _ _ _ _ ih => exact ih.trans (Nat.le_succ _)
  | case4 _ _ _ _ _ _ _ ih => exact ih.trans (Nat.le_succ _)
  | case5 => exact le_rfl

/-- Reading a field does not go back. -/
lemma length_readField_le {key : UInt8} {bytes : List UInt8} {f : Fields}
    {next : List UInt8 × Fields} (h : readField key bytes f = some next) :
    next.1.length ≤ bytes.length := by
  have hprice : ∀ read, parseU64SkipDot bytes = some read → read.2.length ≤ bytes.length := by
    intro read hread
    simp only [parseU64SkipDot] at hread
    split at hread
    · cases hread
    · obtain ⟨raw, -, hraw⟩ := Option.bind_eq_some_iff.mp hread
      obtain ⟨normalized, -, rfl⟩ := Option.map_eq_some_iff.mp hraw
      exact length_scanNumber_le false 0 bytes
  unfold readField at h
  split_ifs at h with hnil ht hb ha
  · cases h
    simp
  · obtain ⟨read, hread, rfl⟩ := Option.map_eq_some_iff.mp h
    unfold parseU16At at hread
    split_ifs at hread
    obtain ⟨val, -, rfl⟩ := Option.map_eq_some_iff.mp hread
    exact length_dropWhile_le bytes
  · obtain ⟨read, hread, rfl⟩ := Option.map_eq_some_iff.mp h
    exact hprice read hread
  · obtain ⟨read, hread, rfl⟩ := Option.map_eq_some_iff.mp h
    exact hprice read hread
  · cases h
    exact length_dropWhile_le bytes

/-- A pass moves on. -/
lemma length_pass_lt {c : UInt8} {bytes : List UInt8} {f : Fields} {next : List UInt8 × Fields}
    (h : pass (c :: bytes) f = some next) : next.1.length < (c :: bytes).length := by
  simp only [pass] at h
  split_ifs at h with hc
  · cases h
    simp
  · split at h
    · cases h
      simp
    · cases h
      simp
    · split_ifs at h
      · cases h
        simp
      · split at h
        · cases h
          simp
        · split_ifs at h
          · cases h
            simp
          · have hle := length_readField_le h
            have hdrop := length_dropWhile_le (p := isSpace) ‹_›
            simp only [List.length_cons]
            omega

/-- The loop over the bytes still to read. -/
def scan (bytes : List UInt8) (f : Fields) : Option Fields :=
  match bytes with
  | [] => some f
  | c :: rest =>
    match _h : pass (c :: rest) f with
    | none => none
    | some next => scan next.1 next.2
termination_by bytes.length
decreasing_by exact length_pass_lt _h

/-- The token id, the bid and the ask of a message. -/
def parseRawBytesFast (payload : List UInt8) : Option (UInt16 × UInt64 × UInt64) :=
  (scan payload ⟨none, none, none⟩).bind fun f =>
    match f.tokenId, f.bidPrice, f.askPrice with
    | some t, some b, some a => some (t, b, a)
    | _, _, _ => none

/-! ## How the loop moves -/

@[simp] lemma scan_nil (f : Fields) : scan [] f = some f := by rw [scan]

lemma scan_cons (c : UInt8) (rest : List UInt8) (f : Fields) :
    scan (c :: rest) f = (pass (c :: rest) f).bind fun next => scan next.1 next.2 := by
  rw [scan]
  split <;> simp_all

/-- A byte that is no quote is passed over. -/
lemma scan_of_ne {c : UInt8} (hc : c ≠ quote) (rest : List UInt8) (f : Fields) :
    scan (c :: rest) f = scan rest f := by
  rw [scan_cons]
  simp only [pass, if_pos hc, Option.bind_some]

/-- Bytes without a quote are passed over. -/
lemma scan_append {bytes : List UInt8} (h : ∀ c ∈ bytes, c ≠ quote) (rest : List UInt8)
    (f : Fields) : scan (bytes ++ rest) f = scan rest f := by
  induction bytes with
  | nil => rfl
  | cons c bytes ih =>
    obtain ⟨hc, hbytes⟩ := List.forall_mem_cons.mp h
    rw [List.cons_append, scan_of_ne hc, ih hbytes]

/-- Dropping bytes that are no quotes is passing over them. -/
lemma scan_dropWhile {p : UInt8 → Bool} (hp : ∀ c, p c = true → c ≠ quote) (bytes : List UInt8)
    (f : Fields) : scan (bytes.dropWhile p) f = scan bytes f := by
  induction bytes with
  | nil => rfl
  | cons c bytes ih =>
    by_cases hc : p c = true
    · rw [List.dropWhile_cons_of_pos hc, ih, scan_of_ne (hp c hc)]
    · rw [List.dropWhile_cons_of_neg hc]

lemma ne_quote_of_isSpace (c : UInt8) (h : isSpace c = true) : c ≠ quote := by
  rintro rfl
  exact absurd h (by decide)

/-- A key of one byte must be followed by a quote. -/
lemma scan_quote_of_ne {c : UInt8} (key : UInt8) (hc : c ≠ quote) (rest : List UInt8)
    (f : Fields) : scan (quote :: key :: c :: rest) f = scan (c :: rest) f := by
  rw [scan_cons]
  simp only [pass, ne_eq, not_true_eq_false, if_false, if_pos hc, Option.bind_some]

/-- A quoted byte must be followed by a colon. -/
lemma scan_quoted_of_ne {c : UInt8} (key : UInt8) (hc : c ≠ colon) (rest : List UInt8)
    (f : Fields) : scan (quote :: key :: quote :: c :: rest) f = scan (c :: rest) f := by
  rw [scan_cons]
  simp only [pass, ne_eq, not_true_eq_false, if_false, if_pos hc, Option.bind_some]

/-- A quoted byte with a colon is a key. -/
lemma scan_key (key : UInt8) (rest : List UInt8) (f : Fields) :
    scan (quote :: key :: quote :: colon :: rest) f =
      (readField key (rest.dropWhile isSpace) f).bind fun next => scan next.1 next.2 := by
  rw [scan_cons]
  simp only [pass, ne_eq, not_true_eq_false, if_false]

/-- A key the parser looks for. -/
def Sought (key : UInt8) : Prop := key = keyT ∨ key = keyB ∨ key = keyA

instance (key : UInt8) : Decidable (Sought key) := inferInstanceAs (Decidable (_ ∨ _))

/-- The value of any other key is passed over. -/
lemma scan_key_of_not_sought {key : UInt8} (hkey : ¬ Sought key) (rest : List UInt8) (f : Fields) :
    scan (quote :: key :: quote :: colon :: rest) f = scan rest f := by
  obtain ⟨ht, hb, ha⟩ : key ≠ keyT ∧ key ≠ keyB ∧ key ≠ keyA := by
    simpa [Sought] using hkey
  rw [scan_key, ← scan_dropWhile ne_quote_of_isSpace rest]
  unfold readField
  by_cases hnil : rest.dropWhile isSpace = []
  · rw [if_pos hnil, hnil]
    rfl
  · rw [if_neg hnil, if_neg ht, if_neg hb, if_neg ha, Option.bind_some]
    exact scan_dropWhile (by simp) _ f

/-- A byte between a quote and the opening quote of a string is taken for a key, and the string is
passed over up to its closing quote. -/
lemma scan_string_behind {key : UInt8} (hkey : ¬ Sought key) {bytes : List UInt8}
    (h : ∀ c ∈ bytes, c ≠ quote) (rest : List UInt8) (f : Fields) :
    scan (quote :: key :: quote :: (bytes ++ quote :: rest)) f = scan (quote :: rest) f := by
  cases bytes with
  | nil => exact scan_quoted_of_ne key (by decide) rest f
  | cons c bytes =>
    obtain ⟨hc, hbytes⟩ := List.forall_mem_cons.mp h
    by_cases hcolon : c = colon
    · rw [hcolon, List.cons_append, scan_key_of_not_sought hkey, scan_append hbytes]
    · rw [List.cons_append, scan_quoted_of_ne key hcolon, scan_of_ne hc, scan_append hbytes]

/-- A string with two bytes or more puts the scanner on its closing quote. -/
lemma scan_long_string {bytes : List UInt8} (h : ∀ c ∈ bytes, c ≠ quote)
    (hlong : 2 ≤ bytes.length) (rest : List UInt8) (f : Fields) :
    scan (quote :: (bytes ++ quote :: rest)) f = scan (quote :: rest) f := by
  match bytes, hlong with
  | key :: c :: bytes, _ =>
    have hc : c ≠ quote := h c (by simp)
    have hbytes : ∀ c ∈ bytes, c ≠ quote := fun c' hc' => h c' (by simp [hc'])
    rw [List.cons_append, List.cons_append, scan_quote_of_ne key hc, scan_of_ne hc,
      scan_append hbytes]

/-- A string with at most one byte that is no key is passed over. -/
lemma scan_short_string {bytes : List UInt8} (hshort : bytes.length ≤ 1) {c : UInt8}
    (hquote : c ≠ quote) (hcolon : c ≠ colon) (rest : List UInt8) (f : Fields) :
    scan (quote :: (bytes ++ quote :: c :: rest)) f = scan (c :: rest) f := by
  match bytes, hshort with
  | [], _ => exact scan_quote_of_ne quote hquote rest f
  | [key], _ => exact scan_quoted_of_ne key hcolon rest f

/-! ## Messages -/

/-- The bytes of a string without quotes, escapes and control characters. -/
def EscapeFree (bytes : List UInt8) : Prop := ∀ c ∈ bytes, c ≠ quote ∧ c ≠ 92 ∧ 32 ≤ c

instance (bytes : List UInt8) : Decidable (EscapeFree bytes) :=
  List.decidableBAll (fun c => c ≠ quote ∧ c ≠ 92 ∧ 32 ≤ c) bytes

/-- A string that is written without escapes. -/
structure JsonString where
  bytes : List UInt8
  escapeFree : EscapeFree bytes

/-- A plain decimal: digits with an optional fraction. -/
structure JsonNumber where
  digits : List (Fin 10)
  fraction : List (Fin 10)
  digits_ne : digits ≠ []

/-- The digits of a number as one natural number. -/
def JsonNumber.mantissa (n : JsonNumber) : ℕ :=
  numeral 0 ((n.digits ++ n.fraction).map Fin.val)

/-- The number that is written. -/
def JsonNumber.value (n : JsonNumber) : ℚ := n.mantissa / 10 ^ n.fraction.length

/-- A value of a message. -/
inductive JsonValue where
  | number (n : JsonNumber)
  | string (s : JsonString)

/-- A member of a message. -/
structure Member where
  key : JsonString
  value : JsonValue

/-- The byte of a digit. -/
def digitByte (d : Fin 10) : UInt8 := UInt8.ofNat (48 + d)

/-- A number as it is written. -/
def JsonNumber.render (n : JsonNumber) : List UInt8 :=
  n.digits.map digitByte ++ if n.fraction = [] then [] else dot :: n.fraction.map digitByte

/-- A string as it is written. -/
def JsonString.render (s : JsonString) : List UInt8 := quote :: (s.bytes ++ [quote])

lemma JsonString.quote_not_mem (s : JsonString) : quote ∉ s.bytes :=
  fun hmem => (s.escapeFree quote hmem).1 rfl

lemma JsonString.render_append (s : JsonString) (rest : List UInt8) :
    s.render ++ rest = quote :: (s.bytes ++ quote :: rest) := by
  simp [JsonString.render]

/-- A value as it is written. -/
def JsonValue.render : JsonValue → List UInt8
  | .number n => n.render
  | .string s => s.render

/-- A member as it is written. -/
def Member.render (m : Member) : List UInt8 := m.key.render ++ colon :: m.value.render

/-- A flat object in compact form. -/
def renderObject (members : List Member) : List UInt8 :=
  lbrace :: ([comma].intercalate (members.map Member.render) ++ [rbrace])

/-! ## Reading numbers -/

lemma isDigit_digitByte : ∀ d, isDigit (digitByte d) = true := by decide

lemma digitValue_digitByte : ∀ d : Fin 10, digitValue (digitByte d) = d := by decide

lemma digitByte_ne_quote : ∀ d, digitByte d ≠ quote := by decide

lemma digitByte_ne_dot : ∀ d, digitByte d ≠ dot := by decide

/-- The values of written digits. -/
lemma map_digitValue (ds : List (Fin 10)) :
    (ds.map digitByte).map digitValue = ds.map Fin.val := by
  rw [List.map_map]
  exact List.map_congr_left fun d _ => digitValue_digitByte d

/-- A number that fits 16 bits is read. -/
lemma parseU16At_digits {ds : List (Fin 10)} (hds : ds ≠ [])
    (hfits : numeral 0 (ds.map Fin.val) < 2 ^ 16) {c : UInt8} (hc : isDigit c = false)
    (rest : List UInt8) :
    parseU16At (ds.map digitByte ++ c :: rest) =
      some (UInt16.ofNat (numeral 0 (ds.map Fin.val)), c :: rest) := by
  have hdigits : ∀ b ∈ ds.map digitByte, isDigit b = true := by
    intro b hb
    obtain ⟨d, -, rfl⟩ := List.mem_map.mp hb
    exact isDigit_digitByte d
  have htake : (ds.map digitByte ++ c :: rest).takeWhile isDigit = ds.map digitByte := by
    rw [List.takeWhile_append_of_pos hdigits, List.takeWhile_cons_of_neg (by simp [hc]),
      List.append_nil]
  have hdrop : (ds.map digitByte ++ c :: rest).dropWhile isDigit = c :: rest := by
    rw [List.dropWhile_append_of_pos hdigits, List.dropWhile_cons_of_neg (by simp [hc])]
  rw [parseU16At, htake, hdrop, if_neg (by simpa using hds), map_digitValue,
    readDigits_of_lt hfits, Option.map_some]

/-- Digits belong to a number, and count as decimal places behind a dot. -/
lemma scanNumber_digits (dotSeen : Bool) (places : ℕ) (ds : List (Fin 10)) (rest : List UInt8) :
    scanNumber dotSeen places (ds.map digitByte ++ rest) =
      (ds.map digitByte ++
          (scanNumber dotSeen (if dotSeen then places + ds.length else places) rest).1,
        (scanNumber dotSeen (if dotSeen then places + ds.length else places) rest).2) := by
  induction ds generalizing places with
  | nil => simp
  | cons d ds ih =>
    rw [List.map_cons, List.cons_append, scanNumber, if_neg (digitByte_ne_dot d),
      if_pos (isDigit_digitByte d)]
    simp only [ih, List.cons_append, List.length_cons]
    cases dotSeen with
    | false => rfl
    | true =>
      simp only [if_true]
      rw [Nat.add_right_comm, Nat.add_assoc]

/-- The bytes after a number do not go on with it. -/
def NumberEnds (rest : List UInt8) : Prop := ∀ c ∈ rest.head?, isDigit c = false ∧ c ≠ dot

lemma numberEnds_cons {c : UInt8} (hc : isDigit c = false) (hdot : c ≠ dot) (rest : List UInt8) :
    NumberEnds (c :: rest) := by
  intro c' hc'
  rw [← Option.some.inj hc']
  exact ⟨hc, hdot⟩

/-- The extent of a written number. -/
lemma scanNumber_render (n : JsonNumber) {rest : List UInt8} (hrest : NumberEnds rest) :
    scanNumber false 0 (n.render ++ rest) = (n.render, n.fraction.length, rest) := by
  have hstop : ∀ dotSeen places, scanNumber dotSeen places rest = ([], places, rest) := by
    intro dotSeen places
    cases rest with
    | nil => rw [scanNumber]
    | cons c rest =>
      obtain ⟨hc, hdot⟩ := hrest c rfl
      rw [scanNumber, if_neg hdot, if_neg (by simp [hc])]
  unfold JsonNumber.render
  by_cases hfraction : n.fraction = []
  · rw [if_pos hfraction, List.append_nil, scanNumber_digits, hstop, hfraction]
    simp
  · rw [if_neg hfraction, List.append_assoc, scanNumber_digits, List.cons_append, scanNumber,
      if_pos rfl]
    simp [scanNumber_digits, hstop]

/-- The digits of a written number. -/
lemma filter_render (n : JsonNumber) :
    ((n.render.filter fun c => c ≠ dot).map digitValue) = (n.digits ++ n.fraction).map Fin.val := by
  have hdigits : ∀ ds : List (Fin 10),
      (ds.map digitByte).filter (fun c => c ≠ dot) = ds.map digitByte := by
    intro ds
    rw [List.filter_eq_self]
    intro c hc
    obtain ⟨d, -, rfl⟩ := List.mem_map.mp hc
    simpa using digitByte_ne_dot d
  unfold JsonNumber.render
  by_cases hfraction : n.fraction = []
  · rw [if_pos hfraction, hfraction, List.append_nil, List.append_nil, hdigits, map_digitValue]
  · rw [if_neg hfraction, List.filter_append, List.filter_cons_of_neg (by simp), hdigits, hdigits,
      List.map_append, map_digitValue, map_digitValue, List.map_append]

/-- A price that fits: at most 19 digits, and less than `2 ^ 64` in units of nine decimal places. -/
structure JsonNumber.Fits (n : JsonNumber) : Prop where
  digits_le : n.digits.length + n.fraction.length ≤ 19
  value_lt : n.value * 10 ^ 9 < 2 ^ 64

/-- A number in units of nine decimal places, rounded down. -/
def JsonNumber.nano (n : JsonNumber) : ℕ := ⌊n.value * 10 ^ 9⌋₊

/-- Rounding down in integer arithmetic. -/
lemma JsonNumber.nano_eq (n : JsonNumber) :
    n.nano = if n.fraction.length ≤ 9 then n.mantissa * 10 ^ (9 - n.fraction.length)
      else n.mantissa / 10 ^ (n.fraction.length - 9) := by
  unfold JsonNumber.nano JsonNumber.value
  split_ifs with hle
  · have hpow : (10 : ℚ) ^ 9 = 10 ^ n.fraction.length * 10 ^ (9 - n.fraction.length) := by
      rw [← pow_add, Nat.add_sub_cancel' hle]
    have hexact : (n.mantissa / 10 ^ n.fraction.length * 10 ^ 9 : ℚ) =
        ((n.mantissa * 10 ^ (9 - n.fraction.length) : ℕ) : ℚ) := by
      rw [hpow]
      push_cast
      field_simp
    rw [hexact, Nat.floor_natCast]
  · have hpow : (10 : ℚ) ^ n.fraction.length = 10 ^ (n.fraction.length - 9) * 10 ^ 9 := by
      rw [← pow_add, Nat.sub_add_cancel (by omega)]
    have hexact : (n.mantissa / 10 ^ n.fraction.length * 10 ^ 9 : ℚ) =
        (n.mantissa : ℚ) / ((10 ^ (n.fraction.length - 9) : ℕ) : ℚ) := by
      rw [hpow]
      push_cast
      field_simp
    rw [hexact, Nat.floor_div_eq_div]

/-- A price without an overflow: its digits make a word, with at most nine decimal places padded to
nine they still do, and the power of ten for more of them is a word. -/
structure JsonNumber.Readable (n : JsonNumber) : Prop where
  mantissa_lt : n.mantissa < 2 ^ 64
  nano_lt : n.nano < 2 ^ 64
  places_le : n.fraction.length ≤ 28

instance (n : JsonNumber) : Decidable n.Readable :=
  decidable_of_iff (n.mantissa < 2 ^ 64 ∧ n.nano < 2 ^ 64 ∧ n.fraction.length ≤ 28)
    ⟨fun h => ⟨h.1, h.2.1, h.2.2⟩, fun h => ⟨h.mantissa_lt, h.nano_lt, h.places_le⟩⟩

/-- The powers of ten that fit 64 bits. -/
lemma ten_pow_lt_iff {k : ℕ} : 10 ^ k < 2 ^ 64 ↔ k ≤ 19 := by
  constructor
  · intro h
    by_contra hk
    have hle : 10 ^ 20 ≤ 10 ^ k := Nat.pow_le_pow_right (by norm_num) (by omega)
    omega
  · intro h
    have hle : 10 ^ k ≤ 10 ^ 19 := Nat.pow_le_pow_right (by norm_num) h
    omega

/-- Digits that make a word are normalized unless the price overflows. -/
lemma normalize_eq {n : JsonNumber} (hmantissa : n.mantissa < 2 ^ 64) :
    normalize n.mantissa n.fraction.length = if n.Readable then some n.nano else none := by
  have hnano := n.nano_eq
  unfold normalize targetDecimals
  by_cases hle : n.fraction.length ≤ 9
  · rw [if_pos hle] at hnano ⊢
    have hscale : 10 ^ (9 - n.fraction.length) < 2 ^ 64 := ten_pow_lt_iff.mpr (by omega)
    rw [checked_of_lt hscale, Option.bind_some, ← hnano]
    by_cases hfits : n.nano < 2 ^ 64
    · rw [checked_of_lt hfits, if_pos ⟨hmantissa, hfits, by omega⟩]
    · rw [show checked 64 n.nano = none from if_neg hfits, if_neg fun h => hfits h.nano_lt]
  · rw [if_neg hle] at hnano ⊢
    by_cases hplaces : n.fraction.length ≤ 28
    · have hdivisor : 10 ^ (n.fraction.length - 9) < 2 ^ 64 := ten_pow_lt_iff.mpr (by omega)
      have hfits : n.nano < 2 ^ 64 := by
        rw [hnano]
        exact (Nat.div_le_self _ _).trans_lt hmantissa
      rw [checked_of_lt hdivisor, Option.map_some, ← hnano, if_pos ⟨hmantissa, hfits, hplaces⟩]
    · have hover : ¬ 10 ^ (n.fraction.length - 9) < 2 ^ 64 := by
        rw [ten_pow_lt_iff]
        omega
      rw [show checked 64 (10 ^ (n.fraction.length - 9)) = none from if_neg hover,
        Option.map_none, if_neg fun h => hplaces h.places_le]

/-- A written price is read up to its end, or not at all. -/
lemma parseU64SkipDot_eq (n : JsonNumber) {rest : List UInt8} (hrest : NumberEnds rest) :
    parseU64SkipDot (n.render ++ rest) =
      if n.Readable then some (UInt64.ofNat n.nano, rest) else none := by
  have hne : n.render ≠ [] := by
    unfold JsonNumber.render
    simp [n.digits_ne]
  have hraw : readDigits 64 0 ((n.digits ++ n.fraction).map Fin.val) = checked 64 n.mantissa :=
    readDigits_eq_checked (by norm_num)
  rw [parseU64SkipDot, scanNumber_render n hrest, if_neg hne, filter_render, hraw]
  by_cases hmantissa : n.mantissa < 2 ^ 64
  · rw [checked_of_lt hmantissa, Option.bind_some, normalize_eq hmantissa]
    split_ifs
    · rfl
    · rfl
  · rw [show checked 64 n.mantissa = none from if_neg hmantissa, Option.bind_none,
      if_neg fun h => hmantissa h.mantissa_lt]

/-- A price that fits is read without an overflow. -/
lemma JsonNumber.Fits.readable {n : JsonNumber} (hn : n.Fits) : n.Readable := by
  have hdigits : ∀ d ∈ (n.digits ++ n.fraction).map Fin.val, d < 10 := by
    intro d hd
    obtain ⟨e, -, rfl⟩ := List.mem_map.mp hd
    exact e.isLt
  have hmantissa : n.mantissa < 10 ^ 19 := by
    have hlt := numeral_lt (v := 0) hdigits
    rw [zero_add, one_mul, List.length_map, List.length_append] at hlt
    exact hlt.trans_le (Nat.pow_le_pow_right (by norm_num) hn.digits_le)
  refine ⟨by omega, ?_, ?_⟩
  · have hnonneg : 0 ≤ n.value * 10 ^ 9 := by
      unfold JsonNumber.value
      positivity
    have hlt := hn.value_lt
    rw [JsonNumber.nano, Nat.floor_lt hnonneg]
    exact_mod_cast hlt
  · have hbound := hn.digits_le
    omega

/-- A price that fits is read. -/
lemma parseU64SkipDot_render {n : JsonNumber} (hn : n.Fits) {c : UInt8} (hc : isDigit c = false)
    (hdot : c ≠ dot) (rest : List UInt8) :
    parseU64SkipDot (n.render ++ c :: rest) = some (UInt64.ofNat n.nano, c :: rest) := by
  rw [parseU64SkipDot_eq n (numberEnds_cons hc hdot rest), if_pos hn.readable]

/-! ## Reading messages -/

/-- What follows a member of an object. -/
def renderTail : List Member → List UInt8
  | [] => [rbrace]
  | m :: ms => comma :: (m.render ++ renderTail ms)

/-- An object member by member. -/
lemma renderObject_cons (m : Member) (ms : List Member) :
    renderObject (m :: ms) = lbrace :: (m.render ++ renderTail ms) :=
  congrArg (lbrace :: ·) (TextSearch.intercalate_map_append renderTail rfl (fun _ _ => rfl) m ms)

/-- A byte that ends a number or a string without being taken for more. -/
structure Ends (c : UInt8) : Prop where
  quote : c ≠ quote
  colon : c ≠ colon
  digit : isDigit c = false
  dot : c ≠ dot

/-- What follows a member starts with a comma or a brace. -/
lemma exists_renderTail_eq (ms : List Member) : ∃ c rest, renderTail ms = c :: rest ∧ Ends c := by
  cases ms with
  | nil => exact ⟨rbrace, [], rfl, by decide, by decide, by decide, by decide⟩
  | cons m ms => exact ⟨comma, _, rfl, by decide, by decide, by decide, by decide⟩

/-- The value of the member is a string. -/
def Member.IsString (m : Member) : Prop := ∃ s, m.value = .string s

/-- The value of the member is a string, and a byte or less like the key. -/
def Member.IsShort (m : Member) : Prop :=
  ∃ s, m.value = .string s ∧ m.key.bytes.length ≤ 1 ∧ s.bytes.length ≤ 1

/-- Whether the scanner is in step after a member. -/
def Member.inStep (m : Member) (before : Bool) : Bool :=
  match m.value with
  | .number _ => true
  | .string s => before && decide (m.key.bytes.length ≤ 1) && decide (s.bytes.length ≤ 1)

/-- What the parser has read after a member found in step. -/
def Member.store (f : Fields) (m : Member) : Fields :=
  match m.value with
  | .string _ => f
  | .number n =>
    if m.key.bytes = [keyT] then { f with tokenId := some (UInt16.ofNat n.mantissa) }
    else if m.key.bytes = [keyB] then { f with bidPrice := some (UInt64.ofNat n.nano) }
    else if m.key.bytes = [keyA] then { f with askPrice := some (UInt64.ofNat n.nano) }
    else f

/-- A member whose value is a number in range when its key is one of those the parser looks for. -/
structure Member.InRange (m : Member) : Prop where
  token : m.key.bytes = [keyT] → ∃ n, m.value = .number n ∧ n.fraction = [] ∧ n.mantissa < 2 ^ 16
  price : ∀ key, key = keyB ∨ key = keyA → m.key.bytes = [key] →
    ∃ n, m.value = .number n ∧ n.Fits

/-- Where the scanner stands before the rest of a message: on the rest, or on the closing quote
before it. -/
def position (inStep : Bool) (rest : List UInt8) : List UInt8 :=
  if inStep then rest else quote :: rest

lemma JsonString.ne_quote (s : JsonString) : ∀ c ∈ s.bytes, c ≠ quote :=
  fun c hc => (s.escapeFree c hc).1

/-- A number has no quotes. -/
lemma JsonNumber.ne_quote (n : JsonNumber) : ∀ c ∈ n.render, c ≠ quote := by
  have hdigits : ∀ ds : List (Fin 10), ∀ c ∈ ds.map digitByte, c ≠ quote := by
    intro ds c hc
    obtain ⟨d, -, rfl⟩ := List.mem_map.mp hc
    exact digitByte_ne_quote d
  intro c hc
  unfold JsonNumber.render at hc
  rcases List.mem_append.mp hc with hc | hc
  · exact hdigits n.digits c hc
  · split_ifs at hc
    · simp at hc
    · rcases List.mem_cons.mp hc with rfl | hc
      · decide
      · exact hdigits n.fraction c hc

/-- A number starts with a digit. -/
lemma JsonNumber.exists_render_eq (n : JsonNumber) :
    ∃ d rest, n.render = digitByte d :: rest := by
  obtain ⟨d, ds, hds⟩ := List.exists_cons_of_ne_nil n.digits_ne
  exact ⟨d, _, by rw [JsonNumber.render, hds]; rfl⟩

/-- A value found on its first byte. -/
lemma scan_value (m : Member) (hkey : m.key.bytes.length ≤ 1) (ms : List Member) (f : Fields) :
    scan (m.value.render ++ renderTail ms) f =
      scan (position (m.inStep true) (renderTail ms)) f := by
  unfold Member.inStep
  cases m.value with
  | number n => exact scan_append n.ne_quote _ f
  | string s =>
    obtain ⟨c, rest, htail, hc⟩ := exists_renderTail_eq ms
    rw [JsonValue.render, s.render_append]
    by_cases hshort : s.bytes.length ≤ 1
    · rw [htail, scan_short_string hshort hc.quote hc.colon]
      simp [position, hkey, hshort]
    · rw [scan_long_string s.ne_quote (by omega)]
      simp [position, hkey, hshort]

/-- A value found from the closing quote of its key. -/
lemma scan_value_of_lost (m : Member) (ms : List Member) (f : Fields) :
    scan (quote :: colon :: (m.value.render ++ renderTail ms)) f =
      scan (position (m.inStep false) (renderTail ms)) f := by
  unfold Member.inStep
  cases m.value with
  | number n =>
    obtain ⟨d, rest, hrender⟩ := n.exists_render_eq
    have hskip := scan_append n.ne_quote (renderTail ms) f
    rw [hrender, List.cons_append] at hskip
    simp only [JsonValue.render, hrender, List.cons_append]
    rw [scan_quote_of_ne colon (digitByte_ne_quote d), hskip]
    rfl
  | string s =>
    rw [JsonValue.render, s.render_append, scan_string_behind (by decide) s.ne_quote]
    rfl

/-- A member with its key and its value. -/
lemma Member.render_append (m : Member) (rest : List UInt8) :
    m.render ++ rest =
      quote :: (m.key.bytes ++ quote :: colon :: (m.value.render ++ rest)) := by
  simp [Member.render, JsonString.render]

/-- A member found from the closing quote before it is not read. -/
lemma scan_member_of_lost (m : Member) (ms : List Member) (f : Fields) :
    scan (quote :: renderTail (m :: ms)) f =
      scan (position (m.inStep false) (renderTail ms)) f := by
  rw [renderTail, m.render_append, scan_string_behind (by decide) m.key.ne_quote]
  exact scan_value_of_lost m ms f

/-- Members with other keys leave what has been read. -/
lemma Member.store_of_not_sought {m : Member} (h : ∀ key, m.key.bytes = [key] → ¬ Sought key)
    (f : Fields) : m.store f = f := by
  have hT : m.key.bytes ≠ [keyT] := fun hkey => h keyT hkey (Or.inl rfl)
  have hB : m.key.bytes ≠ [keyB] := fun hkey => h keyB hkey (Or.inr (Or.inl rfl))
  have hA : m.key.bytes ≠ [keyA] := fun hkey => h keyA hkey (Or.inr (Or.inr rfl))
  unfold Member.store
  cases m.value with
  | number n => exact (if_neg hT).trans ((if_neg hB).trans (if_neg hA))
  | string s => rfl

/-- The value of a sought key is read. -/
lemma scan_sought {m : Member} (hm : m.InRange) {key : UInt8} (hkey : m.key.bytes = [key])
    (hsought : Sought key) (ms : List Member) (f : Fields) :
    scan (quote :: key :: quote :: colon :: (m.value.render ++ renderTail ms)) f =
      scan (position (m.inStep true) (renderTail ms)) (m.store f) := by
  obtain ⟨c, rest, htail, hc⟩ := exists_renderTail_eq ms
  have hvalue : ∃ n, m.value = .number n := by
    rcases hsought with rfl | hprice
    · obtain ⟨n, hn, -⟩ := hm.token hkey
      exact ⟨n, hn⟩
    · obtain ⟨n, hn, -⟩ := hm.price key hprice hkey
      exact ⟨n, hn⟩
  obtain ⟨n, hn⟩ := hvalue
  have hspace : (n.render ++ renderTail ms).dropWhile isSpace = n.render ++ renderTail ms := by
    obtain ⟨d, digits, hrender⟩ := n.exists_render_eq
    have hdigit : ∀ d, isSpace (digitByte d) = false := by decide
    rw [hrender, List.cons_append, List.dropWhile_cons_of_neg (by simp [hdigit d])]
  have hne : n.render ++ renderTail ms ≠ [] := by
    rw [htail]
    simp
  have hstep : position (m.inStep true) (renderTail ms) = renderTail ms := by
    rw [Member.inStep, hn]
    rfl
  have hread : readField key (n.render ++ renderTail ms) f = some (renderTail ms, m.store f) := by
    rw [readField, if_neg hne, Member.store, hn, hkey]
    rcases hsought with rfl | rfl | rfl
    · obtain ⟨n', hn', hfraction, hlt⟩ := hm.token hkey
      obtain rfl : n' = n := JsonValue.number.inj (hn'.symm.trans hn)
      have hdigits : n'.render = n'.digits.map digitByte := by
        rw [JsonNumber.render, if_pos hfraction, List.append_nil]
      have hmantissa : n'.mantissa = numeral 0 (n'.digits.map Fin.val) := by
        rw [JsonNumber.mantissa, hfraction, List.append_nil]
      rw [hmantissa] at hlt
      rw [hdigits, htail, if_pos rfl, parseU16At_digits n'.digits_ne hlt hc.digit, ← hmantissa]
      rfl
    · obtain ⟨n', hn', hfits⟩ := hm.price keyB (Or.inl rfl) hkey
      obtain rfl : n' = n := JsonValue.number.inj (hn'.symm.trans hn)
      rw [if_neg (by decide), if_pos rfl, htail, parseU64SkipDot_render hfits hc.digit hc.dot]
      rfl
    · obtain ⟨n', hn', hfits⟩ := hm.price keyA (Or.inr rfl) hkey
      obtain rfl : n' = n := JsonValue.number.inj (hn'.symm.trans hn)
      rw [if_neg (by decide), if_neg (by decide), if_pos rfl, htail,
        parseU64SkipDot_render hfits hc.digit hc.dot]
      rfl
  rw [scan_key, hn, JsonValue.render, hspace, hread, Option.bind_some, hstep]

/-- A member found on its first byte. -/
lemma scan_member {m : Member} (hm : m.InRange) (ms : List Member) (f : Fields) :
    scan (m.render ++ renderTail ms) f =
      scan (position (m.inStep true) (renderTail ms)) (m.store f) := by
  rw [m.render_append]
  by_cases hlong : 2 ≤ m.key.bytes.length
  · have hstep : m.inStep true = m.inStep false := by
      unfold Member.inStep
      cases m.value with
      | number n => rfl
      | string s =>
        have hnot : ¬ m.key.bytes.length ≤ 1 := by omega
        simp [hnot]
    have hstore : m.store f = f := by
      apply Member.store_of_not_sought
      intro key hkey
      rw [hkey] at hlong
      simp at hlong
    rw [scan_long_string m.key.ne_quote hlong, hstore, hstep]
    exact scan_value_of_lost m ms f
  · have hvalue := scan_value m (by omega) ms f
    rcases hkey : m.key.bytes with _ | ⟨key, _ | ⟨c, bytes⟩⟩
    · have hstore : m.store f = f := Member.store_of_not_sought (by simp [hkey]) f
      rw [List.nil_append, scan_quote_of_ne quote (by decide), scan_of_ne (by decide), hstore]
      exact hvalue
    · by_cases hsought : Sought key
      · exact scan_sought hm hkey hsought ms f
      · have hstore : m.store f = f := by
          apply Member.store_of_not_sought
          intro key' hkey'
          obtain rfl : key = key' := by simpa [hkey] using hkey'
          exact hsought
        rw [List.singleton_append, scan_key_of_not_sought hsought, hstore]
        exact hvalue
    · rw [hkey] at hlong
      simp at hlong

/-- The members the scanner finds in step. -/
def found : Bool → List Member → List Member
  | _, [] => []
  | true, m :: ms => m :: found (m.inStep true) ms
  | false, m :: ms => found (m.inStep false) ms

/-- The scanner reads the members it finds in step. -/
lemma scan_members {ms : List Member} (hms : ∀ m ∈ ms, m.InRange) (inStep : Bool) (f : Fields) :
    scan (position inStep (renderTail ms)) f = some ((found inStep ms).foldl Member.store f) := by
  induction ms generalizing inStep f with
  | nil =>
    cases inStep with
    | true => exact (scan_of_ne (by decide) [] f).trans (scan_nil f)
    | false =>
      change scan [quote, rbrace] f = some f
      rw [scan_cons]
      simp [pass]
  | cons m ms ih =>
    obtain ⟨hm, hrest⟩ := List.forall_mem_cons.mp hms
    cases inStep with
    | true =>
      change scan (comma :: (m.render ++ renderTail ms)) f = _
      rw [scan_of_ne (by decide), scan_member hm, ih hrest]
      rfl
    | false =>
      change scan (quote :: renderTail (m :: ms)) f = _
      rw [scan_member_of_lost, ih hrest]
      rfl

/-! ## Ticker messages -/

/-- A ticker message: a flat object with distinct keys, among them the token id, an integer of 16
bits, and the two prices. -/
structure TickerMessage where
  members : List Member
  nodup : (members.map fun m => m.key.bytes).Nodup
  token : Member
  bid : Member
  ask : Member
  tokenId : JsonNumber
  bidPrice : JsonNumber
  askPrice : JsonNumber
  token_mem : token ∈ members
  bid_mem : bid ∈ members
  ask_mem : ask ∈ members
  token_key : token.key.bytes = [keyT]
  bid_key : bid.key.bytes = [keyB]
  ask_key : ask.key.bytes = [keyA]
  token_value : token.value = .number tokenId
  bid_value : bid.value = .number bidPrice
  ask_value : ask.value = .number askPrice
  token_integer : tokenId.fraction = []
  token_lt : tokenId.mantissa < 2 ^ 16
  bid_fits : bidPrice.Fits
  ask_fits : askPrice.Fits

/-- In every run of strings that ends these members, keys and values have at most one byte. -/
def Unblocked (before : List Member) : Prop :=
  ∀ front run, before = front ++ run → (∀ m ∈ run, m.IsString) → ∀ m ∈ run, m.IsShort

/-- Whether the scanner is in step after some members. -/
def inStepAfter (before : List Member) : Bool := before.foldl (fun inStep m => m.inStep inStep) true

/-- No member, no run of strings. -/
lemma unblocked_nil : Unblocked [] := by
  intro front run heq _ m hm
  obtain ⟨-, rfl⟩ := List.append_eq_nil_iff.mp heq.symm
  simp at hm

/-- A number ends every run of strings. -/
lemma unblocked_append_number {before : List Member} {m : Member} {n : JsonNumber}
    (hvalue : m.value = .number n) : Unblocked (before ++ [m]) := by
  intro front run heq hstrings m' hm'
  rcases List.eq_nil_or_concat run with rfl | ⟨run', last, rfl⟩
  · simp at hm'
  · obtain ⟨s, hs⟩ := hstrings last (by simp)
    have hlast : last = m := by
      rw [List.concat_eq_append, ← List.append_assoc] at heq
      exact (List.append_singleton_inj.mp heq).2.symm
    rw [hlast, hvalue] at hs
    cases hs

/-- A string belongs to the runs that end before it. -/
lemma unblocked_append_string_iff {before : List Member} {m : Member} (hm : m.IsString) :
    Unblocked (before ++ [m]) ↔ Unblocked before ∧ m.IsShort := by
  constructor
  · intro h
    refine ⟨?_, h before [m] rfl (by simpa using hm) m (by simp)⟩
    intro front run heq hstrings m' hm'
    refine h front (run ++ [m]) (by rw [heq, List.append_assoc]) ?_ m' (by simp [hm'])
    intro a ha
    rcases List.mem_append.mp ha with ha | ha
    · exact hstrings a ha
    · rw [List.mem_singleton.mp ha]
      exact hm
  · rintro ⟨hbefore, hshort⟩ front run heq hstrings m' hm'
    rcases List.eq_nil_or_concat run with rfl | ⟨run', last, rfl⟩
    · simp at hm'
    · rw [List.concat_eq_append, ← List.append_assoc] at heq
      obtain ⟨hfront, rfl⟩ := List.append_singleton_inj.mp heq
      rw [List.concat_eq_append, List.mem_append, List.mem_singleton] at hm'
      rcases hm' with hm' | rfl
      · exact hbefore front run' hfront (fun a ha => hstrings a (by simp [ha])) m' hm'
      · exact hshort

/-- A string member is short when its key and its value have at most one byte. -/
lemma isShort_iff_of_string {m : Member} {s : JsonString} (hvalue : m.value = .string s) :
    m.IsShort ↔ m.key.bytes.length ≤ 1 ∧ s.bytes.length ≤ 1 := by
  constructor
  · rintro ⟨s', hs', hlengths⟩
    obtain rfl : s' = s := JsonValue.string.inj (hs'.symm.trans hvalue)
    exact hlengths
  · intro hlengths
    exact ⟨s, hvalue, hlengths⟩

/-- The scanner is in step when the last strings are short. -/
lemma inStepAfter_iff (before : List Member) : inStepAfter before = true ↔ Unblocked before := by
  induction before using List.reverseRecOn with
  | nil => exact iff_of_true rfl unblocked_nil
  | append_singleton before m ih =>
    have hstep : inStepAfter (before ++ [m]) = m.inStep (inStepAfter before) := by
      simp [inStepAfter]
    rw [hstep]
    cases hvalue : m.value with
    | number n => exact iff_of_true (by rw [Member.inStep, hvalue]) (unblocked_append_number hvalue)
    | string s =>
      rw [unblocked_append_string_iff ⟨s, hvalue⟩, isShort_iff_of_string hvalue, ← ih,
        Member.inStep, hvalue]
      simp [and_assoc]

/-- The members found in step are those the scanner reaches in step. -/
lemma mem_found_iff {inStep : Bool} {ms : List Member} {m : Member} :
    m ∈ found inStep ms ↔ ∃ before after, ms = before ++ m :: after ∧
      before.foldl (fun inStep m => m.inStep inStep) inStep = true := by
  induction ms generalizing inStep with
  | nil => simp [found]
  | cons a ms ih =>
    have hsplit : (∃ before after, a :: ms = before ++ m :: after ∧
        before.foldl (fun inStep m => m.inStep inStep) inStep = true) ↔
        (a = m ∧ inStep = true) ∨ ∃ before after, ms = before ++ m :: after ∧
          before.foldl (fun inStep m => m.inStep inStep) (a.inStep inStep) = true := by
      constructor
      · rintro ⟨before, after, heq, h⟩
        cases before with
        | nil => exact Or.inl ⟨(List.cons.inj heq).1, h⟩
        | cons b before =>
          obtain ⟨rfl, htl⟩ := List.cons.inj heq
          exact Or.inr ⟨before, after, htl, h⟩
      · rintro (⟨rfl, h⟩ | ⟨before, after, rfl, h⟩)
        · exact ⟨[], ms, rfl, h⟩
        · exact ⟨a :: before, after, rfl, h⟩
    rw [hsplit, ← ih]
    cases inStep with
    | true => simp [found, eq_comm]
    | false => simp [found]

/-- Members found in step are members. -/
lemma found_sublist (inStep : Bool) (ms : List Member) : (found inStep ms).Sublist ms := by
  induction ms generalizing inStep with
  | nil => exact List.Sublist.refl _
  | cons m ms ih =>
    cases inStep with
    | true => exact (ih _).cons_cons m
    | false => exact (ih _).cons m

lemma store_tokenId (f : Fields) {m : Member} {n : JsonNumber} (hkey : m.key.bytes = [keyT])
    (hn : m.value = .number n) : (m.store f).tokenId = some (UInt16.ofNat n.mantissa) := by
  rw [Member.store, hn]
  exact congrArg Fields.tokenId (if_pos hkey)

lemma store_bidPrice (f : Fields) {m : Member} {n : JsonNumber} (hkey : m.key.bytes = [keyB])
    (hn : m.value = .number n) : (m.store f).bidPrice = some (UInt64.ofNat n.nano) := by
  rw [Member.store, hn, hkey]
  rfl

lemma store_askPrice (f : Fields) {m : Member} {n : JsonNumber} (hkey : m.key.bytes = [keyA])
    (hn : m.value = .number n) : (m.store f).askPrice = some (UInt64.ofNat n.nano) := by
  rw [Member.store, hn, hkey]
  rfl

/-- A member only stores under its own key. -/
lemma store_of_ne (f : Fields) (m : Member) :
    (m.key.bytes ≠ [keyT] → (m.store f).tokenId = f.tokenId) ∧
      (m.key.bytes ≠ [keyB] → (m.store f).bidPrice = f.bidPrice) ∧
      (m.key.bytes ≠ [keyA] → (m.store f).askPrice = f.askPrice) := by
  unfold Member.store
  cases m.value with
  | string s => exact ⟨fun _ => rfl, fun _ => rfl, fun _ => rfl⟩
  | number n =>
    dsimp only
    split_ifs with ht hb ha
    · exact ⟨fun hne => absurd ht hne, fun _ => rfl, fun _ => rfl⟩
    · exact ⟨fun _ => rfl, fun hne => absurd hb hne, fun _ => rfl⟩
    · exact ⟨fun _ => rfl, fun _ => rfl, fun hne => absurd ha hne⟩
    · exact ⟨fun _ => rfl, fun _ => rfl, fun _ => rfl⟩

namespace TickerMessage

variable (msg : TickerMessage)

/-- The message in compact form. -/
def render : List UInt8 := renderObject msg.members

/-- The strings directly before a member, keys and values, have at most one byte. -/
def Reached (m : Member) : Prop :=
  ∃ before after, msg.members = before ++ m :: after ∧ Unblocked before

/-- Members with the same key are the same. -/
lemma eq_of_key_eq {m m' : Member} (hm : m ∈ msg.members) (hm' : m' ∈ msg.members)
    (hkey : m.key.bytes = m'.key.bytes) : m = m' :=
  List.inj_on_of_nodup_map msg.nodup hm hm' hkey

/-- The members the parser looks for are in range. -/
lemma inRange {m : Member} (hm : m ∈ msg.members) : m.InRange := by
  constructor
  · intro hkey
    obtain rfl := msg.eq_of_key_eq hm msg.token_mem (hkey.trans msg.token_key.symm)
    exact ⟨msg.tokenId, msg.token_value, msg.token_integer, msg.token_lt⟩
  · rintro key (rfl | rfl) hkey
    · obtain rfl := msg.eq_of_key_eq hm msg.bid_mem (hkey.trans msg.bid_key.symm)
      exact ⟨msg.bidPrice, msg.bid_value, msg.bid_fits⟩
    · obtain rfl := msg.eq_of_key_eq hm msg.ask_mem (hkey.trans msg.ask_key.symm)
      exact ⟨msg.askPrice, msg.ask_value, msg.ask_fits⟩

/-- What the scanner has read at the end of a message. -/
lemma scan_render (f : Fields) :
    scan msg.render f = some ((found true msg.members).foldl Member.store f) := by
  obtain ⟨m, ms, hmembers⟩ := List.exists_cons_of_ne_nil (List.ne_nil_of_mem msg.token_mem)
  have hrange : ∀ m' ∈ m :: ms, m'.InRange := by
    intro m' hm'
    exact msg.inRange (hmembers ▸ hm')
  obtain ⟨hm, hms⟩ := List.forall_mem_cons.mp hrange
  rw [render, hmembers, renderObject_cons, scan_of_ne (by decide), scan_member hm,
    scan_members hms]
  rfl

/-- The members found in step are the reached ones. -/
lemma mem_found_iff_reached (m : Member) : m ∈ found true msg.members ↔ msg.Reached m := by
  rw [mem_found_iff]
  refine exists_congr fun before => exists_congr fun after => and_congr_right fun _ => ?_
  exact inStepAfter_iff before

/-- A field is read exactly when its member is reached. -/
lemma field_eq_some_iff {β : Type} {π : Fields → Option β} {key : List UInt8} {v : JsonNumber → β}
    (hπ : ∀ f m, m.key.bytes ≠ key → π (Member.store f m) = π f)
    (hval : ∀ f m n, m.key.bytes = key → m.value = .number n →
      π (Member.store f m) = some (v n))
    {m : Member} (hm : m ∈ msg.members) (hkey : m.key.bytes = key) {n : JsonNumber}
    (hn : m.value = .number n) {f : Fields} (hf : π f = none) :
    π ((found true msg.members).foldl Member.store f) = some (v n) ↔ msg.Reached m := by
  have hsub := found_sublist true msg.members
  rw [← msg.mem_found_iff_reached m]
  constructor
  · intro hread
    by_contra hnot
    rw [Runs.foldl_of_forall_ne hπ, hf] at hread
    · cases hread
    · intro m' hm' hkey'
      obtain rfl := msg.eq_of_key_eq (hsub.subset hm') hm (hkey'.trans hkey.symm)
      exact hnot hm'
  · intro hfound
    have hnodup := msg.nodup.sublist (hsub.map fun m => m.key.bytes)
    obtain ⟨f', -, hread⟩ := Runs.exists_foldl_of_mem hπ hnodup hfound hkey f
    rw [hread, hval f' m n hkey hn]

/-- The parser returns the token id and the prices of a message, rounded down to nine decimal
places, exactly when each of the three members is reached: no string directly before it, nor before
that with strings only in between, has a key or a value of two bytes or more. -/
theorem parseRawBytesFast_eq_some_iff :
    parseRawBytesFast msg.render =
        some (UInt16.ofNat msg.tokenId.mantissa, UInt64.ofNat ⌊msg.bidPrice.value * 10 ^ 9⌋₊,
          UInt64.ofNat ⌊msg.askPrice.value * 10 ^ 9⌋₊) ↔
      ∀ m ∈ [msg.token, msg.bid, msg.ask], msg.Reached m := by
  have htoken := msg.field_eq_some_iff (π := Fields.tokenId) (f := ⟨none, none, none⟩)
    (fun f m => (store_of_ne f m).1) (fun f m n => store_tokenId f) msg.token_mem msg.token_key
    msg.token_value rfl
  have hbid := msg.field_eq_some_iff (π := Fields.bidPrice) (f := ⟨none, none, none⟩)
    (fun f m => (store_of_ne f m).2.1) (fun f m n => store_bidPrice f) msg.bid_mem msg.bid_key
    msg.bid_value rfl
  have hask := msg.field_eq_some_iff (π := Fields.askPrice) (f := ⟨none, none, none⟩)
    (fun f m => (store_of_ne f m).2.2) (fun f m n => store_askPrice f) msg.ask_mem msg.ask_key
    msg.ask_value rfl
  have hmembers : (∀ m ∈ [msg.token, msg.bid, msg.ask], msg.Reached m) ↔
      msg.Reached msg.token ∧ msg.Reached msg.bid ∧ msg.Reached msg.ask := by
    simp
  rw [hmembers, ← htoken, ← hbid, ← hask, parseRawBytesFast, msg.scan_render, Option.bind_some]
  generalize (found true msg.members).foldl Member.store ⟨none, none, none⟩ = read
  obtain ⟨t, b, a⟩ := read
  cases t <;> cases b <;> cases a <;> simp [JsonNumber.nano]

end TickerMessage

/-- The message `{"s":"BTC","t":1,"b":2,"a":3}`. -/
def symbolMessage : TickerMessage where
  members := [⟨⟨[115], by decide⟩, .string ⟨[66, 84, 67], by decide⟩⟩,
    ⟨⟨[keyT], by decide⟩, .number ⟨[1], [], by decide⟩⟩,
    ⟨⟨[keyB], by decide⟩, .number ⟨[2], [], by decide⟩⟩,
    ⟨⟨[keyA], by decide⟩, .number ⟨[3], [], by decide⟩⟩]
  nodup := by decide
  token := ⟨⟨[keyT], by decide⟩, .number ⟨[1], [], by decide⟩⟩
  bid := ⟨⟨[keyB], by decide⟩, .number ⟨[2], [], by decide⟩⟩
  ask := ⟨⟨[keyA], by decide⟩, .number ⟨[3], [], by decide⟩⟩
  tokenId := ⟨[1], [], by decide⟩
  bidPrice := ⟨[2], [], by decide⟩
  askPrice := ⟨[3], [], by decide⟩
  token_mem := by simp
  bid_mem := by simp
  ask_mem := by simp
  token_key := rfl
  bid_key := rfl
  ask_key := rfl
  token_value := rfl
  bid_value := rfl
  ask_value := rfl
  token_integer := rfl
  token_lt := by decide
  bid_fits := ⟨by decide, by norm_num [JsonNumber.value, JsonNumber.mantissa, numeral]⟩
  ask_fits := ⟨by decide, by norm_num [JsonNumber.value, JsonNumber.mantissa, numeral]⟩

/-- The symbol in front of the token id hides it. -/
theorem symbol_hides_token :
    parseRawBytesFast symbolMessage.render ≠
      some (UInt16.ofNat symbolMessage.tokenId.mantissa,
        UInt64.ofNat ⌊symbolMessage.bidPrice.value * 10 ^ 9⌋₊,
        UInt64.ofNat ⌊symbolMessage.askPrice.value * 10 ^ 9⌋₊) := by
  have htoken : ((found true symbolMessage.members).foldl Member.store ⟨none, none, none⟩).tokenId =
      none :=
    rfl
  rw [parseRawBytesFast, symbolMessage.scan_render, Option.bind_some, htoken]
  simp

end TickerParser

end HftArb
