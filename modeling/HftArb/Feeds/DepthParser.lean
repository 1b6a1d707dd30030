import Mathlib.Data.List.DropRight
import HftArb.Feeds.TickerParser
import HftArb.Foundations.TextSearch

/-!
# The static depth parser

`parseBinanceDepthStatic` and `parseGenericDepth` look up the fields of a depth message by searching
for the quoted key in the text.  In a compact object with distinct keys the first occurrence of a
quoted key and its colon is the member with this key, whatever comes before it: `find_member`.

The levels of an array are read by searching for the next bracket.  The reader notices the end of
the array only after a level, so that it runs out of an empty array into the rest of the message,
and it never answers with no levels at all.  The parsers agree with the message exactly when both
arrays have a level: `depthParsers_iff`.
-/

namespace HftArb

open Numerals TextSearch TickerParser

namespace StaticBookParser

/-! ## The parser -/

def lbracket : UInt8 := 91

def rbracket : UInt8 := 93

/-- A parsed order book update. -/
structure ParsedBookUpdate where
  symbol : List UInt8
  bids : List (List UInt8 × List UInt8)
  asks : List (List UInt8 × List UInt8)
  isSnapshot : Bool
  lastUpdateId : UInt64
  deriving DecidableEq

/-- The pattern of a quoted key and its colon, with what follows it. -/
def keyPattern (key rest : List UInt8) : List UInt8 := quote :: (key ++ quote :: colon :: rest)

/-- The bytes that may stand before a key: structural ones and `is_ascii_whitespace`. -/
def isBoundary (c : UInt8) : Bool :=
  c == comma || c == lbrace || c == lbracket || c == colon ||
    (c == 32 || c == 9 || c == 10 || c == 12 || c == 13)

/-- The value of a string field. -/
def extractStringField (json key : List UInt8) : Option (List UInt8) :=
  (find (keyPattern key [quote]) json).bind fun found =>
    if (found.1.getLast?.map isBoundary).getD true then
      (find [quote] found.2).map Prod.fst
    else none

/-- `str::parse::<u64>` on digits and dots. -/
def parseU64 (bytes : List UInt8) : Option UInt64 :=
  if bytes = [] ∨ bytes.all isDigit = false then none
  else (readDigits 64 0 (bytes.map digitValue)).map UInt64.ofNat

/-- The value of a numeric field. -/
def extractNumberField (json key : List UInt8) : Option UInt64 :=
  (find (keyPattern key []) json).bind fun found =>
    parseU64 (found.2.takeWhile fun c => isDigit c || c == dot)

/-- `trim_matches` of the quote. -/
def trimQuotes (bytes : List UInt8) : List UInt8 :=
  (bytes.dropWhile (· == quote)).rdropWhile (· == quote)

/-- The levels after those of the bytes between two brackets. -/
def pushLevel (inner : List UInt8) (pairs : List (List UInt8 × List UInt8)) :
    List (List UInt8 × List UInt8) :=
  match inner.splitOn comma with
  | [price, qty] => pairs ++ [(trimQuotes price, trimQuotes qty)]
  | _ => pairs

/-- No answer is given without a level. -/
def answer (pairs : List (List UInt8 × List UInt8)) : Option (List (List UInt8 × List UInt8)) :=
  if pairs = [] then none else some pairs

/-- The loop over the levels of an array. -/
def readLevels (text : List UInt8) (pairs : List (List UInt8 × List UInt8)) :
    Option (List (List UInt8 × List UInt8)) :=
  if text = [] then answer pairs
  else
    match _hopen : find [lbracket] text with
    | none => none
    | some opened =>
      match _hclose : find [rbracket] opened.2 with
      | none => none
      | some closed =>
        if closed.2.head? = some rbracket then answer (pushLevel closed.1 pairs)
        else readLevels closed.2 (pushLevel closed.1 pairs)
termination_by text.length
decreasing_by
  have hopened := length_lt_of_find (List.cons_ne_nil _ _) _hopen
  have hclosed := length_lt_of_find (List.cons_ne_nil _ _) _hclose
  omega

/-- The levels of an array field. -/
def extractPriceQuantityArray (json key : List UInt8) :
    Option (List (List UInt8 × List UInt8)) :=
  (find (keyPattern key [lbracket]) json).bind fun found => readLevels found.2 []

/-- The key of the symbol. -/
def keyS : List UInt8 := [115]

/-- The key of the update id. -/
def keyU : List UInt8 := [117]

/-- The key `bids`. -/
def keyBids : List UInt8 := [98, 105, 100, 115]

/-- The key `asks`. -/
def keyAsks : List UInt8 := [97, 115, 107, 115]

/-- A depth update of the Binance format. -/
def parseBinanceDepthStatic (json : List UInt8) : Option ParsedBookUpdate :=
  (extractStringField json keyS).bind fun symbol =>
    (extractNumberField json keyU).bind fun lastUpdateId =>
      (extractPriceQuantityArray json [keyB]).bind fun bids =>
        (extractPriceQuantityArray json [keyA]).map fun asks =>
          ⟨symbol, bids, asks, false, lastUpdateId⟩

/-- A depth snapshot of the generic format. -/
def parseGenericDepth (json : List UInt8) : Option ParsedBookUpdate :=
  (extractPriceQuantityArray json keyBids).bind fun bids =>
    (extractPriceQuantityArray json keyAsks).map fun asks => ⟨[], bids, asks, true, 0⟩

/-! ## Messages -/

/-- A text of digits and dots. -/
structure DigitText where
  bytes : List UInt8
  plain : ∀ c ∈ bytes, isDigit c = true ∨ c = dot

/-- An integer literal that fits 64 bits. -/
structure Integer where
  digits : List (Fin 10)
  digits_ne : digits ≠ []
  fits : numeral 0 (digits.map Fin.val) < 2 ^ 64

/-- The number that is written. -/
def Integer.value (n : Integer) : UInt64 := UInt64.ofNat (numeral 0 (n.digits.map Fin.val))

/-- A level of the book. -/
structure Level where
  price : DigitText
  qty : DigitText

/-- The texts of a level. -/
def Level.texts (l : Level) : List UInt8 × List UInt8 := (l.price.bytes, l.qty.bytes)

/-- A value of a depth message. -/
inductive DepthValue where
  | text (s : JsonString)
  | integer (n : Integer)
  | levels (ls : List Level)

/-- A member of a depth message. -/
structure DepthMember where
  key : JsonString
  value : DepthValue

/-- A text of digits and dots as it is written. -/
def DigitText.render (t : DigitText) : List UInt8 := quote :: (t.bytes ++ [quote])

/-- A level as it is written. -/
def Level.render (l : Level) : List UInt8 :=
  lbracket :: (l.price.render ++ comma :: (l.qty.render ++ [rbracket]))

/-- A value as it is written. -/
def DepthValue.render : DepthValue → List UInt8
  | .text s => s.render
  | .integer n => n.digits.map digitByte
  | .levels ls => lbracket :: ([comma].intercalate (ls.map Level.render) ++ [rbracket])

/-- A member as it is written. -/
def DepthMember.render (m : DepthMember) : List UInt8 :=
  m.key.render ++ colon :: m.value.render

/-- An object in compact form. -/
def renderDepth (members : List DepthMember) : List UInt8 :=
  lbrace :: ([comma].intercalate (members.map DepthMember.render) ++ [rbrace])

/-! ## Finding a member -/

/-- A key that the parsers search for: it has no quote and does not begin with a byte that follows a
string. -/
structure Searched (key : List UInt8) : Prop where
  plain : quote ∉ key
  head : ∀ c rest, key ++ [quote] = c :: rest → c ≠ comma ∧ c ≠ colon ∧ c ≠ rbracket ∧ c ≠ rbrace

/-- A byte that follows a string in a message. -/
def Follows (c : UInt8) : Prop := c = comma ∨ c = colon ∨ c = rbracket ∨ c = rbrace

/-- A searched key does not begin at the closing quote of a string. -/
lemma Searched.not_prefix {key : List UInt8} (h : Searched key) {c : UInt8} (hc : Follows c)
    (tail rest : List UInt8) : ¬ key ++ quote :: tail <+: c :: rest := by
  intro hprefix
  have hne : key ++ [quote] ≠ [] := by simp
  obtain ⟨d, more, hkey⟩ := List.exists_cons_of_ne_nil hne
  have hsplit : key ++ quote :: tail = d :: (more ++ tail) := by
    rw [← List.singleton_append, ← List.append_assoc, hkey, List.cons_append]
  rw [hsplit, List.cons_prefix_cons] at hprefix
  obtain ⟨hcomma, hcolon, hbracket, hbrace⟩ := h.head d more hkey
  rcases hc with rfl | rfl | rfl | rfl
  · exact hcomma hprefix.1
  · exact hcolon hprefix.1
  · exact hbracket hprefix.1
  · exact hbrace hprefix.1

section Avoiding

variable {key tail : List UInt8}

/-- A string that is not followed by a colon, or has other bytes than the key. -/
lemma avoids_string (hkey : Searched key) {body : List UInt8} (hbody : quote ∉ body) {c : UInt8}
    (hc : Follows c) (hother : c = colon → key ≠ body) (rest : List UInt8) :
    Avoids (keyPattern key tail) (quote :: (body ++ [quote])) (c :: rest) := by
  refine avoids_quoted hkey.plain hbody ?_ (hkey.not_prefix hc _ rest)
  rintro heq hprefix
  obtain ⟨hcolon, -⟩ := List.cons_prefix_cons.mp hprefix
  exact hother hcolon.symm heq

lemma DigitText.quote_not_mem (t : DigitText) : quote ∉ t.bytes := by
  intro hmem
  rcases t.plain quote hmem with h | h <;> exact absurd h (by decide)

lemma avoids_level (hkey : Searched key) (l : Level) (rest : List UInt8) :
    Avoids (keyPattern key tail) l.render rest := by
  have hbracket : quote ∉ [lbracket] := by decide
  have hcomma : quote ∉ [comma] := by decide
  have hclose : quote ∉ [rbracket] := by decide
  have hrender : l.render =
      [lbracket] ++ (l.price.render ++ ([comma] ++ (l.qty.render ++ [rbracket]))) := rfl
  rw [hrender, avoids_append, avoids_append, avoids_append, avoids_append]
  refine ⟨avoids_of_not_mem hbracket _, ?_, avoids_of_not_mem hcomma _, ?_,
    avoids_of_not_mem hclose _⟩
  · exact avoids_string hkey l.price.quote_not_mem (Or.inl rfl) (fun h => absurd h (by decide)) _
  · exact avoids_string hkey l.qty.quote_not_mem (Or.inr (Or.inr (Or.inl rfl)))
      (fun h => absurd h (by decide)) _

/-- No searched key begins in pieces that are joined by commas when none begins in any of them. -/
lemma avoids_intercalate {pieces : List (List UInt8)}
    (h : ∀ piece ∈ pieces, ∀ rest, Avoids (keyPattern key tail) piece rest) (rest : List UInt8) :
    Avoids (keyPattern key tail) ([comma].intercalate pieces) rest := by
  have hcomma : quote ∉ [comma] := by decide
  induction pieces with
  | nil => trivial
  | cons piece pieces ih =>
    cases pieces with
    | nil =>
      rw [List.intercalate_singleton]
      exact h piece (by simp) rest
    | cons piece' pieces =>
      rw [List.intercalate_cons_cons, avoids_append, avoids_append]
      exact ⟨⟨h piece (by simp) _, avoids_of_not_mem hcomma _⟩,
        ih fun p hp => h p (List.mem_cons_of_mem _ hp)⟩

/-- No searched key begins in a value that is followed by a comma or a brace. -/
lemma avoids_value (hkey : Searched key) (v : DepthValue) {c : UInt8} (hc : c = comma ∨ c = rbrace)
    (rest : List UInt8) : Avoids (keyPattern key tail) v.render (c :: rest) := by
  cases v with
  | text s =>
    refine avoids_string hkey (fun hmem => s.ne_quote quote hmem rfl) ?_ ?_ rest
    · exact hc.elim Or.inl fun h => Or.inr (Or.inr (Or.inr h))
    · rintro rfl
      exact hc.elim (fun h => absurd h (by decide)) (fun h => absurd h (by decide))
  | integer n =>
    refine avoids_of_not_mem (fun hmem => ?_) _
    obtain ⟨d, -, hd⟩ := List.mem_map.mp hmem
    exact digitByte_ne_quote d hd
  | levels ls =>
    have hopen : quote ∉ [lbracket] := by decide
    have hclose : quote ∉ [rbracket] := by decide
    have hrender : (DepthValue.levels ls).render =
        [lbracket] ++ ([comma].intercalate (ls.map Level.render) ++ [rbracket]) := rfl
    rw [hrender, avoids_append, avoids_append]
    refine ⟨avoids_of_not_mem hopen _, avoids_intercalate ?_ _, avoids_of_not_mem hclose _⟩
    intro piece hpiece rest'
    obtain ⟨l, -, rfl⟩ := List.mem_map.mp hpiece
    exact avoids_level hkey l rest'

/-- No searched key begins in a member with another key. -/
lemma avoids_member (hkey : Searched key) {m : DepthMember} (hm : m.key.bytes ≠ key) {c : UInt8}
    (hc : c = comma ∨ c = rbrace) (rest : List UInt8) :
    Avoids (keyPattern key tail) m.render (c :: rest) := by
  have hcolon : quote ∉ [colon] := by decide
  have hrender : m.render = m.key.render ++ ([colon] ++ m.value.render) := rfl
  rw [hrender, avoids_append, avoids_append]
  refine ⟨?_, avoids_of_not_mem hcolon _, avoids_value hkey m.value hc rest⟩
  exact avoids_string hkey (fun hmem => m.key.ne_quote quote hmem rfl) (Or.inr (Or.inl rfl))
    (fun _ => hm.symm) _

end Avoiding

/-- Pieces joined by commas, piece by piece. -/
lemma intercalate_comma_cons (piece : List UInt8) (pieces : List (List UInt8)) :
    [comma].intercalate (piece :: pieces) = piece ++ pieces.flatMap fun p => comma :: p := by
  induction pieces generalizing piece with
  | nil => simp
  | cons p pieces ih =>
    rw [List.intercalate_cons_cons, ih, List.flatMap_cons, List.append_assoc]
    rfl

/-- What follows a member of an object. -/
def depthTail (members : List DepthMember) : List UInt8 :=
  (members.flatMap fun m => comma :: m.render) ++ [rbrace]

/-- What follows a member starts with a comma or a brace. -/
lemma exists_depthTail_eq (members : List DepthMember) :
    ∃ c rest, depthTail members = c :: rest ∧ (c = comma ∨ c = rbrace) := by
  cases members with
  | nil => exact ⟨rbrace, [], rfl, Or.inr rfl⟩
  | cons m ms => exact ⟨comma, _, rfl, Or.inl rfl⟩

/-- What precedes a member of an object. -/
def depthHead (members : List DepthMember) : List UInt8 :=
  lbrace :: members.flatMap fun m => m.render ++ [comma]

/-- An object around one of its members. -/
lemma renderDepth_append_cons (pre : List DepthMember) (m : DepthMember)
    (post : List DepthMember) :
    renderDepth (pre ++ m :: post) = depthHead pre ++ (m.render ++ depthTail post) := by
  have hjoin : [comma].intercalate ((pre ++ m :: post).map DepthMember.render) ++ [rbrace] =
      (pre.flatMap fun m => m.render ++ [comma]) ++ (m.render ++ depthTail post) := by
    induction pre with
    | nil =>
      rw [List.nil_append, List.map_cons, intercalate_comma_cons, List.flatMap_map,
        List.append_assoc]
      rfl
    | cons p pre ih =>
      have hne : (pre ++ m :: post).map DepthMember.render ≠ [] := by simp
      obtain ⟨piece, pieces, hpieces⟩ := List.exists_cons_of_ne_nil hne
      rw [List.cons_append, List.map_cons, hpieces, List.intercalate_cons_cons, ← hpieces,
        List.flatMap_cons, List.append_assoc, ih]
      simp only [List.append_assoc]
  rw [renderDepth, hjoin]
  rfl

/-- No searched key begins in the members before the one with this key. -/
lemma avoids_depthHead {key tail : List UInt8} (hkey : Searched key) {pre : List DepthMember}
    (hpre : ∀ m ∈ pre, m.key.bytes ≠ key) (rest : List UInt8) :
    Avoids (keyPattern key tail) (depthHead pre) rest := by
  have hbrace : quote ∉ [lbrace] := by decide
  have hmembers : Avoids (keyPattern key tail) (pre.flatMap fun m => m.render ++ [comma]) rest := by
    have hcomma : quote ∉ [comma] := by decide
    induction pre with
    | nil => trivial
    | cons m pre ih =>
      rw [List.flatMap_cons, avoids_append, avoids_append]
      refine ⟨⟨avoids_member hkey (hpre m (by simp)) (Or.inl rfl) _,
        avoids_of_not_mem hcomma _⟩, ?_⟩
      exact ih fun m' hm' => hpre m' (List.mem_cons_of_mem _ hm')
  exact avoids_append.mpr ⟨avoids_of_not_mem hbrace _, hmembers⟩

/-- The first occurrence of a searched key is the member with this key. -/
lemma find_member {key : List UInt8} (hkey : Searched key) {pre : List DepthMember}
    (hpre : ∀ m ∈ pre, m.key.bytes ≠ key) {m : DepthMember} (hm : m.key.bytes = key)
    {tail more : List UInt8} (hvalue : m.value.render = tail ++ more) (post : List DepthMember) :
    find (keyPattern key tail) (renderDepth (pre ++ m :: post)) =
      some (depthHead pre, more ++ depthTail post) := by
  have hrender : m.render ++ depthTail post =
      keyPattern key tail ++ (more ++ depthTail post) := by
    rw [DepthMember.render, hvalue, JsonString.render, hm, keyPattern]
    simp
  rw [renderDepth_append_cons, hrender]
  exact find_of_avoids (avoids_depthHead hkey hpre _)

/-- A member follows a boundary. -/
lemma boundary_depthHead (pre : List DepthMember) :
    ((depthHead pre).getLast?.map isBoundary).getD true = true := by
  rcases List.eq_nil_or_concat pre with rfl | ⟨before, m, rfl⟩
  · decide
  · rw [depthHead, List.concat_eq_append, List.flatMap_append, List.flatMap_singleton,
      ← List.append_assoc, ← List.cons_append, List.getLast?_append]
    rfl

/-! ## Reading the values -/

section Values

variable {key : List UInt8} {pre : List DepthMember} {m : DepthMember}

/-- A string field. -/
lemma extractStringField_member (hkey : Searched key) (hpre : ∀ m ∈ pre, m.key.bytes ≠ key)
    (hm : m.key.bytes = key) {s : JsonString} (hvalue : m.value = .text s)
    (post : List DepthMember) :
    extractStringField (renderDepth (pre ++ m :: post)) key = some s.bytes := by
  have hrender : m.value.render = [quote] ++ (s.bytes ++ [quote]) := by
    rw [hvalue]
    rfl
  have hplain : quote ∉ s.bytes := fun hmem => s.ne_quote quote hmem rfl
  rw [extractStringField, find_member hkey hpre hm hrender, Option.bind_some,
    if_pos (boundary_depthHead pre), List.append_assoc, List.singleton_append, find_letter hplain,
    Option.map_some]

/-- Digits are read up to the end of the member. -/
lemma takeWhile_digits (ds : List (Fin 10)) {c : UInt8} (hc : c = comma ∨ c = rbrace)
    (rest : List UInt8) :
    (ds.map digitByte ++ c :: rest).takeWhile (fun c => isDigit c || c == dot) =
      ds.map digitByte := by
  have hstop : (isDigit c || c == dot) = false := by
    rcases hc with rfl | rfl <;> decide
  rw [List.takeWhile_append_of_pos, List.takeWhile_cons_of_neg (by simp [hstop]), List.append_nil]
  intro b hb
  obtain ⟨d, -, rfl⟩ := List.mem_map.mp hb
  simp [isDigit_digitByte]

/-- An integer that fits is parsed. -/
lemma parseU64_digits (n : Integer) : parseU64 (n.digits.map digitByte) = some n.value := by
  have hne : n.digits.map digitByte ≠ [] := by simpa using n.digits_ne
  have hall : (n.digits.map digitByte).all isDigit = true := by
    simp [isDigit_digitByte]
  rw [parseU64, if_neg (by simp [hne, hall]), map_digitValue, readDigits_of_lt n.fits,
    Option.map_some]
  rfl

/-- A numeric field. -/
lemma extractNumberField_member (hkey : Searched key) (hpre : ∀ m ∈ pre, m.key.bytes ≠ key)
    (hm : m.key.bytes = key) {n : Integer} (hvalue : m.value = .integer n)
    (post : List DepthMember) :
    extractNumberField (renderDepth (pre ++ m :: post)) key = some n.value := by
  have hrender : m.value.render = [] ++ n.digits.map digitByte := by
    rw [hvalue]
    rfl
  obtain ⟨c, rest, htail, hc⟩ := exists_depthTail_eq post
  rw [extractNumberField, find_member hkey hpre hm hrender, Option.bind_some, htail,
    takeWhile_digits n.digits hc, parseU64_digits]

end Values

/-! ## Reading the levels -/

/-- The quotes around a text without quotes are trimmed. -/
lemma trimQuotes_quoted {bytes : List UInt8} (h : quote ∉ bytes) :
    trimQuotes (quote :: (bytes ++ [quote])) = bytes := by
  rw [trimQuotes, List.dropWhile_cons_of_pos (by simp)]
  cases bytes with
  | nil => decide
  | cons b bytes =>
    have hb : b ≠ quote := fun heq => h (heq ▸ List.mem_cons_self)
    have hlast : ∀ hne : b :: bytes ≠ [], ¬ ((b :: bytes).getLast hne == quote) = true := by
      intro hne heq
      exact h (beq_iff_eq.mp heq ▸ List.getLast_mem hne)
    rw [List.cons_append, List.dropWhile_cons_of_neg (by simpa using hb), ← List.cons_append,
      List.rdropWhile_concat_pos _ _ _ (by simp), List.rdropWhile_eq_self_iff.mpr hlast]

lemma DigitText.not_mem_render (t : DigitText) {c : UInt8} (hquote : c ≠ quote)
    (hdigit : isDigit c = false) (hdot : c ≠ dot) : c ∉ t.render := by
  intro hmem
  rcases List.mem_cons.mp hmem with rfl | hmem
  · exact hquote rfl
  · rcases List.mem_append.mp hmem with hmem | hmem
    · rcases t.plain c hmem with h | h
      · exact absurd h (by simp [hdigit])
      · exact hdot h
    · exact hquote (List.mem_singleton.mp hmem)

/-- The bytes between the brackets of a level. -/
def Level.inner (l : Level) : List UInt8 := l.price.render ++ comma :: l.qty.render

lemma Level.render_eq (l : Level) : l.render = lbracket :: (l.inner ++ [rbracket]) := by
  simp [Level.render, Level.inner]

/-- A level is read. -/
lemma pushLevel_inner (l : Level) (pairs : List (List UInt8 × List UInt8)) :
    pushLevel l.inner pairs = pairs ++ [l.texts] := by
  have hprice : comma ∉ l.price.render := l.price.not_mem_render (by decide) (by decide) (by decide)
  have hqty : comma ∉ l.qty.render := l.qty.not_mem_render (by decide) (by decide) (by decide)
  rw [pushLevel, Level.inner, List.splitOn_append_cons_self_of_not_mem hprice,
    List.splitOn_eq_singleton hqty]
  simp only [DigitText.render, trimQuotes_quoted (DigitText.quote_not_mem _)]
  rfl

lemma Level.rbracket_not_mem (l : Level) : rbracket ∉ l.inner := by
  rw [Level.inner, List.mem_append, List.mem_cons]
  rintro (h | h | h)
  · exact l.price.not_mem_render (by decide) (by decide) (by decide) h
  · exact absurd h (by decide)
  · exact l.qty.not_mem_render (by decide) (by decide) (by decide) h

/-- One pass of the loop over the levels. -/
lemma readLevels_level (l : Level) {sep : List UInt8} (hsep : lbracket ∉ sep)
    (pairs : List (List UInt8 × List UInt8)) (after : List UInt8) :
    readLevels (sep ++ (l.render ++ after)) pairs =
      if after.head? = some rbracket then some (pairs ++ [l.texts])
      else readLevels after (pairs ++ [l.texts]) := by
  have hne : sep ++ (l.render ++ after) ≠ [] := by simp [Level.render]
  have hopen : find [lbracket] (sep ++ (l.render ++ after)) =
      some (sep, l.inner ++ rbracket :: after) := by
    rw [l.render_eq, List.cons_append, List.append_assoc, List.singleton_append]
    exact find_letter hsep _
  have hclose : find [rbracket] (l.inner ++ rbracket :: after) = some (l.inner, after) :=
    find_letter l.rbracket_not_mem _
  have hanswer : answer (pairs ++ [l.texts]) = some (pairs ++ [l.texts]) := if_neg (by simp)
  rw [readLevels, if_neg hne]
  split
  · next hnone => exact absurd (hopen.symm.trans hnone) (by simp)
  · next opened hopened =>
    obtain rfl := Option.some.inj (hopen.symm.trans hopened)
    dsimp only
    split
    · next hnone => exact absurd (hclose.symm.trans hnone) (by simp)
    · next closed hclosed =>
      obtain rfl := Option.some.inj (hclose.symm.trans hclosed)
      rw [pushLevel_inner, hanswer]

/-- The levels of an array that is not empty are read one after the other. -/
lemma readLevels_cons (l : Level) (ls : List Level) {sep : List UInt8} (hsep : lbracket ∉ sep)
    (pairs : List (List UInt8 × List UInt8)) (rest : List UInt8) :
    readLevels (sep ++ (l.render ++ ((ls.flatMap fun l => comma :: l.render) ++
      rbracket :: rest))) pairs = some (pairs ++ (l :: ls).map Level.texts) := by
  induction ls generalizing l sep pairs with
  | nil =>
    rw [readLevels_level l hsep, List.flatMap_nil, List.nil_append, if_pos List.head?_cons,
      List.map_singleton]
  | cons l' ls ih =>
    have hcomma : lbracket ∉ [comma] := by decide
    have hgo : ¬ (((l' :: ls).flatMap fun l => comma :: l.render) ++ rbracket :: rest).head? =
        some rbracket := by
      rw [List.flatMap_cons, List.cons_append, List.cons_append, List.head?_cons]
      decide
    rw [readLevels_level l hsep, if_neg hgo, List.flatMap_cons, List.append_assoc,
      ← List.singleton_append, List.append_assoc, ih l' hcomma, List.append_assoc,
      List.singleton_append, List.map_cons]
    rfl

/-- The reader never answers with no levels. -/
lemma readLevels_ne_some_nil (text : List UInt8) (pairs : List (List UInt8 × List UInt8)) :
    readLevels text pairs ≠ some [] := by
  have hanswer : ∀ pairs, answer pairs ≠ some [] := by
    intro pairs h
    rw [answer] at h
    split at h
    · cases h
    · next hne => exact hne (Option.some.inj h)
  fun_induction readLevels text pairs with
  | case1 => exact hanswer _
  | case2 => simp
  | case3 => simp
  | case4 => exact hanswer _
  | case5 _ _ _ _ _ _ _ _ ih => exact ih

/-- An array field. -/
lemma extractPriceQuantityArray_member {key : List UInt8} (hkey : Searched key)
    {pre : List DepthMember} (hpre : ∀ m ∈ pre, m.key.bytes ≠ key) {m : DepthMember}
    (hm : m.key.bytes = key) {ls : List Level} (hvalue : m.value = .levels ls)
    (post : List DepthMember) :
    extractPriceQuantityArray (renderDepth (pre ++ m :: post)) key =
        some (ls.map Level.texts) ↔ ls ≠ [] := by
  cases ls with
  | nil =>
    refine iff_of_false (fun h => ?_) fun h => h rfl
    obtain ⟨found, -, hfound⟩ := Option.bind_eq_some_iff.mp h
    exact readLevels_ne_some_nil _ _ hfound
  | cons l ls =>
    refine iff_of_true ?_ (List.cons_ne_nil _ _)
    have hrender : m.value.render = [lbracket] ++
        (l.render ++ ((ls.flatMap fun l => comma :: l.render) ++ [rbracket])) := by
      rw [hvalue, DepthValue.render, List.map_cons, intercalate_comma_cons, List.flatMap_map,
        List.append_assoc]
      rfl
    have hlevels := readLevels_cons l ls (List.not_mem_nil (a := lbracket)) [] (depthTail post)
    rw [extractPriceQuantityArray, find_member hkey hpre hm hrender, Option.bind_some,
      List.append_assoc, List.append_assoc]
    exact hlevels

/-! ## The messages of the two formats -/

/-- The key `e`. -/
def keyE : List UInt8 := [101]

lemma escapeFree_keyE : EscapeFree keyE := by decide

lemma escapeFree_keyS : EscapeFree keyS := by decide

lemma escapeFree_keyU : EscapeFree keyU := by decide

lemma escapeFree_keyB : EscapeFree [keyB] := by decide

lemma escapeFree_keyA : EscapeFree [keyA] := by decide

lemma escapeFree_keyBids : EscapeFree keyBids := by decide

lemma escapeFree_keyAsks : EscapeFree keyAsks := by decide

/-- `depthUpdate`. -/
def depthUpdate : List UInt8 := [100, 101, 112, 116, 104, 85, 112, 100, 97, 116, 101]

lemma escapeFree_depthUpdate : EscapeFree depthUpdate := by decide

/-- The members of a depth update of the Binance format. -/
def binanceFields (symbol : JsonString) (updateId : Integer) (bids asks : List Level) :
    List DepthMember :=
  [⟨⟨keyE, escapeFree_keyE⟩, .text ⟨depthUpdate, escapeFree_depthUpdate⟩⟩,
    ⟨⟨keyS, escapeFree_keyS⟩, .text symbol⟩, ⟨⟨keyU, escapeFree_keyU⟩, .integer updateId⟩,
    ⟨⟨[keyB], escapeFree_keyB⟩, .levels bids⟩, ⟨⟨[keyA], escapeFree_keyA⟩, .levels asks⟩]

/-- The members of a depth snapshot of the generic format. -/
def genericFields (bids asks : List Level) : List DepthMember :=
  [⟨⟨keyBids, escapeFree_keyBids⟩, .levels bids⟩, ⟨⟨keyAsks, escapeFree_keyAsks⟩, .levels asks⟩]

/-- Keys that begin with a letter are searched rightly. -/
lemma searched_cons {k : UInt8} {key : List UInt8} (hplain : quote ∉ k :: key)
    (hk : k ≠ comma ∧ k ≠ colon ∧ k ≠ rbracket ∧ k ≠ rbrace) : Searched (k :: key) := by
  refine ⟨hplain, ?_⟩
  intro c rest h
  obtain ⟨rfl, -⟩ := List.cons.inj h
  exact hk

/-- The member with a key, in an object with distinct keys. -/
lemma exists_split {members : List DepthMember}
    (hnodup : (members.map fun m => m.key.bytes).Nodup) {m : DepthMember} (hm : m ∈ members) :
    ∃ pre post, members = pre ++ m :: post ∧ ∀ m' ∈ pre, m'.key.bytes ≠ m.key.bytes := by
  obtain ⟨pre, post, rfl⟩ := List.append_of_mem hm
  refine ⟨pre, post, rfl, ?_⟩
  rw [List.map_append, List.nodup_append] at hnodup
  intro m' hm'
  exact hnodup.2.2 _ (List.mem_map.mpr ⟨m', hm', rfl⟩) _ (by simp)

section Object

variable {members : List DepthMember} (hnodup : (members.map fun m => m.key.bytes).Nodup)
include hnodup

lemma extractStringField_of_mem {k : JsonString} (hk : Searched k.bytes) {s : JsonString}
    (hm : ⟨k, .text s⟩ ∈ members) :
    extractStringField (renderDepth members) k.bytes = some s.bytes := by
  obtain ⟨pre, post, rfl, hpre⟩ := exists_split hnodup hm
  exact extractStringField_member hk hpre rfl rfl post

lemma extractNumberField_of_mem {k : JsonString} (hk : Searched k.bytes) {n : Integer}
    (hm : ⟨k, .integer n⟩ ∈ members) :
    extractNumberField (renderDepth members) k.bytes = some n.value := by
  obtain ⟨pre, post, rfl, hpre⟩ := exists_split hnodup hm
  exact extractNumberField_member hk hpre rfl rfl post

lemma extractPriceQuantityArray_of_mem {k : JsonString} (hk : Searched k.bytes) {ls : List Level}
    (hm : ⟨k, .levels ls⟩ ∈ members) :
    extractPriceQuantityArray (renderDepth members) k.bytes = some (ls.map Level.texts) ↔
      ls ≠ [] := by
  obtain ⟨pre, post, rfl, hpre⟩ := exists_split hnodup hm
  exact extractPriceQuantityArray_member hk hpre rfl rfl post

end Object

/-- An update is returned exactly when both arrays are read. -/
lemma bind_map_eq_some_iff {readBids readAsks : Option (List (List UInt8 × List UInt8))}
    {bids asks : List (List UInt8 × List UInt8)} (symbol : List UInt8) (isSnapshot : Bool)
    (lastUpdateId : UInt64) :
    (readBids.bind fun bids => readAsks.map fun asks =>
        (⟨symbol, bids, asks, isSnapshot, lastUpdateId⟩ : ParsedBookUpdate)) =
        some ⟨symbol, bids, asks, isSnapshot, lastUpdateId⟩ ↔
      readBids = some bids ∧ readAsks = some asks := by
  cases readBids <;> cases readAsks <;> simp

lemma nodup_binanceKeys : [keyE, keyS, keyU, [keyB], [keyA]].Nodup := by decide

lemma nodup_genericKeys : [keyBids, keyAsks].Nodup := by decide

/-- A depth update of the Binance format, with its members in any order, and a snapshot of the
generic format, with its members in any order, are parsed as they stand exactly when both arrays
have a level. -/
theorem depthParsers_iff {symbol : JsonString} {updateId : Integer} {bids asks : List Level}
    {members members' : List DepthMember}
    (h : members.Perm (binanceFields symbol updateId bids asks))
    (h' : members'.Perm (genericFields bids asks)) :
    (parseBinanceDepthStatic (renderDepth members) =
        some ⟨symbol.bytes, bids.map Level.texts, asks.map Level.texts, false, updateId.value⟩ ↔
      bids ≠ [] ∧ asks ≠ []) ∧
    (parseGenericDepth (renderDepth members') =
        some ⟨[], bids.map Level.texts, asks.map Level.texts, true, 0⟩ ↔
      bids ≠ [] ∧ asks ≠ []) := by
  constructor
  · have hnodup : (members.map fun m => m.key.bytes).Nodup :=
      (h.map fun m : DepthMember => m.key.bytes).nodup_iff.mpr nodup_binanceKeys
    have hsymbol : extractStringField (renderDepth members) keyS = some symbol.bytes :=
      extractStringField_of_mem hnodup (k := ⟨keyS, escapeFree_keyS⟩)
        (searched_cons (by decide) (by decide)) (h.mem_iff.mpr (by simp [binanceFields]))
    have hid : extractNumberField (renderDepth members) keyU = some updateId.value :=
      extractNumberField_of_mem hnodup (k := ⟨keyU, escapeFree_keyU⟩)
        (searched_cons (by decide) (by decide)) (h.mem_iff.mpr (by simp [binanceFields]))
    have hbids : extractPriceQuantityArray (renderDepth members) [keyB] =
        some (bids.map Level.texts) ↔ bids ≠ [] :=
      extractPriceQuantityArray_of_mem hnodup (k := ⟨[keyB], escapeFree_keyB⟩)
        (searched_cons (by decide) (by decide)) (h.mem_iff.mpr (by simp [binanceFields]))
    have hasks : extractPriceQuantityArray (renderDepth members) [keyA] =
        some (asks.map Level.texts) ↔ asks ≠ [] :=
      extractPriceQuantityArray_of_mem hnodup (k := ⟨[keyA], escapeFree_keyA⟩)
        (searched_cons (by decide) (by decide)) (h.mem_iff.mpr (by simp [binanceFields]))
    rw [parseBinanceDepthStatic, hsymbol, Option.bind_some, hid, Option.bind_some,
      bind_map_eq_some_iff, hbids, hasks]
  · have hnodup : (members'.map fun m => m.key.bytes).Nodup :=
      (h'.map fun m : DepthMember => m.key.bytes).nodup_iff.mpr nodup_genericKeys
    have hbids : extractPriceQuantityArray (renderDepth members') keyBids =
        some (bids.map Level.texts) ↔ bids ≠ [] :=
      extractPriceQuantityArray_of_mem hnodup (k := ⟨keyBids, escapeFree_keyBids⟩)
        (searched_cons (by decide) (by decide)) (h'.mem_iff.mpr (by simp [genericFields]))
    have hasks : extractPriceQuantityArray (renderDepth members') keyAsks =
        some (asks.map Level.texts) ↔ asks ≠ [] :=
      extractPriceQuantityArray_of_mem hnodup (k := ⟨keyAsks, escapeFree_keyAsks⟩)
        (searched_cons (by decide) (by decide)) (h'.mem_iff.mpr (by simp [genericFields]))
    rw [parseGenericDepth, bind_map_eq_some_iff, hbids, hasks]

/-! ### Samples -/

lemma escapeFree_btc : EscapeFree [66, 84, 67] := by decide

/-- The symbol `BTC`. -/
def btc : JsonString := ⟨[66, 84, 67], escapeFree_btc⟩

/-- The digits of 12. -/
def twelveDigits : List (Fin 10) := [⟨1, one_lt_ten⟩, ⟨2, two_lt_ten⟩]

lemma twelveDigits_ne_nil : twelveDigits ≠ [] := List.cons_ne_nil _ _

lemma numeral_twelve_lt : numeral 0 (twelveDigits.map Fin.val) < 2 ^ 64 := by decide

/-- The update id 12. -/
def twelve : Integer := ⟨twelveDigits, twelveDigits_ne_nil, numeral_twelve_lt⟩

lemma plain_price : ∀ c ∈ ([49, 46, 53] : List UInt8), isDigit c = true ∨ c = dot := by
  simp [isDigit, dot]

lemma plain_qty : ∀ c ∈ ([50] : List UInt8), isDigit c = true ∨ c = dot := by
  simp [isDigit]

/-- The level with the price 1.5 and the quantity 2. -/
def sampleLevel : Level := ⟨⟨[49, 46, 53], plain_price⟩, ⟨[50], plain_qty⟩⟩

/-- Both formats with one level on each side and the members in the opposite order. -/
theorem depthParsers_reverse :
    parseBinanceDepthStatic
        (renderDepth (binanceFields btc twelve [sampleLevel] [sampleLevel]).reverse) =
      some ⟨[66, 84, 67], [([49, 46, 53], [50])], [([49, 46, 53], [50])], false, 12⟩ ∧
    parseGenericDepth (renderDepth (genericFields [sampleLevel] [sampleLevel]).reverse) =
      some ⟨[], [([49, 46, 53], [50])], [([49, 46, 53], [50])], true, 0⟩ := by
  have hboth : [sampleLevel] ≠ [] ∧ [sampleLevel] ≠ [] := by simp
  have hparsers := depthParsers_iff
    (List.reverse_perm (binanceFields btc twelve [sampleLevel] [sampleLevel]))
    (List.reverse_perm (genericFields [sampleLevel] [sampleLevel]))
  exact ⟨hparsers.1.mpr hboth, hparsers.2.mpr hboth⟩

/-- Without bids the reader takes the asks, with a bracket in front of the price. -/
theorem empty_bids_misread :
    parseBinanceDepthStatic (renderDepth (binanceFields btc twelve [] [sampleLevel])) =
      some ⟨[66, 84, 67], [([91, 34, 49, 46, 53], [50])], [([49, 46, 53], [50])], false, 12⟩ ∧
    parseBinanceDepthStatic (renderDepth (binanceFields btc twelve [] [sampleLevel])) ≠
      some ⟨btc.bytes, [], [sampleLevel].map Level.texts, false, twelve.value⟩ ∧
    parseGenericDepth (renderDepth (genericFields [sampleLevel] [])) = none := by
  decide +kernel

end StaticBookParser

end HftArb
