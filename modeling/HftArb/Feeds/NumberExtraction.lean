import HftArb.Feeds.PriceLiterals
import HftArb.Feeds.StringExtraction

/-!
# Extracting a number by its key

`extractNumberValue` searches the text for the quoted key, as `extractStringValue` does, and
collects the bytes behind the next colon, as long as they can belong to a number.  The parser of
`f64` is a parameter; `numberText` is what it is given.

A minus is collected only as the first byte, so that a literal with a negative exponent is cut
before its sign.  Every other literal is collected as a whole: `collectNumber_render`.
-/

namespace HftArb

open Numerals TextSearch TickerParser StaticBookParser
open OrderFeed (NumberLiteral Exponent)

namespace ZeroCopyParser

/-! ## The extraction -/

/-- `MAX_EXTRACTED_NUM_LEN`. -/
def maxExtractedNumLen : ℕ := 128

/-- The bytes that a number can go on with. -/
def isNumberByte (c : UInt8) : Bool := isDigit c || c == dot || c == 101 || c == 69 || c == 43

/-- The loop over the characters of a number, the one at position `i` first.  Nothing is returned
for a number that is too long. -/
def collectNumber (i : ℕ) (numStr : List UInt8) : List UInt8 → Option (List UInt8)
  | [] => some numStr
  | c :: rest =>
    if maxExtractedNumLen ≤ numStr.length then none
    else if i = 0 ∧ c = 45 then collectNumber (i + 1) (numStr ++ [c]) rest
    else if isNumberByte c = true then collectNumber (i + 1) (numStr ++ [c]) rest
    else some numStr

/-- The text of the number behind a key, which has some text before it. -/
def numberBehind (before afterKey : List UInt8) : Option (List UInt8) :=
  if afterKey.head?.any closesKey = false then none
  else if before.getLast?.all isBoundary = false then none
  else
    (find [colon] afterKey).bind fun (_, afterColon) =>
      collectNumber 0 [] (afterColon.dropWhile isAsciiWhitespace)

/-- The text that is handed to the parser of `f64`. -/
def numberText (text key : List UInt8) : Option (List UInt8) :=
  (find (quote :: (key ++ [quote])) text).bind fun (before, afterKey) =>
    numberBehind before afterKey

/-- The numeric value of a key. -/
def extractNumberValue {F : Type*} (parse : List UInt8 → Option F) (text key : List UInt8) :
    Option F :=
  (numberText text key).bind parse

/-- What is handed on when the key is met between two pieces of the text. -/
def numberAt (before : List UInt8) (behind : List (List UInt8)) : Option (List UInt8) :=
  numberBehind before ([quote].intercalate behind)

/-- Behind the last piece there is no key. -/
lemma numberAt_nil (before : List UInt8) : numberAt before [] = none := rfl

/-- The byte behind a key is the first one of the next piece. -/
lemma any_closesKey_intercalate (next : List UInt8) (ps : List (List UInt8)) :
    ([quote].intercalate (next :: ps)).head?.any closesKey = next.head?.any closesKey := by
  cases ps with
  | nil => rw [List.intercalate_singleton]
  | cons p ps => rw [intercalate_cons_quote, any_closesKey_append]

/-- A key that another byte follows is not read. -/
lemma numberAt_of_not_closes {next : List UInt8} (h : next.head?.any closesKey = false)
    (before : List UInt8) (ps : List (List UInt8)) : numberAt before (next :: ps) = none := by
  rw [numberAt, numberBehind, if_pos ((any_closesKey_intercalate next ps).trans h)]

/-- The number behind a key with its colon. -/
lemma numberAt_colonText {before : List UInt8} (h : before.getLast?.all isBoundary = true)
    (sp : Spacing) (piece : List UInt8) (ps : List (List UInt8)) :
    numberAt before ((sp.colonText ++ piece) :: ps) =
      collectNumber 0 [] (([quote].intercalate (piece :: ps)).dropWhile isAsciiWhitespace) := by
  have htext : [quote].intercalate ((sp.colonText ++ piece) :: ps) =
      colon :: (List.replicate sp.behindColon 32 ++ [quote].intercalate (piece :: ps)) := by
    cases ps with
    | nil => simp [Spacing.colonText]
    | cons p ps => simp [Spacing.colonText]
  have hcloses (rest : List UInt8) : (colon :: rest).head?.any closesKey = true := rfl
  have hfind (rest : List UInt8) : find [colon] (colon :: rest) = some ([], rest) :=
    find_append_self [colon] rest
  have hspaces (k : ℕ) (rest : List UInt8) :
      (List.replicate k 32 ++ rest).dropWhile isAsciiWhitespace =
        rest.dropWhile isAsciiWhitespace := by
    induction k with
    | zero => rfl
    | succ k ih =>
      rw [List.replicate_succ, List.cons_append, List.dropWhile_cons_of_pos (by decide), ih]
  rw [numberAt, htext, numberBehind, hcloses, if_neg (by decide), h, if_neg (by decide), hfind]
  exact congrArg (collectNumber 0 []) (hspaces _ _)

/-- The text of the number in an object, piece by piece. -/
lemma FlatObject.numberText_render (o : FlatObject) (key : List UInt8) :
    numberText o.render key =
      (find (key.splitOn quote) (pieces o.spacing o.members)).bind fun found =>
        numberAt ([quote].intercalate (openingPiece o.members :: found.1)) found.2 := by
  rw [FlatObject.render, renderFlat_eq, numberText,
    find_quoted key (quote_not_mem_openingPiece _) (quote_not_mem_pieces o.spacing)]
  cases find (key.splitOn quote) (pieces o.spacing o.members) with
  | none => rfl
  | some found =>
    by_cases hend : found.2 = []
    · simp [hend, numberAt_nil]
    · simp [hend, numberAt]

/-! ## The loop -/

section Loop

variable {numStr : List UInt8}

/-- A byte of the number is collected. -/
lemma collectNumber_cons {c : UInt8} (h : isNumberByte c = true)
    (hlength : numStr.length < maxExtractedNumLen) (i : ℕ) (rest : List UInt8) :
    collectNumber i numStr (c :: rest) = collectNumber (i + 1) (numStr ++ [c]) rest := by
  rw [collectNumber, if_neg (by omega), h, if_pos rfl, ite_self]

/-- The loop stops before any other byte. -/
lemma collectNumber_stop {c : UInt8} (h : isNumberByte c = false) {i : ℕ} (hi : i ≠ 0 ∨ c ≠ 45)
    (hlength : numStr.length < maxExtractedNumLen) (rest : List UInt8) :
    collectNumber i numStr (c :: rest) = some numStr := by
  rw [collectNumber, if_neg (by omega), if_neg (by tauto), h, if_neg (by decide)]

/-- The bytes of a number are collected up to the first other byte. -/
lemma collectNumber_append {taken : List UInt8} (htaken : ∀ c ∈ taken, isNumberByte c = true)
    {c : UInt8} (hc : isNumberByte c = false) {i : ℕ} (hi : i + taken.length ≠ 0 ∨ c ≠ 45)
    (hlength : numStr.length + taken.length < maxExtractedNumLen) (rest : List UInt8) :
    collectNumber i numStr (taken ++ c :: rest) = some (numStr ++ taken) := by
  induction taken generalizing i numStr with
  | nil =>
    rw [List.append_nil]
    exact collectNumber_stop hc hi hlength rest
  | cons b taken ih =>
    rw [List.length_cons] at hi hlength
    rw [List.cons_append, collectNumber_cons (htaken b List.mem_cons_self) (by omega),
      ih (fun c hmem => htaken c (List.mem_cons_of_mem _ hmem)) (by omega) (by simp; omega)]
    simp

end Loop

/-! ## The loop over a literal -/

/-- A digit belongs to a number. -/
lemma isNumberByte_digitByte (d : Fin 10) : isNumberByte (digitByte d) = true := by
  rw [isNumberByte, isDigit_digitByte]
  rfl

/-- The literal has an exponent with a minus. -/
def NegativeExponent (n : NumberLiteral) : Prop :=
  ∃ e, n.exponent = some e ∧ e.sign = [45]

/-- The sign of a literal. -/
def signText (n : NumberLiteral) : List UInt8 := if n.negative then [45] else []

/-- The integer and the fraction of a literal. -/
def decimalText (n : NumberLiteral) : List UInt8 :=
  n.integer.map digitByte ++ if n.fraction = [] then [] else dot :: n.fraction.map digitByte

/-- The exponent of a literal. -/
def exponentText (n : NumberLiteral) : List UInt8 := (n.exponent.map Exponent.render).getD []

/-- A literal as its parts. -/
lemma render_eq_parts (n : NumberLiteral) :
    n.render = signText n ++ (decimalText n ++ exponentText n) := by
  rw [NumberLiteral.render, NumberLiteral.suffix, decimalText, List.append_assoc]
  rfl

/-- Digits belong to a number. -/
lemma isNumberByte_of_mem_digits {ds : List (Fin 10)} :
    ∀ c ∈ ds.map digitByte, isNumberByte c = true := by
  intro c hc
  obtain ⟨d, -, rfl⟩ := List.mem_map.mp hc
  exact isNumberByte_digitByte d

/-- The bytes of the integer and of the fraction belong to a number. -/
lemma isNumberByte_of_mem_decimalText (n : NumberLiteral) :
    ∀ c ∈ decimalText n, isNumberByte c = true := by
  intro c hc
  rw [decimalText, List.mem_append] at hc
  rcases hc with hc | hc
  · exact isNumberByte_of_mem_digits c hc
  · split at hc
    · cases hc
    · rcases List.mem_cons.mp hc with rfl | hc
      · decide
      · exact isNumberByte_of_mem_digits c hc

/-- An exponent is bytes of a number and, when it is negative, a rest from the minus on. -/
lemma exists_exponentText_eq (n : NumberLiteral) :
    ∃ body tail, exponentText n = body ++ tail ∧ (∀ c ∈ body, isNumberByte c = true) ∧
      (¬ NegativeExponent n ∧ tail = [] ∨ NegativeExponent n ∧ ∃ ds, tail = 45 :: ds) := by
  unfold exponentText NegativeExponent
  cases n.exponent with
  | none => exact ⟨[], [], rfl, nofun, Or.inl ⟨nofun, rfl⟩⟩
  | some e =>
    have hmark : isNumberByte e.mark = true := by
      rcases e.mark_eq with h | h <;> rw [h] <;> decide
    by_cases hsign : e.sign = [45]
    · refine ⟨[e.mark], 45 :: e.digits.map digitByte, ?_, ?_, Or.inr ⟨⟨e, rfl, hsign⟩, _, rfl⟩⟩
      · simp [Exponent.render, hsign]
      · intro c hc
        rwa [List.mem_singleton.mp hc]
    · refine ⟨e.render, [], (List.append_nil _).symm, ?_, Or.inl ⟨?_, rfl⟩⟩
      · intro c hc
        rw [Exponent.render, List.mem_cons, List.mem_append] at hc
        rcases hc with rfl | hc | hc
        · exact hmark
        · rcases e.sign_eq with h | h | h
          · rw [h] at hc
            cases hc
          · rw [h, List.mem_singleton] at hc
            rw [hc]
            decide
          · exact absurd h hsign
        · exact isNumberByte_of_mem_digits c hc
      · rintro ⟨e', he, hminus⟩
        exact hsign (Option.some.inj he ▸ hminus)

/-- A literal is its sign, bytes of a number and, with a negative exponent, a rest from the minus
on. -/
lemma exists_render_eq (n : NumberLiteral) :
    ∃ body tail, n.render = signText n ++ (body ++ tail) ∧ body ≠ [] ∧
      (∀ c ∈ body, isNumberByte c = true) ∧
      (¬ NegativeExponent n ∧ tail = [] ∨ NegativeExponent n ∧ ∃ ds, tail = 45 :: ds) := by
  obtain ⟨body, tail, htext, hbody, htail⟩ := exists_exponentText_eq n
  refine ⟨decimalText n ++ body, tail, ?_, by simp [decimalText, n.integer_ne], ?_, htail⟩
  · rw [render_eq_parts, htext, List.append_assoc]
  · intro c hc
    rcases List.mem_append.mp hc with hc | hc
    · exact isNumberByte_of_mem_decimalText n c hc
    · exact hbody c hc

/-- What stands behind a value goes on with no number. -/
lemma exists_behind_eq (sp : Spacing) (ms : List FlatMember) :
    ∃ c rest, [quote].intercalate (afterValue sp ms :: pieces sp ms) = c :: rest ∧
      (c = comma ∨ c = rbrace) := by
  cases ms with
  | nil => exact ⟨rbrace, [], rfl, Or.inr rfl⟩
  | cons m ms =>
    rw [intercalate_pieces]
    exact ⟨comma, _, rfl, Or.inl rfl⟩

/-- The loop collects a literal as a whole exactly when its exponent is not negative. -/
lemma collectNumber_render {n : NumberLiteral}
    (hlength : n.render.length < maxExtractedNumLen) {c : UInt8} (hc : c = comma ∨ c = rbrace)
    (rest : List UInt8) :
    collectNumber 0 [] (n.render ++ c :: rest) = some n.render ↔ ¬ NegativeExponent n := by
  obtain ⟨body, tail, hrender, hne, hbody, htail⟩ := exists_render_eq n
  have hpos := List.length_pos_of_ne_nil hne
  -- the sign is collected because it is the first byte
  have hsign (text : List UInt8) : collectNumber 0 [] (signText n ++ text) =
      collectNumber (signText n).length (signText n) text := by
    cases hneg : n.negative with
    | false => simp [signText, hneg]
    | true =>
      have hpositive : maxExtractedNumLen ≠ 0 := by decide
      simp [signText, hneg, collectNumber, hpositive]
  have hcollect {b : UInt8} (hb : isNumberByte b = false) (rest : List UInt8) :
      collectNumber 0 [] (signText n ++ (body ++ b :: rest)) = some (signText n ++ body) := by
    rw [hrender] at hlength
    simp only [List.length_append] at hlength
    rw [hsign]
    exact collectNumber_append hbody hb (Or.inl (by omega)) (by omega) rest
  rw [hrender]
  rcases htail with ⟨hnot, rfl⟩ | ⟨hnegative, ds, rfl⟩
  · have hstop : isNumberByte c = false := by rcases hc with rfl | rfl <;> decide
    simp [hcollect hstop, hnot]
  · simp [hcollect (by decide : isNumberByte 45 = false), hnegative]

/-! ## Objects -/

/-- The key is present with a number as its value. -/
def FlatObject.HasNumber (o : FlatObject) (key : List UInt8) (n : NumberLiteral) : Prop :=
  ∃ m ∈ o.members, m.key.bytes = key ∧ m.value = .number n

/-- What is handed on at the member with the key. -/
def ownNumber (sp : Spacing) (m : FlatMember) (ms : List FlatMember) : Option (List UInt8) :=
  match m.value with
  | .string _ => some []
  | .number n =>
    collectNumber 0 [] (n.render ++ [quote].intercalate (afterValue sp ms :: pieces sp ms))

/-- The first byte of a literal is no space. -/
lemma dropWhile_render (n : NumberLiteral) (rest : List UInt8) :
    (n.render ++ rest).dropWhile isAsciiWhitespace = n.render ++ rest := by
  obtain ⟨c, text, htext, hc⟩ : ∃ c text, n.render = c :: text ∧ isAsciiWhitespace c = false := by
    rw [NumberLiteral.render]
    cases n.negative with
    | true => exact ⟨45, _, rfl, by decide⟩
    | false =>
      obtain ⟨d, ds, hds⟩ := List.exists_cons_of_ne_nil n.integer_ne
      have hdigits : ∀ d, isAsciiWhitespace (digitByte d) = false := by decide
      exact ⟨digitByte d, _, by rw [hds]; rfl, hdigits d⟩
  rw [htext, List.cons_append, List.dropWhile_cons_of_neg (by simp [hc])]

/-- The number of a plain key in an object. -/
lemma PlainKey.numberText_render {key : List UInt8} (h : PlainKey key) (o : FlatObject) :
    numberText o.render key = searchMembers (ownNumber o.spacing) key o.members := by
  rw [o.numberText_render, List.splitOn_eq_singleton h.plain]
  refine h.searchFrom_pieces ?_ (fun before next ps hnot => numberAt_of_not_closes hnot before ps)
    numberAt_nil (fun _ _ => trivial) (isBoundary_openingPiece o.members)
  intro before m ms hboundary _
  rw [FlatMember.pieces, ownNumber]
  cases m.value with
  | string s =>
    -- the quote of the string is no byte of a number
    have hread := numberAt_colonText hboundary o.spacing []
      (s.bytes :: afterValue o.spacing ms :: pieces o.spacing ms)
    rw [List.append_nil, intercalate_cons_quote] at hread
    exact hread.trans (collectNumber_stop (by decide) (Or.inr (by decide)) (by decide) _)
  | number n =>
    have htext : [quote].intercalate ((n.render ++ afterValue o.spacing ms) ::
        pieces o.spacing ms) =
          n.render ++ [quote].intercalate (afterValue o.spacing ms :: pieces o.spacing ms) := by
      cases pieces o.spacing ms with
      | nil => simp
      | cons p ps => simp
    have hread := numberAt_colonText hboundary o.spacing (n.render ++ afterValue o.spacing ms)
      (pieces o.spacing ms)
    rw [htext, dropWhile_render] at hread
    exact hread

/-! ## When the literal of the key is handed on -/

/-- The literal of the key, if it is short enough, is handed on as a whole, and without a number
nothing is returned. -/
def IsolatesNumber {F : Type*} (parse : List UInt8 → Option F) (o : FlatObject)
    (key : List UInt8) : Prop :=
  (∀ n, o.HasNumber key n → n.render.length < maxExtractedNumLen →
    numberText o.render key = some n.render) ∧
  ((∀ n, ¬ o.HasNumber key n) → extractNumberValue parse o.render key = none)

/-- The condition on the members around the key and on its literal: no string before it equals the
key, and its exponent is not negative. -/
def FlatObject.NumberReadable (o : FlatObject) (key : List UInt8) : Prop :=
  ∀ (pre : List FlatMember) (m : FlatMember) (post : List FlatMember) (n : NumberLiteral),
    o.members = pre ++ m :: post → m.key.bytes = key → m.value = .number n →
      n.render.length < maxExtractedNumLen → ¬ Shadowed pre key ∧ ¬ NegativeExponent n

/-- A text stands where the number of a key would: the pieces of the key occur first where the key
looks like a whole one, and the text is collected behind the next colon and its white space. -/
def FlatObject.CollectedBehind (o : FlatObject) (key text : List UInt8) : Prop :=
  ∃ before next rest ahead tail,
    FirstOccurrence (key.splitOn quote) (pieces o.spacing o.members) before (next :: rest) ∧
    o.LooksWhole before next ∧
    FirstOccurrence [colon] ([quote].intercalate (next :: rest)) ahead tail ∧
    collectNumber 0 [] (tail.dropWhile isAsciiWhitespace) = some text

/-- A key with a quote is no key of an object. -/
lemma FlatObject.not_hasNumber_of_quote (o : FlatObject) {key : List UInt8} (h : quote ∈ key)
    (n : NumberLiteral) : ¬ o.HasNumber key n := by
  rintro ⟨m, -, rfl, -⟩
  exact m.key.quote_not_mem h

/-- What is handed on behind a key. -/
lemma numberAt_eq_some_iff {before text : List UInt8} {behind : List (List UInt8)} :
    numberAt before behind = some text ↔ ∃ next rest ahead tail, behind = next :: rest ∧
      before.getLast?.all isBoundary = true ∧ next.head?.any closesKey = true ∧
        FirstOccurrence [colon] ([quote].intercalate (next :: rest)) ahead tail ∧
          collectNumber 0 [] (tail.dropWhile isAsciiWhitespace) = some text := by
  cases behind with
  | nil => simp [numberAt_nil]
  | cons next rest =>
    rw [numberAt, numberBehind, any_closesKey_intercalate, Option.ite_none_left_eq_some,
      Option.ite_none_left_eq_some, Option.bind_eq_some_iff, Bool.not_eq_false,
      Bool.not_eq_false]
    constructor
    · rintro ⟨hnext, hbefore, ⟨ahead, tail⟩, hfind, hcollect⟩
      exact ⟨next, rest, ahead, tail, rfl, hbefore, hnext, find_eq_some_iff.mp hfind, hcollect⟩
    · rintro ⟨next', rest', ahead, tail, heq, hbefore, hnext, hfirst, hcollect⟩
      obtain ⟨rfl, rfl⟩ := heq
      exact ⟨hnext, hbefore, ⟨ahead, tail⟩, find_eq_some_iff.mpr hfirst, hcollect⟩

/-- What is handed on is the text that stands where the number of the key would. -/
lemma FlatObject.numberText_eq_some_iff (o : FlatObject) (key text : List UInt8) :
    numberText o.render key = some text ↔ o.CollectedBehind key text := by
  rw [o.numberText_render, Option.bind_eq_some_iff]
  constructor
  · rintro ⟨⟨before, behind⟩, hfind, hread⟩
    obtain ⟨next, rest, ahead, tail, rfl, hbefore, hnext, hfirst, hcollect⟩ :=
      numberAt_eq_some_iff.mp hread
    exact ⟨before, next, rest, ahead, tail, find_eq_some_iff.mp hfind, ⟨hbefore, hnext⟩, hfirst,
      hcollect⟩
  · rintro ⟨before, next, rest, ahead, tail, hfind, ⟨hbefore, hnext⟩, hfirst, hcollect⟩
    exact ⟨_, find_eq_some_iff.mpr hfind,
      numberAt_eq_some_iff.mpr ⟨next, rest, ahead, tail, rfl, hbefore, hnext, hfirst, hcollect⟩⟩

/-- Nothing that is a number stands where that of the key would. -/
def FlatObject.NoNumberBehind {F : Type*} (parse : List UInt8 → Option F) (o : FlatObject)
    (key : List UInt8) : Prop :=
  ∀ text, o.CollectedBehind key text → parse text = none

lemma FlatObject.extractNumberValue_eq_none_iff {F : Type*} (parse : List UInt8 → Option F)
    (o : FlatObject) (key : List UInt8) :
    extractNumberValue parse o.render key = none ↔ o.NoNumberBehind parse key := by
  simp only [extractNumberValue, Option.bind_eq_none_iff, o.numberText_eq_some_iff,
    FlatObject.NoNumberBehind]

/-- The literal of a member is handed on exactly when it is met and its exponent is not negative. -/
lemma PlainKey.numberText_eq_iff {o : FlatObject} {pre post : List FlatMember} {m : FlatMember}
    {n : NumberLiteral} (h : PlainKey m.key.bytes) (hsplit : o.members = pre ++ m :: post)
    (hvalue : m.value = .number n) (hlength : n.render.length < maxExtractedNumLen) :
    numberText o.render m.key.bytes = some n.render ↔
      ¬ Shadowed pre m.key.bytes ∧ ¬ NegativeExponent n := by
  rw [h.numberText_render]
  rcases o.searchMembers_split (ownNumber o.spacing) hsplit with
    ⟨hshadow, hsearch⟩ | ⟨hshadow, hsearch⟩
  · simp [hsearch, hshadow]
  · obtain ⟨c, rest, hbehind, hc⟩ := exists_behind_eq o.spacing post
    rw [hsearch, ownNumber, hvalue, hbehind]
    simp only [collectNumber_render hlength hc, hshadow, not_false_eq_true, true_and]

/-- Nothing is returned for a plain key without a number. -/
lemma PlainKey.extractNumberValue_eq_none {F : Type*} {parse : List UInt8 → Option F}
    (hparse : parse [] = none) {key : List UInt8} (h : PlainKey key) {o : FlatObject}
    (hnone : ∀ n, ¬ o.HasNumber key n) : extractNumberValue parse o.render key = none := by
  rw [extractNumberValue, h.numberText_render]
  by_cases hpresent : ∃ m ∈ o.members, m.key.bytes = key
  · obtain ⟨m, hm, rfl⟩ := hpresent
    obtain ⟨pre, post, hsplit⟩ := List.append_of_mem hm
    rcases o.searchMembers_split (ownNumber o.spacing) hsplit with ⟨-, hsearch⟩ | ⟨-, hsearch⟩
    · rw [hsearch]
      rfl
    · rw [hsearch, ownNumber]
      cases hvalue : m.value with
      | string s => exact hparse
      | number n => exact absurd ⟨m, hm, rfl, hvalue⟩ (hnone n)
  · push Not at hpresent
    rw [searchMembers_eq_none hpresent]
    rfl

/-- The number of a plain key is isolated exactly when the members before it let it be met and its
exponent is not negative. -/
lemma PlainKey.isolates_iff {F : Type*} {parse : List UInt8 → Option F} (hparse : parse [] = none)
    {key : List UInt8} (h : PlainKey key) (o : FlatObject) :
    IsolatesNumber parse o key ↔ o.NumberReadable key := by
  constructor
  · rintro ⟨hliteral, -⟩ pre m post n hsplit rfl hvalue hlength
    have hm : m ∈ o.members := by simp [hsplit]
    exact (h.numberText_eq_iff hsplit hvalue hlength).mp
      (hliteral n ⟨m, hm, rfl, hvalue⟩ hlength)
  · intro hreadable
    refine ⟨?_, h.extractNumberValue_eq_none hparse⟩
    rintro n ⟨m, hm, rfl, hvalue⟩ hlength
    obtain ⟨pre, post, hsplit⟩ := List.append_of_mem hm
    exact (h.numberText_eq_iff hsplit hvalue hlength).mpr
      (hreadable pre m post n hsplit rfl hvalue hlength)

/-- The literal of a key is handed on as a whole, and nothing is returned without one, exactly under
these conditions: on the members around a plain key; for a key with a quote, that no number stands
where its own would; for any other key, that its literal stands there, or no number without one. -/
theorem extractNumberValue_iff {F : Type*} (parse : List UInt8 → Option F)
    (hparse : parse [] = none) (o : FlatObject) (key : List UInt8) :
    IsolatesNumber parse o key ↔
      (PlainKey key → o.NumberReadable key) ∧
      (quote ∈ key → o.NoNumberBehind parse key) ∧
      (¬ PlainKey key → quote ∉ key →
        (∀ n, o.HasNumber key n → n.render.length < maxExtractedNumLen →
          o.CollectedBehind key n.render) ∧
        ((∀ n, ¬ o.HasNumber key n) → o.NoNumberBehind parse key)) := by
  by_cases hplain : PlainKey key
  · rw [hplain.isolates_iff hparse o]
    refine ⟨fun hown => ⟨fun _ => hown, ?_, fun hnot => absurd hplain hnot⟩, fun h => h.1 hplain⟩
    exact fun hquote => absurd hquote hplain.plain
  rw [IsolatesNumber, o.extractNumberValue_eq_none_iff parse]
  simp only [o.numberText_eq_some_iff]
  by_cases hquote : quote ∈ key
  · have hnone := o.not_hasNumber_of_quote hquote
    constructor
    · rintro ⟨-, h⟩
      exact ⟨fun hnot => absurd hnot hplain, fun _ => h hnone, fun _ hnot => absurd hquote hnot⟩
    · rintro ⟨-, h, -⟩
      exact ⟨fun n hn => absurd hn (hnone n), fun _ => h hquote⟩
  · exact ⟨fun h => ⟨fun hnot => absurd hnot hplain, fun hnot => absurd hnot hquote, fun _ _ => h⟩,
      fun h => h.2.2 hplain hquote⟩

/-- A parser of whole numbers that returns rationals. -/
def parseWhole (bytes : List UInt8) : Option ℚ := (parseU64 bytes).map fun v => v.toNat

/-- The key `t` of `{"t":5,"s":"x"}` meets the condition. -/
theorem extractNumberValue_iff_numeric : IsolatesNumber parseWhole numericObject [116] := by
  refine (extractNumberValue_iff parseWhole rfl numericObject [116]).mpr
    ⟨fun _ => ?_, fun hquote => absurd hquote (by decide),
      fun hnot => absurd ⟨by decide, by decide⟩ hnot⟩
  intro pre m post n hsplit hkey hvalue _
  cases pre with
  | nil =>
    obtain ⟨rfl, -⟩ := List.cons.inj hsplit
    obtain rfl := FlatValue.number.inj hvalue
    exact ⟨fun ⟨_, hmem, _⟩ => absurd hmem List.not_mem_nil, fun ⟨_, he, _⟩ => nomatch he⟩
  | cons m' pre =>
    have hmem : m ∈ numericMembers.tail := by
      rw [show numericMembers = m' :: pre ++ m :: post from hsplit]
      simp
    obtain rfl := List.mem_singleton.mp hmem
    exact absurd hkey (by decide)

/-- The members of an object with one number, in scientific notation. -/
def scientificMembers : List FlatMember := [⟨letterT, .number NumberLiteral.scientific⟩]

/-- The members `"a":"t"` and `"t":5`. -/
def shadowedNumberMembers : List FlatMember :=
  ⟨⟨[97], escapeFree_a⟩, .string letterT⟩ :: numericMembers.take 1

lemma distinct_scientificMembers : (scientificMembers.map fun m => m.key.bytes).Nodup := by decide

lemma distinct_shadowedNumberMembers :
    (shadowedNumberMembers.map fun m => m.key.bytes).Nodup := by decide

lemma short_scientificMembers : ∀ m ∈ scientificMembers, ∀ s, m.value = .string s →
    s.bytes.length ≤ maxExtractedStringLen := by
  intro m hm s hs
  obtain rfl := List.mem_singleton.mp hm
  cases hs

lemma short_shadowedNumberMembers : ∀ m ∈ shadowedNumberMembers, ∀ s, m.value = .string s →
    s.bytes.length ≤ maxExtractedStringLen := by
  intro m hm s hs
  fin_cases hm
  · obtain rfl := FlatValue.string.inj hs
    decide
  · cases hs

/-- A compact object with a negative exponent. -/
def scientificObject : FlatObject :=
  ⟨⟨0, 0⟩, scientificMembers, distinct_scientificMembers, short_scientificMembers⟩

/-- A compact object in which a string before the key of a number equals it. -/
def shadowedNumberObject : FlatObject :=
  ⟨⟨0, 0⟩, shadowedNumberMembers, distinct_shadowedNumberMembers, short_shadowedNumberMembers⟩

/-- A literal is cut before the minus of its exponent: `1.5e-3` is handed on as `1.5e`.  A number is
missed when a string before it equals its key. -/
theorem number_extraction_fails :
    (∃ n, scientificObject.HasNumber [116] n ∧ n.render.length < maxExtractedNumLen ∧
      numberText scientificObject.render [116] = some [49, 46, 53, 101] ∧
      n.render = [49, 46, 53, 101, 45, 51]) ∧
    ∃ n, shadowedNumberObject.HasNumber [116] n ∧ n.render.length < maxExtractedNumLen ∧
      numberText shadowedNumberObject.render [116] = none := by
  refine ⟨⟨NumberLiteral.scientific, ⟨_, List.mem_singleton_self _, rfl, rfl⟩, by decide,
    by decide +kernel, by decide⟩, ?_⟩
  refine ⟨_, ⟨_, List.mem_cons_of_mem _ List.mem_cons_self, rfl, rfl⟩, by decide, ?_⟩
  decide +kernel

end ZeroCopyParser

end HftArb
