import HftArb.Feeds.PrivateFeed
import HftArb.Feeds.StringExtraction

/-!
# Execution reports of the private feed

`parse_execution_report` searches a message for one-letter keys, without regard to its structure.
In a compact flat object the search is met by the members only: behind the quote that closes a
string there is a colon, a comma or a brace, and only a key is followed by a colon.

Strings are kept as they are.  A number is no text for `extract_json_string`, which goes on with the
search, and `extract_json_f64` stops at the exponent of a number.  `keepsFields_iff` says which
reports keep their fields all the same.
-/

namespace HftArb

open TickerParser ZeroCopyParser OrderFeed

namespace PrivateFeed

/-! ## Reports -/

/-- The text of a value: the content of a string, the literal of a number. -/
def content : FlatValue → List UInt8
  | .string s => s.bytes
  | .number n => n.render

/-- A compact flat object with distinct keys, whose strings are texts. -/
structure FlatReport where
  members : List FlatMember
  distinct : (members.map fun m => m.key.bytes).Nodup
  valid : ∀ m ∈ members, ∀ s, m.value = .string s → Utf8.Valid s.bytes

namespace FlatReport

/-- The report as it is written. -/
def render (r : FlatReport) : List UInt8 := renderFlat ⟨0, 0⟩ r.members

/-- The value of a one-letter key. -/
def valueOf (r : FlatReport) (key : UInt8) : Option FlatValue :=
  (r.members.find? fun m => m.key.bytes = [key]).map FlatMember.value

/-- The text of the value of a one-letter key. -/
def textOf (r : FlatReport) (key : UInt8) : Option (List UInt8) := (r.valueOf key).map content

/-- What the report says, read with a parser of floating-point numbers. -/
def report {F : Type} (float : FloatOps F) (r : FlatReport) : ExecutionReport F where
  orderId := (r.textOf 105).getD []
  clientOrderId := r.textOf 99
  symbol := (r.textOf 115).getD []
  side := (r.textOf 83).getD []
  filledQuantity := ((r.textOf 108).bind float.parse).getD float.zero
  avgPrice := ((r.textOf 76).bind float.parse).getD float.zero
  status := (r.textOf 88).getD []
  timestamp := float.toU64 (((r.textOf 84).bind float.parse).getD float.zero)
  commission := ((r.textOf 110).bind float.parse).getD float.zero
  commissionAsset := (r.textOf 78).getD []

/-- The report is parsed to what it says, whatever is done with the texts of its numbers. -/
def KeepsFields (r : FlatReport) : Prop :=
  ∀ (F : Type) (float : FloatOps F), parseExecutionReport float r.render = r.report float

/-- The keys of the texts. -/
def textKeys : List UInt8 := [105, 99, 115, 83, 88, 78]

/-- The keys of the numbers. -/
def numberKeys : List UInt8 := [108, 76, 110, 84]

/-- The texts are strings, and the numbers are in quotes or have no exponents. -/
structure Quoted (r : FlatReport) : Prop where
  text : ∀ key ∈ textKeys, ∀ n, r.valueOf key ≠ some (.number n)
  number : ∀ key ∈ numberKeys, ∀ n, r.valueOf key = some (.number n) → n.exponent = none

end FlatReport

/-! ## The search -/

/-- A byte that is no punctuation of an object. -/
def IsLetter (key : UInt8) : Prop := key ≠ quote ∧ key ≠ colon ∧ key ≠ comma ∧ key ≠ rbrace

instance (key : UInt8) : Decidable (IsLetter key) :=
  inferInstanceAs (Decidable (key ≠ quote ∧ key ≠ colon ∧ key ≠ comma ∧ key ≠ rbrace))

/-- What stands behind the value of a member. -/
def renderRest : List FlatMember → List UInt8
  | [] => [rbrace]
  | m :: ms => comma :: (m.render ⟨0, 0⟩ ++ renderRest ms)

/-- What stands behind a value starts with a comma or a brace. -/
lemma renderRest_eq (ms : List FlatMember) :
    ∃ c rest, renderRest ms = c :: rest ∧ (c = comma ∨ c = rbrace) := by
  cases ms with
  | nil => exact ⟨rbrace, [], rfl, Or.inr rfl⟩
  | cons m ms => exact ⟨comma, _, rfl, Or.inl rfl⟩

section Search

variable {isSpace accepts : UInt8 → Bool} {key : UInt8}

/-- The search for a value, from the start of a text. -/
lemma findValue_skip {bytes : List UInt8} (h : quote ∉ bytes) (rest : List UInt8) :
    findValue isSpace accepts key .seek (bytes ++ rest) =
      findValue isSpace accepts key .seek rest := by
  induction bytes with
  | nil => rfl
  | cons c bytes ih =>
    have hc : restart c = .seek := if_neg fun hquote => h (by simp_all)
    rw [List.cons_append, findValue, hc, ih fun hmem => h (List.mem_cons_of_mem _ hmem)]

/-- Behind a string the search stands at its closing quote, which is that of the key or a new
quote. -/
lemma findValue_string (hkey : key ≠ quote) {s : List UInt8} (hs : quote ∉ s)
    (rest : List UInt8) :
    findValue isSpace accepts key .seek (quote :: (s ++ quote :: rest)) =
      findValue isSpace accepts key (if s = [key] then .name else .quote) rest := by
  have hseek : ∀ bytes : List UInt8, quote ∉ bytes →
      findValue isSpace accepts key .seek (bytes ++ quote :: rest) =
        findValue isSpace accepts key .quote rest := fun bytes h => findValue_skip h _
  have hstart : findValue isSpace accepts key .seek (quote :: (s ++ quote :: rest)) =
      findValue isSpace accepts key .quote (s ++ quote :: rest) := rfl
  rw [hstart]
  cases s with
  | nil =>
    rw [if_neg (List.cons_ne_nil _ _).symm, List.nil_append, findValue,
      if_neg (by simpa using hkey.symm)]
    rfl
  | cons c s =>
    have hc : restart c = .seek := if_neg fun hquote => hs (by simp_all)
    rw [List.cons_append, findValue]
    by_cases hkeyed : c = key
    · rw [if_pos (by simpa using hkeyed)]
      cases s with
      | nil => rw [if_pos (congrArg (fun c => [c]) hkeyed)]; rfl
      | cons c' s =>
        have hc' : (c' == quote) = false := by
          rw [beq_eq_false_iff_ne]
          rintro rfl
          exact hs (by simp)
        rw [if_neg (by simp), List.cons_append, findValue, hc']
        exact hseek s fun hmem => hs (by simp [hmem])
    · rw [if_neg (by simpa using hkeyed), if_neg (by simp [hkeyed]), hc]
      exact hseek s fun hmem => hs (List.mem_cons_of_mem _ hmem)

/-- Behind a quote, punctuation starts the search again. -/
lemma findValue_quote (hkey : IsLetter key) {c : UInt8}
    (hc : c = colon ∨ c = comma ∨ c = rbrace) (rest : List UInt8) :
    findValue isSpace accepts key .quote (c :: rest) =
      findValue isSpace accepts key .seek rest := by
  obtain ⟨-, hcolon, hcomma, hrbrace⟩ := hkey
  have hrestart : restart c = .seek := by
    rcases hc with rfl | rfl | rfl <;> rfl
  have hne : c ≠ key := by
    rcases hc with rfl | rfl | rfl
    exacts [hcolon.symm, hcomma.symm, hrbrace.symm]
  rw [findValue, if_neg (by simpa using hne), hrestart]

/-- A string value is skipped, also when it is the key. -/
lemma findValue_stringValue (hkey : IsLetter key) (s : JsonString) (ms : List FlatMember) :
    findValue isSpace accepts key .seek (s.render ++ renderRest ms) =
      findValue isSpace accepts key .seek (renderRest ms) := by
  obtain ⟨c, rest, hrest, hc⟩ := renderRest_eq ms
  have hstop : findValue isSpace accepts key .seek (c :: rest) =
      findValue isSpace accepts key .seek rest := by
    rcases hc with rfl | rfl <;> rfl
  rw [hrest, s.render_append, findValue_string hkey.1 s.quote_not_mem, hstop]
  split_ifs
  · rcases hc with rfl | rfl <;> rfl
  · exact findValue_quote hkey (Or.inr hc) rest

/-- Any value is skipped. -/
lemma findValue_value (hkey : IsLetter key) (v : FlatValue) (ms : List FlatMember) :
    findValue isSpace accepts key .seek (v.render ++ renderRest ms) =
      findValue isSpace accepts key .seek (renderRest ms) := by
  cases v with
  | string s => exact findValue_stringValue hkey s ms
  | number n => exact findValue_skip n.quote_not_mem _

/-- At a member the search reads its value or goes on behind it. -/
lemma findValue_member (hkey : IsLetter key) (m : FlatMember) (ms : List FlatMember) :
    findValue isSpace accepts key .seek (m.render ⟨0, 0⟩ ++ renderRest ms) =
      if m.key.bytes = [key] then
        findValue isSpace accepts key .colon (m.value.render ++ renderRest ms)
      else findValue isSpace accepts key .seek (renderRest ms) := by
  have hrender : m.render ⟨0, 0⟩ ++ renderRest ms =
      quote :: (m.key.bytes ++ quote :: colon :: (m.value.render ++ renderRest ms)) := by
    simp [FlatMember.render, JsonString.render, Spacing.colonText]
  rw [hrender, findValue_string hkey.1 m.key.quote_not_mem]
  split_ifs
  · rfl
  · rw [findValue_quote hkey (Or.inl rfl), findValue_value hkey]

/-- Without the key there is nothing to find. -/
lemma findValue_renderRest_eq_none (hkey : IsLetter key) {ms : List FlatMember}
    (h : ∀ m ∈ ms, m.key.bytes ≠ [key]) :
    findValue isSpace accepts key .seek (renderRest ms) = none := by
  induction ms with
  | nil => rfl
  | cons m ms ih =>
    have hcomma : findValue isSpace accepts key .seek (renderRest (m :: ms)) =
        findValue isSpace accepts key .seek (m.render ⟨0, 0⟩ ++ renderRest ms) := rfl
    rw [hcomma, findValue_member hkey, if_neg (h m List.mem_cons_self)]
    exact ih fun m' hm' => h m' (List.mem_cons_of_mem _ hm')

/-- The search stops at the first member with the key. -/
lemma findValue_renderRest (hkey : IsLetter key) {pre : List FlatMember}
    (h : ∀ m ∈ pre, m.key.bytes ≠ [key]) {m : FlatMember} (hm : m.key.bytes = [key])
    (post : List FlatMember) :
    findValue isSpace accepts key .seek (renderRest (pre ++ m :: post)) =
      findValue isSpace accepts key .colon (m.value.render ++ renderRest post) := by
  have hcomma : ∀ m' ms, findValue isSpace accepts key .seek (renderRest (m' :: ms)) =
      findValue isSpace accepts key .seek (m'.render ⟨0, 0⟩ ++ renderRest ms) := fun _ _ => rfl
  induction pre with
  | nil => rw [List.nil_append, hcomma, findValue_member hkey, if_pos hm]
  | cons m' pre ih =>
    rw [List.cons_append, hcomma, findValue_member hkey, if_neg (h m' List.mem_cons_self)]
    exact ih fun m'' hm'' => h m'' (List.mem_cons_of_mem _ hm'')

namespace FlatReport

variable (r : FlatReport)

/-- The opening brace is skipped like a comma. -/
lemma findValue_render :
    findValue isSpace accepts key .seek r.render =
      findValue isSpace accepts key .seek (renderRest r.members) := by
  cases hmembers : r.members with
  | nil => rw [render, hmembers]; rfl
  | cons m ms =>
    have htext : renderFlat ⟨0, 0⟩ (m :: ms) = lbrace :: (m.render ⟨0, 0⟩ ++ renderRest ms) :=
      congrArg (lbrace :: ·)
        (TextSearch.intercalate_map_append renderRest rfl (fun _ _ => rfl) m ms)
    rw [render, hmembers, htext]
    rfl

/-- The search finds the value of the key, with members behind it that do not have the key. -/
lemma findValue_cases (hkey : IsLetter key) :
    r.valueOf key = none ∧ findValue isSpace accepts key .seek r.render = none ∨
      ∃ v ms, r.valueOf key = some v ∧ (∀ s, v = .string s → Utf8.Valid s.bytes) ∧
        (∀ m ∈ ms, m.key.bytes ≠ [key]) ∧
        findValue isSpace accepts key .seek r.render =
          findValue isSpace accepts key .colon (v.render ++ renderRest ms) := by
  rw [findValue_render]
  cases hfind : r.members.find? fun m => m.key.bytes = [key] with
  | none =>
    refine Or.inl ⟨by rw [valueOf, hfind]; rfl, findValue_renderRest_eq_none hkey fun m hm => ?_⟩
    exact fun heq => List.find?_eq_none.mp hfind m hm (decide_eq_true heq)
  | some m =>
    obtain ⟨hm, pre, post, hmembers, hpre⟩ := List.find?_eq_some_iff_append.mp hfind
    have hbytes : m.key.bytes = [key] := of_decide_eq_true hm
    have hvalid := r.valid m (by rw [hmembers]; simp)
    have hdistinct := r.distinct
    rw [hmembers, List.map_append, List.map_cons, List.nodup_append, List.nodup_cons] at hdistinct
    refine Or.inr ⟨m.value, post, by rw [valueOf, hfind]; rfl, hvalid, fun m' hm' heq => ?_, ?_⟩
    · exact hdistinct.2.1.1 (List.mem_map.mpr ⟨m', hm', heq.trans hbytes.symm⟩)
    · rw [hmembers]
      exact findValue_renderRest hkey (fun m' hm' heq => by simpa [heq] using hpre m' hm') hbytes
        post

end FlatReport

end Search

/-! ## The extractions -/

/-- The bytes of a number that are read. -/
def isNumberByte (c : UInt8) : Bool := isDigit c || c == dot || c == 45

/-- The text of a value that is read as a number. -/
def numberText : FlatValue → List UInt8
  | .string s => s.bytes
  | .number n => n.render.takeWhile isNumberByte

/-- A string is read up to its closing quote. -/
lemma quotedText_append {s : List UInt8} (hs : quote ∉ s) (hvalid : Utf8.Valid s)
    (rest : List UInt8) : quotedText (s ++ quote :: rest) = some s := by
  have hbody : (s ++ quote :: rest).takeWhile (· ≠ quote) = s := by
    rw [takeWhile_append_cons (by simp), List.takeWhile_eq_self_iff]
    intro c hc
    exact decide_eq_true fun hquote => hs (hquote ▸ hc)
  rw [quotedText, hbody, if_neg (by simp), if_pos hvalid]

/-- A number begins with a digit or a minus sign. -/
lemma exists_numberLiteral_eq (n : NumberLiteral) :
    ∃ c rest, n.render = c :: rest ∧ (c = 45 ∨ isDigit c = true) := by
  rw [NumberLiteral.render]
  cases n.negative with
  | true => exact ⟨45, _, rfl, Or.inl rfl⟩
  | false =>
    obtain ⟨d, ds, hinteger⟩ := List.exists_cons_of_ne_nil n.integer_ne
    exact ⟨digitByte d, ds.map digitByte ++ n.suffix, by simp [hinteger],
      Or.inr (isDigit_digitByte d)⟩

/-- The first byte of a number is neither a space nor a quote. -/
lemma ne_of_numberStart {c : UInt8} (h : c = 45 ∨ isDigit c = true) :
    c ≠ 32 ∧ c ≠ 10 ∧ c ≠ quote := by
  refine ⟨?_, ?_, ?_⟩ <;> rintro rfl <;> exact absurd h (by decide)

/-- A number is read as a whole exactly when it has no exponent. -/
lemma takeWhile_numberLiteral_iff (n : NumberLiteral) :
    n.render.takeWhile isNumberByte = n.render ↔ n.exponent = none := by
  have hdigits : ∀ ds : List (Fin 10), ∀ c ∈ ds.map digitByte, isNumberByte c = true := by
    intro ds c hc
    obtain ⟨d, -, rfl⟩ := List.mem_map.mp hc
    rw [isNumberByte, isDigit_digitByte]
    rfl
  rw [List.takeWhile_eq_self_iff, NumberLiteral.render, NumberLiteral.suffix]
  cases hexponent : n.exponent with
  | none =>
    refine iff_of_true (fun c hc => ?_) rfl
    rw [Option.map_none, Option.getD_none, List.append_nil, List.mem_append, List.mem_append] at hc
    rcases hc with hc | hc | hc
    · split at hc
      · rw [List.mem_singleton.mp hc]; rfl
      · cases hc
    · exact hdigits n.integer c hc
    · split at hc
      · cases hc
      · rcases List.mem_cons.mp hc with rfl | hc
        exacts [rfl, hdigits n.fraction c hc]
  | some e =>
    refine iff_of_false (fun hall => ?_) (by simp)
    have hmark := hall e.mark (by simp [Exponent.render])
    rcases e.mark_eq with h | h <;> rw [h] at hmark <;> exact absurd hmark (by decide)

namespace FlatReport

variable (r : FlatReport) {key : UInt8}

/-- A string is extracted, a number is not. -/
lemma extractJsonString_render (hkey : IsLetter key) :
    extractJsonString r.render key = (r.valueOf key).bind FlatValue.text := by
  rw [extractJsonString]
  rcases r.findValue_cases hkey with ⟨hnone, hfind⟩ | ⟨v, ms, hvalue, hvalid, hms, hfind⟩
  · rw [hfind, hnone]
    rfl
  · rw [hfind, hvalue]
    cases v with
    | string s =>
      rw [FlatValue.render, s.render_append]
      exact quotedText_append s.quote_not_mem (hvalid s rfl) _
    | number n =>
      obtain ⟨c, rest, hrender, hc⟩ := exists_numberLiteral_eq n
      obtain ⟨hspace, -, hquote⟩ := ne_of_numberStart hc
      have hrest : quote ∉ rest := fun hmem =>
        n.quote_not_mem (hrender ▸ List.mem_cons_of_mem _ hmem)
      have hrestart : restart c = .seek := if_neg (by simpa using hquote)
      rw [FlatValue.render, hrender, List.cons_append, findValue, if_neg (by simpa using hspace),
        if_neg (by simpa using hquote), hrestart, findValue_skip hrest,
        findValue_renderRest_eq_none hkey hms]
      rfl

/-- The text that is handed to the parser of numbers. -/
lemma extractJsonF64_render {F : Type} (float : FloatOps F) (hkey : IsLetter key) :
    extractJsonF64 float r.render key = ((r.valueOf key).map numberText).bind float.parse := by
  rw [extractJsonF64]
  rcases r.findValue_cases hkey with ⟨hnone, hfind⟩ | ⟨v, ms, hvalue, hvalid, hms, hfind⟩
  · rw [hfind, hnone]
    rfl
  · rw [hfind, hvalue]
    cases v with
    | string s =>
      have htext := quotedText_append s.quote_not_mem (hvalid s rfl) (renderRest ms)
      rw [FlatValue.render, s.render_append]
      exact congrArg (Option.bind · float.parse) htext
    | number n =>
      obtain ⟨c, rest, hrender, hc⟩ := exists_numberLiteral_eq n
      obtain ⟨hspace, hnewline, hquote⟩ := ne_of_numberStart hc
      obtain ⟨c', rest', hrest', hc'⟩ := renderRest_eq ms
      have hstop : isNumberByte c' = false := by
        rcases hc' with rfl | rfl <;> decide
      have hfound : findValue (fun c => c == 32 || c == 10) (fun _ => true) key .colon
          (n.render ++ renderRest ms) = some (n.render ++ renderRest ms) := by
        rw [hrender, List.cons_append, findValue, if_neg (by simp [hspace, hnewline]), if_pos rfl]
      have hhead : (n.render ++ renderRest ms).head? ≠ some quote := by
        rw [hrender, List.cons_append, List.head?_cons]
        exact fun heq => hquote (Option.some.inj heq)
      rw [FlatValue.render, hfound, Option.bind_some, if_neg hhead, hrest']
      exact congrArg float.parse (takeWhile_append_cons hstop _ _)

/-! ## The fields -/

/-- A text is kept exactly when it is not a number. -/
lemma extractJsonString_eq_iff (hkey : IsLetter key) :
    extractJsonString r.render key = r.textOf key ↔ ∀ n, r.valueOf key ≠ some (.number n) := by
  rw [r.extractJsonString_render hkey, textOf]
  cases r.valueOf key with
  | none => exact iff_of_true rfl nofun
  | some v =>
    cases v with
    | string s => exact iff_of_true rfl nofun
    | number n => exact iff_of_false nofun fun h => h n rfl

/-- Also when an empty text stands for a missing one. -/
lemma extractJsonString_getD_eq_iff (hkey : IsLetter key) :
    (extractJsonString r.render key).getD [] = (r.textOf key).getD [] ↔
      ∀ n, r.valueOf key ≠ some (.number n) := by
  rw [r.extractJsonString_render hkey, textOf]
  cases r.valueOf key with
  | none => exact iff_of_true rfl nofun
  | some v =>
    cases v with
    | string s => exact iff_of_true rfl nofun
    | number n =>
      obtain ⟨c, rest, hrender, -⟩ := exists_numberLiteral_eq n
      refine iff_of_false (fun h => ?_) fun h => h n rfl
      exact List.cons_ne_nil c rest (hrender.symm.trans h.symm)

/-- The text of a number is handed over as a whole exactly when it has no exponent. -/
lemma map_numberText_eq_iff :
    (r.valueOf key).map numberText = r.textOf key ↔
      ∀ n, r.valueOf key = some (.number n) → n.exponent = none := by
  rw [textOf]
  cases r.valueOf key with
  | none => exact iff_of_true rfl nofun
  | some v =>
    cases v with
    | string s => exact iff_of_true rfl nofun
    | number n =>
      have hsome : (some (FlatValue.number n)).map numberText = (some (.number n)).map content ↔
          n.render.takeWhile isNumberByte = n.render := Option.some_inj
      rw [hsome, takeWhile_numberLiteral_iff]
      constructor
      · rintro h n' hn'
        obtain rfl := FlatValue.number.inj (Option.some.inj hn')
        exact h
      · exact fun h => h n rfl

end FlatReport

/-! ## Reading the texts back -/

/-- Texts in place of numbers, with one text told apart from the others. -/
def textOps (t : List UInt8) : FloatOps (Option (List UInt8)) where
  zero := none
  parse := fun text => some (some text)
  toU64 := fun x => if x = some t then 1 else 0

/-- With texts in place of numbers a field is the text itself. -/
lemma bind_textOps (t : List UInt8) (text : Option (List UInt8)) :
    (text.bind (textOps t).parse).getD (textOps t).zero = text := by
  cases text <;> rfl

/-- The casts tell all texts apart. -/
lemma eq_of_toU64_textOps {x y : Option (List UInt8)}
    (h : ∀ t, (textOps t).toU64 x = (textOps t).toU64 y) : x = y := by
  have hcast : ∀ (t : List UInt8) (z : Option (List UInt8)),
      (textOps t).toU64 z = 1 ↔ z = some t := by
    intro t z
    rw [textOps]
    by_cases hz : z = some t <;> simp [hz]
  cases x with
  | some t => exact ((hcast t y).mp ((h t).symm.trans ((hcast t _).mpr rfl))).symm
  | none =>
    cases y with
    | some t => exact (hcast t none).mp ((h t).trans ((hcast t _).mpr rfl))
    | none => rfl

namespace FlatReport

lemma isLetter_of_mem_keys : ∀ key ∈ textKeys ++ numberKeys, IsLetter key := by
  have hall : (textKeys ++ numberKeys).all (fun key => decide (IsLetter key)) = true := by decide
  intro key hkey
  exact of_decide_eq_true (List.all_eq_true.mp hall key hkey)

/-- A report keeps its fields exactly when its texts are strings and its numbers are in quotes or
have no exponents. -/
theorem keepsFields_iff (r : FlatReport) : r.KeepsFields ↔ r.Quoted := by
  constructor
  · intro h
    have hreport : ∀ t, parseExecutionReport (textOps t) r.render = r.report (textOps t) :=
      fun t => h _ (textOps t)
    have hnumber : ∀ key ∈ numberKeys, ∀ t,
        (extractJsonF64 (textOps t) r.render key).getD (textOps t).zero =
          (r.valueOf key).map numberText := by
      intro key hkey t
      have hletter := isLetter_of_mem_keys key (List.mem_append_right _ hkey)
      rw [r.extractJsonF64_render _ hletter, bind_textOps]
    simp only [parseExecutionReport, report, ExecutionReport.mk.injEq, forall_and, bind_textOps]
      at hreport
    obtain ⟨hi, hc, hs, hS, hl, hL, hX, hT, hn, hN⟩ := hreport
    constructor
    · intro key hkey
      have hletter := isLetter_of_mem_keys key (List.mem_append_left _ hkey)
      simp only [textKeys, List.mem_cons, List.not_mem_nil, or_false] at hkey
      rcases hkey with rfl | rfl | rfl | rfl | rfl | rfl
      · exact (r.extractJsonString_getD_eq_iff hletter).mp (hi [])
      · exact (r.extractJsonString_eq_iff hletter).mp (hc [])
      · exact (r.extractJsonString_getD_eq_iff hletter).mp (hs [])
      · exact (r.extractJsonString_getD_eq_iff hletter).mp (hS [])
      · exact (r.extractJsonString_getD_eq_iff hletter).mp (hX [])
      · exact (r.extractJsonString_getD_eq_iff hletter).mp (hN [])
    · intro key hkey
      refine r.map_numberText_eq_iff.mp ?_
      have htext := hnumber key hkey
      simp only [numberKeys, List.mem_cons, List.not_mem_nil, or_false] at hkey
      rcases hkey with rfl | rfl | rfl | rfl
      · exact (htext []).symm.trans (hl [])
      · exact (htext []).symm.trans (hL [])
      · exact (htext []).symm.trans (hn [])
      · refine eq_of_toU64_textOps fun t => ?_
        rw [← htext t]
        exact hT t
  · intro h F float
    have htext : ∀ key ∈ textKeys, extractJsonString r.render key = r.textOf key := by
      intro key hkey
      have hletter := isLetter_of_mem_keys key (List.mem_append_left _ hkey)
      exact (r.extractJsonString_eq_iff hletter).mpr (h.text key hkey)
    have hnumber : ∀ key ∈ numberKeys,
        extractJsonF64 float r.render key = (r.textOf key).bind float.parse := by
      intro key hkey
      have hletter := isLetter_of_mem_keys key (List.mem_append_right _ hkey)
      rw [r.extractJsonF64_render float hletter, r.map_numberText_eq_iff.mpr (h.number key hkey)]
    simp only [textKeys, List.forall_mem_cons] at htext
    simp only [numberKeys, List.forall_mem_cons] at hnumber
    obtain ⟨hi, hc, hs, hS, hX, hN, -⟩ := htext
    obtain ⟨hl, hL, hn, hT, -⟩ := hnumber
    rw [parseExecutionReport, report, hi, hc, hs, hS, hX, hN, hl, hL, hn, hT]

lemma escapeFree_i : EscapeFree [105] := by decide

lemma escapeFree_n : EscapeFree [110] := by decide

lemma mark_e : (101 : UInt8) = 101 ∨ (101 : UInt8) = 69 := Or.inl rfl

/-- A minus sign. -/
def minus : List UInt8 := [45]

lemma sign_minus : minus = [] ∨ minus = [43] ∨ minus = [45] := Or.inr (Or.inr rfl)

/-- The members `"i":5` and `"n":5e-5`. -/
def numericMembers : List FlatMember :=
  [⟨⟨[105], escapeFree_i⟩, .number ⟨false, [five], [], none, five_ne_nil, leading_five⟩⟩,
    ⟨⟨[110], escapeFree_n⟩, .number ⟨false, [five], [],
      some ⟨101, minus, [five], mark_e, sign_minus, five_ne_nil⟩, five_ne_nil, leading_five⟩⟩]

lemma distinct_numericMembers : (numericMembers.map fun m => m.key.bytes).Nodup := by decide

lemma valid_numericMembers :
    ∀ m ∈ numericMembers, ∀ s, m.value = .string s → Utf8.Valid s.bytes := by
  intro m hm s hs
  fin_cases hm <;> cases hs

/-- A report with a number for the order and a commission in scientific notation. -/
def numericReport : FlatReport := ⟨numericMembers, distinct_numericMembers, valid_numericMembers⟩

/-- The order is lost, and five stands for the commission. -/
theorem numbers_lost :
    ¬ numericReport.KeepsFields ∧
      (numericReport.textOf 105 = some [53] ∧
        (parseExecutionReport (textOps []) numericReport.render).orderId = []) ∧
      numericReport.textOf 110 = some [53, 101, 45, 53] ∧
        (parseExecutionReport (textOps []) numericReport.render).commission = some [53] := by
  refine ⟨fun h => ?_, by decide +kernel⟩
  have horder := congrArg ExecutionReport.orderId (h _ (textOps []))
  exact absurd horder (by decide +kernel)

end FlatReport

end PrivateFeed

end HftArb
