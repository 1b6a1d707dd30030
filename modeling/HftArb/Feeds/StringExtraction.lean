import HftArb.Feeds.DepthParser
import HftArb.Feeds.ReportMessages
import HftArb.Foundations.QuotedSearch

/-!
# Extracting a string by its key

`extractStringValue` searches the text for the quoted key and returns what stands between the next
two quotes.  A flat object is cut into pieces at its quotes, and the search is one among these
pieces: `extractStringValue_intercalate`.

The pieces are the keys, the strings and the punctuation between them.  A string that equals the key
stops the search before the key is reached: `searchMembers`, for any reading of what follows.
Behind a key with a numeric value the next two quotes are those of the next key: `outcome`.  Only a
key that contains a quote, or begins with a colon or a comma, can be met anywhere else.
-/

namespace HftArb

open TextSearch TickerParser StaticBookParser

namespace ZeroCopyParser

/-! ## The extraction -/

/-- `MAX_EXTRACTED_STRING_LEN`. -/
def maxExtractedStringLen : ℕ := 256

/-- `u8::is_ascii_whitespace`. -/
def isAsciiWhitespace (c : UInt8) : Bool := c == 32 || c == 9 || c == 10 || c == 12 || c == 13

/-- The bytes that may stand behind a key. -/
def closesKey (c : UInt8) : Bool := c == colon || isAsciiWhitespace c

/-- The string value of a key. -/
def extractStringValue (text key : List UInt8) : Option (List UInt8) :=
  (find (quote :: (key ++ [quote])) text).bind fun (before, afterKey) =>
    if before.getLast?.all isBoundary = false then none
    else if afterKey.head?.any closesKey = false then none
    else
      (find [quote] afterKey).bind fun (_, afterQuote) =>
        (find [quote] afterQuote).bind fun (value, _) =>
          if maxExtractedStringLen < value.length then none else some value

/-- What is returned when the key is met between two pieces of the text: the piece behind the next
one, unless the bytes around the key or the length are wrong. -/
def readAt (before : List UInt8) : List (List UInt8) → Option (List UInt8)
  | next :: value :: _ :: _ =>
    if before.getLast?.all isBoundary = true ∧ next.head?.any closesKey = true ∧
      value.length ≤ maxExtractedStringLen then some value
    else none
  | _ => none

/-- The byte behind a piece that is followed by a quote. -/
lemma any_closesKey_append (next rest : List UInt8) :
    (next ++ quote :: rest).head?.any closesKey = next.head?.any closesKey := by
  cases next with
  | nil => rfl
  | cons c next => rfl

/-- The extraction, piece by piece. -/
lemma extractStringValue_intercalate (key : List UInt8) {p : List UInt8} {ps : List (List UInt8)}
    (hp : quote ∉ p) (hps : ∀ p ∈ ps, quote ∉ p) :
    extractStringValue ([quote].intercalate (p :: ps)) key =
      (find (key.splitOn quote) ps).bind fun found =>
        readAt ([quote].intercalate (p :: found.1)) found.2 := by
  rw [extractStringValue, find_quoted key hp hps]
  cases hfind : find (key.splitOn quote) ps with
  | none => rfl
  | some found =>
    have hfound : ∀ p ∈ found.2, quote ∉ p := by
      intro p hmem
      refine hps p ?_
      rw [eq_append_of_find hfind]
      exact List.mem_append_right _ (List.mem_append_right _ hmem)
    obtain ⟨before, behind⟩ := found
    match behind, hfound with
    | [], _ => rfl
    | [next], hfound =>
      have hnext := find_letter_eq_none (hfound next List.mem_cons_self)
      simp [readAt, hnext]
    | [next, value], hfound =>
      have hvalue := find_letter_eq_none (hfound value (by simp))
      have hnext := find_letter (hfound next List.mem_cons_self) value
      simp [readAt, hnext, hvalue]
    | next :: value :: p' :: more, hfound =>
      have hvalue := find_letter (hfound value (by simp)) ([quote].intercalate (p' :: more))
      have hnext := find_letter (hfound next List.mem_cons_self)
        (value ++ quote :: [quote].intercalate (p' :: more))
      simp only [readAt, intercalate_cons_quote, any_closesKey_append, hnext, hvalue,
        Option.bind_some, if_neg (List.cons_ne_nil _ _)]
      cases ([quote].intercalate (p :: before)).getLast?.all isBoundary with
      | false => rfl
      | true =>
        cases next.head?.any closesKey with
        | false => simp
        | true =>
          by_cases hlong : maxExtractedStringLen < value.length
          · rw [if_neg (by decide), if_neg (by decide), if_pos hlong, if_neg (by omega)]
          · rw [if_neg (by decide), if_neg (by decide), if_neg hlong, if_pos ⟨rfl, rfl, by omega⟩]

/-! ## Objects -/

/-- A value of a flat object. -/
inductive FlatValue where
  | string (s : JsonString)
  | number (n : OrderFeed.NumberLiteral)

/-- A member of a flat object. -/
structure FlatMember where
  key : JsonString
  value : FlatValue

/-- The numbers of spaces behind the colons and behind the commas. -/
structure Spacing where
  behindColon : ℕ
  behindComma : ℕ

/-- A flat object with distinct keys.  Its string values have at most 256 bytes. -/
structure FlatObject where
  spacing : Spacing
  members : List FlatMember
  distinct : (members.map fun m => m.key.bytes).Nodup
  short : ∀ m ∈ members, ∀ s, m.value = .string s → s.bytes.length ≤ maxExtractedStringLen

/-- The bytes of a string value. -/
def FlatValue.text : FlatValue → Option (List UInt8)
  | .string s => some s.bytes
  | .number _ => none

/-- A colon and its spaces. -/
def Spacing.colonText (sp : Spacing) : List UInt8 := colon :: List.replicate sp.behindColon 32

/-- A comma and its spaces. -/
def Spacing.commaText (sp : Spacing) : List UInt8 := comma :: List.replicate sp.behindComma 32

/-- A value as it is written. -/
def FlatValue.render : FlatValue → List UInt8
  | .string s => s.render
  | .number n => n.render

/-- A member as it is written. -/
def FlatMember.render (sp : Spacing) (m : FlatMember) : List UInt8 :=
  m.key.render ++ (sp.colonText ++ m.value.render)

/-- An object as it is written. -/
def renderFlat (sp : Spacing) (members : List FlatMember) : List UInt8 :=
  lbrace :: (sp.commaText.intercalate (members.map (FlatMember.render sp)) ++ [rbrace])

/-- The text of an object. -/
def FlatObject.render (o : FlatObject) : List UInt8 := renderFlat o.spacing o.members

/-- The key is present with a string as its value. -/
def FlatObject.HasString (o : FlatObject) (key s : List UInt8) : Prop :=
  ∃ m ∈ o.members, m.key.bytes = key ∧ m.value.text = some s

/-! ## The pieces of an object -/

section Pieces

variable (sp : Spacing)

/-- What stands behind a value. -/
def afterValue : List FlatMember → List UInt8
  | [] => [rbrace]
  | _ :: _ => sp.commaText

/-- The pieces of a member and of what stands behind it. -/
def FlatMember.pieces (m : FlatMember) (behind : List UInt8) : List (List UInt8) :=
  match m.value with
  | .string s => [m.key.bytes, sp.colonText, s.bytes, behind]
  | .number n => [m.key.bytes, sp.colonText ++ (n.render ++ behind)]

/-- The pieces of the members. -/
def pieces : List FlatMember → List (List UInt8)
  | [] => []
  | m :: ms => m.pieces sp (afterValue sp ms) ++ pieces ms

/-- The piece before the first quote. -/
def openingPiece : List FlatMember → List UInt8
  | [] => [lbrace, rbrace]
  | _ :: _ => [lbrace]

/-- The pieces of a member whose value is a string. -/
lemma pieces_string {m : FlatMember} {s : JsonString} (h : m.value = .string s)
    (ms : List FlatMember) :
    pieces sp (m :: ms) =
      m.key.bytes :: sp.colonText :: s.bytes :: afterValue sp ms :: pieces sp ms := by
  rw [pieces, FlatMember.pieces, h]
  rfl

/-- The pieces of a member whose value is a number. -/
lemma pieces_number {m : FlatMember} {n : OrderFeed.NumberLiteral} (h : m.value = .number n)
    (ms : List FlatMember) :
    pieces sp (m :: ms) =
      m.key.bytes :: (sp.colonText ++ (n.render ++ afterValue sp ms)) :: pieces sp ms := by
  rw [pieces, FlatMember.pieces, h]
  rfl

/-- The pieces of a member begin with its key. -/
lemma pieces_cons (m : FlatMember) (ms : List FlatMember) :
    pieces sp (m :: ms) =
      m.key.bytes :: ((m.pieces sp (afterValue sp ms)).tail ++ pieces sp ms) := by
  rw [pieces, FlatMember.pieces]
  cases m.value <;> rfl

/-- The pieces of the members behind a piece of text. -/
lemma intercalate_pieces (p : List UInt8) (m : FlatMember) (ms : List FlatMember) :
    [quote].intercalate (p :: pieces sp (m :: ms)) =
      p ++ (sp.commaText.intercalate ((m :: ms).map (FlatMember.render sp)) ++ [rbrace]) := by
  induction ms generalizing p m with
  | nil =>
    cases hvalue : m.value with
    | string s =>
      rw [pieces_string sp hvalue]
      simp [pieces, afterValue, FlatMember.render, hvalue, FlatValue.render,
        JsonString.render]
    | number n =>
      rw [pieces_number sp hvalue]
      simp [pieces, afterValue, FlatMember.render, hvalue, FlatValue.render,
        JsonString.render]
  | cons m' ms ih =>
    rw [List.map_cons, List.map_cons, List.intercalate_cons_cons, ← List.map_cons]
    cases hvalue : m.value with
    | string s =>
      rw [pieces_string sp hvalue, intercalate_cons_quote, intercalate_cons_quote,
        intercalate_cons_quote, intercalate_cons_quote, ih]
      simp [afterValue, FlatMember.render, hvalue, FlatValue.render, JsonString.render]
    | number n =>
      rw [pieces_number sp hvalue, intercalate_cons_quote, intercalate_cons_quote, ih]
      simp [afterValue, FlatMember.render, hvalue, FlatValue.render, JsonString.render]

/-- An object and its pieces. -/
lemma renderFlat_eq (ms : List FlatMember) :
    renderFlat sp ms = [quote].intercalate (openingPiece ms :: pieces sp ms) := by
  cases ms with
  | nil => rfl
  | cons m ms =>
    rw [renderFlat, intercalate_pieces]
    rfl

/-- Keys, strings and punctuation have no quotes. -/
lemma quote_not_mem_pieces {ms : List FlatMember} : ∀ p ∈ pieces sp ms, quote ∉ p := by
  have hcolon : quote ∉ sp.colonText := by simp [Spacing.colonText, quote, colon]
  have hbehind : ∀ ms, quote ∉ afterValue sp ms := by
    intro ms
    cases ms with
    | nil => exact (by decide : quote ∉ [rbrace])
    | cons m ms => simp [afterValue, Spacing.commaText, quote, comma]
  induction ms with
  | nil =>
    intro p hp
    cases hp
  | cons m ms ih =>
    intro p hp
    cases hvalue : m.value with
    | string s =>
      rw [pieces_string sp hvalue] at hp
      simp only [List.mem_cons] at hp
      rcases hp with rfl | rfl | rfl | rfl | hp
      exacts [m.key.quote_not_mem, hcolon, s.quote_not_mem, hbehind ms, ih p hp]
    | number n =>
      rw [pieces_number sp hvalue] at hp
      simp only [List.mem_cons] at hp
      rcases hp with rfl | rfl | hp
      · exact m.key.quote_not_mem
      · rw [List.mem_append, List.mem_append, not_or, not_or]
        exact ⟨hcolon, n.quote_not_mem, hbehind ms⟩
      · exact ih p hp

/-- There is no quote before the first one. -/
lemma quote_not_mem_openingPiece (ms : List FlatMember) : quote ∉ openingPiece ms := by
  cases ms with
  | nil => exact (by decide : quote ∉ [lbrace, rbrace])
  | cons m ms => exact (by decide : quote ∉ [lbrace])

end Pieces

/-- The extraction from an object, piece by piece. -/
lemma FlatObject.extractStringValue_render (o : FlatObject) (key : List UInt8) :
    extractStringValue o.render key =
      (find (key.splitOn quote) (pieces o.spacing o.members)).bind fun found =>
        readAt ([quote].intercalate (openingPiece o.members :: found.1)) found.2 := by
  rw [FlatObject.render, renderFlat_eq]
  exact extractStringValue_intercalate key (quote_not_mem_openingPiece _)
    (quote_not_mem_pieces o.spacing)

/-! ## Keys that are met as a whole -/

/-- A key that is no punctuation between the strings of an object: it has no quote and does not
begin with a colon or a comma. -/
structure PlainKey (key : List UInt8) : Prop where
  plain : quote ∉ key
  head : key.head? ≠ some colon ∧ key.head? ≠ some comma

/-- A string before the member equals the key. -/
def Shadowed (pre : List FlatMember) (key : List UInt8) : Prop :=
  ∃ m ∈ pre, m.value.text = some key

/-- The next key, unless it is too long to be returned. -/
def nextKey : List FlatMember → Option (List UInt8)
  | [] => none
  | m :: _ => if m.key.bytes.length ≤ maxExtractedStringLen then some m.key.bytes else none

/-- What the extraction makes of the members, from the first one on. -/
def outcome (key : List UInt8) : List FlatMember → Option (List UInt8)
  | [] => none
  | m :: ms =>
    if m.key.bytes = key then
      match m.value with
      | .string s => some s.bytes
      | .number _ => nextKey ms
    else if m.value.text = some key then none
    else outcome key ms

/-- What is returned at the member with the key. -/
def ownString (m : FlatMember) (ms : List FlatMember) : Option (List UInt8) :=
  match m.value with
  | .string s => some s.bytes
  | .number _ => nextKey ms

/-- What is returned for a key without quotes, behind some pieces of the text. -/
def readFrom (key : List UInt8) (before ps : List (List UInt8)) : Option (List UInt8) :=
  (find [key] ps).bind fun found => readAt ([quote].intercalate (before ++ found.1)) found.2

section Searching

variable {β : Type*} (read : List UInt8 → List (List UInt8) → Option β)

/-- What a reading returns for a key without quotes, behind some pieces of the text. -/
def searchFrom (key : List UInt8) (before ps : List (List UInt8)) : Option β :=
  (find [key] ps).bind fun found => read ([quote].intercalate (before ++ found.1)) found.2

/-- What a search makes of the members, from the first one on, when `own` is read at the member with
the key. -/
def searchMembers (own : FlatMember → List FlatMember → Option β) (key : List UInt8) :
    List FlatMember → Option β
  | [] => none
  | m :: ms =>
    if m.key.bytes = key then own m ms
    else if m.value.text = some key then none
    else searchMembers own key ms

/-- The outcome is that of a search for the value. -/
lemma outcome_eq (key : List UInt8) (ms : List FlatMember) :
    outcome key ms = searchMembers ownString key ms := by
  induction ms with
  | nil => rfl
  | cons m ms ih =>
    rw [outcome, searchMembers, ih]
    rfl

/-- The key is the next piece. -/
lemma searchFrom_self (key : List UInt8) (before ps : List (List UInt8)) :
    searchFrom read key before (key :: ps) = read ([quote].intercalate before) ps := by
  have hfind : find [key] (key :: ps) = some ([], ps) := find_append_self [key] ps
  rw [searchFrom, hfind, Option.bind_some, List.append_nil]

/-- The next piece is another one. -/
lemma searchFrom_cons_of_ne {key p : List UInt8} (h : p ≠ key) (before ps : List (List UInt8)) :
    searchFrom read key before (p :: ps) = searchFrom read key (before ++ [p]) ps := by
  have hnot : ¬ [key] <+: p :: ps := fun hprefix => h (List.cons_prefix_cons.mp hprefix).1.symm
  rw [searchFrom, searchFrom, find_cons_of_not_prefix hnot]
  cases find [key] ps with
  | none => rfl
  | some found => simp

end Searching

/-- A key that another byte follows is not read. -/
lemma readAt_of_not_closes {next : List UInt8} (h : next.head?.any closesKey = false)
    (before : List UInt8) (ps : List (List UInt8)) : readAt before (next :: ps) = none := by
  match ps with
  | [] => rfl
  | [value] => rfl
  | value :: p :: ps => simp [readAt, h]

/-- The byte before the first key. -/
lemma isBoundary_openingPiece (ms : List FlatMember) (h : ms ≠ []) :
    ([quote].intercalate [openingPiece ms]).getLast?.all isBoundary = true := by
  obtain ⟨m, ms, rfl⟩ := List.exists_cons_of_ne_nil h
  rfl

section PlainKeys

variable {sp : Spacing} {key : List UInt8}

/-- A piece that begins with a colon is no key. -/
lemma PlainKey.ne_colonText (h : PlainKey key) (rest : List UInt8) :
    sp.colonText ++ rest ≠ key := by
  rintro rfl
  exact h.head.1 rfl

/-- The punctuation between two members is no key. -/
lemma PlainKey.ne_commaText (h : PlainKey key) : sp.commaText ≠ key := by
  rintro rfl
  exact h.head.2 rfl

/-- The byte before a piece that follows a comma. -/
lemma isBoundary_commaText (before : List (List UInt8)) (text : List UInt8) :
    ([quote].intercalate (before ++ [text ++ sp.commaText])).getLast?.all isBoundary = true := by
  have hne : sp.commaText ≠ [] := List.cons_ne_nil _ _
  rw [getLast?_intercalate _ (List.append_ne_nil_of_right_ne_nil text hne),
    List.getLast?_append_of_ne_nil _ hne, Option.all_eq_true]
  intro c hc
  have hmem := List.mem_of_getLast? hc
  rw [Spacing.commaText, List.mem_cons, List.mem_replicate] at hmem
  rcases hmem with rfl | ⟨-, rfl⟩ <;> decide

section Members

variable {β : Type*} {read : List UInt8 → List (List UInt8) → Option β} {m : FlatMember}

/-- A string that equals the key stops the search, and neither a colon nor a space follows it. -/
lemma PlainKey.searchFrom_of_shadowed (h : PlainKey key)
    (hclosed : ∀ before next ps, next.head?.any closesKey = false →
      read before (next :: ps) = none)
    (hkey : m.key.bytes ≠ key) (htext : m.value.text = some key) (before : List (List UInt8))
    (ms : List FlatMember) : searchFrom read key before (pieces sp (m :: ms)) = none := by
  have hnot : (afterValue sp ms).head?.any closesKey = false := by
    cases ms with
    | nil => exact (by decide : [rbrace].head?.any closesKey = false)
    | cons m' ms => exact (by decide : [comma].head?.any closesKey = false)
  cases hvalue : m.value with
  | string s =>
    rw [hvalue] at htext
    have hstring : s.bytes = key := Option.some.inj htext
    rw [pieces_string sp hvalue, searchFrom_cons_of_ne read hkey,
      searchFrom_cons_of_ne read (by simpa using h.ne_colonText []), hstring, searchFrom_self,
      hclosed _ _ _ hnot]
  | number n =>
    rw [hvalue] at htext
    cases htext

/-- Another member is passed over. -/
lemma PlainKey.searchFrom_of_other (h : PlainKey key) (hend : ∀ before, read before [] = none)
    (hkey : m.key.bytes ≠ key) (htext : m.value.text ≠ some key) (before : List (List UInt8))
    (ms : List FlatMember) :
    ∃ before', (ms ≠ [] → ([quote].intercalate before').getLast?.all isBoundary = true) ∧
      searchFrom read key before (pieces sp (m :: ms)) =
        searchFrom read key before' (pieces sp ms) := by
  cases hvalue : m.value with
  | string s =>
    rw [hvalue] at htext
    have hstring : s.bytes ≠ key := fun heq => htext (congrArg some heq)
    rw [pieces_string sp hvalue, searchFrom_cons_of_ne read hkey,
      searchFrom_cons_of_ne read (by simpa using h.ne_colonText []),
      searchFrom_cons_of_ne read hstring]
    cases ms with
    | nil =>
      refine ⟨[], fun hne => absurd rfl hne, ?_⟩
      by_cases hbrace : [rbrace] = key
      · rw [afterValue, hbrace, searchFrom_self]
        exact hend _
      · rw [afterValue, searchFrom_cons_of_ne read hbrace]
        rfl
    | cons m' ms =>
      rw [afterValue, searchFrom_cons_of_ne read h.ne_commaText]
      exact ⟨_, fun _ => isBoundary_commaText _ [], rfl⟩
  | number n =>
    rw [pieces_number sp hvalue, searchFrom_cons_of_ne read hkey,
      searchFrom_cons_of_ne read (h.ne_colonText _)]
    refine ⟨_, fun hne => ?_, rfl⟩
    obtain ⟨m', ms, rfl⟩ := List.exists_cons_of_ne_nil hne
    rw [afterValue, ← List.append_assoc]
    exact isBoundary_commaText _ _

/-- The search for a plain key, from a member on, with a reading that gives `own` behind the key of
a member and nothing where neither a colon nor a space follows. -/
lemma PlainKey.searchFrom_pieces (h : PlainKey key)
    {own : FlatMember → List FlatMember → Option β} {P : FlatMember → Prop}
    (hown : ∀ before m ms, before.getLast?.all isBoundary = true → P m →
      read before ((m.pieces sp (afterValue sp ms)).tail ++ pieces sp ms) = own m ms)
    (hclosed : ∀ before next ps, next.head?.any closesKey = false →
      read before (next :: ps) = none)
    (hend : ∀ before, read before [] = none)
    {ms : List FlatMember} (hms : ∀ m ∈ ms, P m) {before : List (List UInt8)}
    (hbefore : ms ≠ [] → ([quote].intercalate before).getLast?.all isBoundary = true) :
    searchFrom read key before (pieces sp ms) = searchMembers own key ms := by
  induction ms generalizing before with
  | nil => rfl
  | cons m ms ih =>
    rw [searchMembers]
    by_cases hkey : m.key.bytes = key
    · rw [if_pos hkey, pieces_cons, hkey, searchFrom_self]
      exact hown _ m ms (hbefore (List.cons_ne_nil m ms)) (hms m List.mem_cons_self)
    · rw [if_neg hkey]
      by_cases htext : m.value.text = some key
      · rw [if_pos htext]
        exact h.searchFrom_of_shadowed hclosed hkey htext before ms
      · rw [if_neg htext]
        obtain ⟨before', hbefore', hsearch⟩ := h.searchFrom_of_other hend hkey htext before ms
        rw [hsearch]
        exact ih (fun m' hm' => hms m' (List.mem_cons_of_mem _ hm')) hbefore'

end Members

/-- The extraction of a plain key, from a member on. -/
lemma PlainKey.readFrom_pieces (h : PlainKey key) {ms : List FlatMember}
    (hshort : ∀ m ∈ ms, ∀ s, m.value = .string s → s.bytes.length ≤ maxExtractedStringLen)
    {before : List (List UInt8)}
    (hbefore : ms ≠ [] → ([quote].intercalate before).getLast?.all isBoundary = true) :
    readFrom key before (pieces sp ms) = outcome key ms := by
  have hcolon (rest : List UInt8) : (sp.colonText ++ rest).head?.any closesKey = true := rfl
  rw [outcome_eq]
  refine h.searchFrom_pieces ?_ (fun before next ps hnot => readAt_of_not_closes hnot before ps)
    (fun before => rfl) hshort hbefore
  intro before m ms hboundary hlength
  rw [ownString, FlatMember.pieces]
  cases hvalue : m.value with
  | string s => exact if_pos ⟨hboundary, by simpa using hcolon [], hlength s hvalue⟩
  | number n =>
    cases ms with
    | nil => rfl
    | cons m' ms =>
      obtain ⟨p, rest, hpieces⟩ :
          ∃ p rest, pieces sp (m' :: ms) = m'.key.bytes :: p :: rest := by
        cases hvalue' : m'.value with
        | string s => exact ⟨_, _, pieces_string sp hvalue' ms⟩
        | number n => exact ⟨_, _, pieces_number sp hvalue' ms⟩
      rw [hpieces, nextKey, List.tail_cons, List.singleton_append, readAt]
      simp only [hboundary, hcolon, true_and]

end PlainKeys

/-- The extraction of a plain key from an object. -/
lemma PlainKey.extractStringValue_render {key : List UInt8} (h : PlainKey key) (o : FlatObject) :
    extractStringValue o.render key = outcome key o.members := by
  rw [o.extractStringValue_render, List.splitOn_eq_singleton h.plain]
  exact h.readFrom_pieces o.short (isBoundary_openingPiece o.members)

/-! ## When the value of the key is returned -/

section Members

variable {key : List UInt8} {pre : List FlatMember} {β : Type*}
  {own : FlatMember → List FlatMember → Option β}

/-- A string that equals the key ends the search. -/
lemma searchMembers_of_shadowed (hkeys : ∀ m ∈ pre, m.key.bytes ≠ key) (h : Shadowed pre key)
    (ms : List FlatMember) : searchMembers own key (pre ++ ms) = none := by
  induction pre with
  | nil =>
    obtain ⟨m, hm, -⟩ := h
    cases hm
  | cons m pre ih =>
    rw [List.cons_append, searchMembers, if_neg (hkeys m List.mem_cons_self)]
    by_cases hm : m.value.text = some key
    · rw [if_pos hm]
    · rw [if_neg hm]
      obtain ⟨m', hm', htext⟩ := h
      rcases List.mem_cons.mp hm' with rfl | hmem
      · exact absurd htext hm
      · exact ih (fun m'' h => hkeys m'' (List.mem_cons_of_mem _ h)) ⟨m', hmem, htext⟩

/-- Other members are passed over. -/
lemma searchMembers_of_not_shadowed (hkeys : ∀ m ∈ pre, m.key.bytes ≠ key)
    (h : ¬ Shadowed pre key) (ms : List FlatMember) :
    searchMembers own key (pre ++ ms) = searchMembers own key ms := by
  induction pre with
  | nil => rfl
  | cons m pre ih =>
    have hm : m.value.text ≠ some key := fun htext => h ⟨m, List.mem_cons_self, htext⟩
    rw [List.cons_append, searchMembers, if_neg (hkeys m List.mem_cons_self), if_neg hm]
    exact ih (fun m' h => hkeys m' (List.mem_cons_of_mem _ h))
      fun ⟨m', hm', htext⟩ => h ⟨m', List.mem_cons_of_mem _ hm', htext⟩

/-- Nothing is found for a key that is absent. -/
lemma searchMembers_eq_none {ms : List FlatMember} (hkeys : ∀ m ∈ ms, m.key.bytes ≠ key) :
    searchMembers own key ms = none := by
  rw [← List.append_nil ms]
  by_cases h : Shadowed ms key
  · exact searchMembers_of_shadowed hkeys h []
  · exact searchMembers_of_not_shadowed hkeys h []

end Members

section Split

variable (o : FlatObject) {pre post : List FlatMember} {m : FlatMember}

/-- The keys of the other members are other ones. -/
lemma FlatObject.other_keys (hsplit : o.members = pre ++ m :: post) :
    (∀ m' ∈ pre, m'.key.bytes ≠ m.key.bytes) ∧ ∀ m' ∈ post, m'.key.bytes ≠ m.key.bytes := by
  have hdistinct := o.distinct
  rw [hsplit, List.map_append, List.map_cons, List.nodup_append] at hdistinct
  obtain ⟨-, hnodup, hapart⟩ := hdistinct
  refine ⟨fun m' hm' => hapart _ (List.mem_map_of_mem hm') _ List.mem_cons_self, ?_⟩
  intro m' hm' heq
  exact (List.nodup_cons.mp hnodup).1 (heq ▸ List.mem_map_of_mem hm')

/-- What holds of the member with the key. -/
lemma FlatObject.exists_key_iff (hsplit : o.members = pre ++ m :: post) (P : FlatMember → Prop) :
    (∃ m' ∈ o.members, m'.key.bytes = m.key.bytes ∧ P m') ↔ P m := by
  obtain ⟨hpre, hpost⟩ := o.other_keys hsplit
  rw [hsplit]
  constructor
  · rintro ⟨m', hm', hkey, hP⟩
    rcases List.mem_append.mp hm' with hmem | hmem
    · exact absurd hkey (hpre m' hmem)
    · rcases List.mem_cons.mp hmem with rfl | hmem
      · exact hP
      · exact absurd hkey (hpost m' hmem)
  · intro hP
    exact ⟨m, by simp, rfl, hP⟩

/-- The search for the key of a member finds it exactly when no string before it equals the key. -/
lemma FlatObject.searchMembers_split {β : Type*} (own : FlatMember → List FlatMember → Option β)
    (hsplit : o.members = pre ++ m :: post) :
    Shadowed pre m.key.bytes ∧ searchMembers own m.key.bytes o.members = none ∨
      ¬ Shadowed pre m.key.bytes ∧ searchMembers own m.key.bytes o.members = own m post := by
  have hpre := (o.other_keys hsplit).1
  rw [hsplit]
  by_cases hshadow : Shadowed pre m.key.bytes
  · exact Or.inl ⟨hshadow, searchMembers_of_shadowed hpre hshadow _⟩
  · refine Or.inr ⟨hshadow, ?_⟩
    rw [searchMembers_of_not_shadowed hpre hshadow, searchMembers, if_pos rfl]

end Split

/-- The condition on the members around the key: for a string value, no string before it equals the
key; for a number, such a string, the end of the object or a key too long to be returned. -/
def FlatObject.ReadOwn (o : FlatObject) (key : List UInt8) : Prop :=
  ∀ pre m post, o.members = pre ++ m :: post → m.key.bytes = key →
    if m.value.text = none then Shadowed pre key ∨ nextKey post = none else ¬ Shadowed pre key

/-- Between the pieces of an object, a key looks like a whole one: the text before it ends like one
before a key, and the piece behind it begins like one behind a key. -/
def FlatObject.LooksWhole (o : FlatObject) (before : List (List UInt8)) (next : List UInt8) :
    Prop :=
  ([quote].intercalate (openingPiece o.members :: before)).getLast?.all isBoundary = true ∧
    next.head?.any closesKey = true

/-- A piece of the object stands where the value of a key would: the pieces of the key occur first
where the key looks like a whole one, and the piece is the next but one, short enough and not the
last. -/
def FlatObject.StandsBehind (o : FlatObject) (key s : List UInt8) : Prop :=
  ∃ before next p rest,
    FirstOccurrence (key.splitOn quote) (pieces o.spacing o.members) before
      (next :: s :: p :: rest) ∧
    o.LooksWhole before next ∧ s.length ≤ maxExtractedStringLen

/-- A key with a quote is no key of an object. -/
lemma FlatObject.not_hasString_of_quote (o : FlatObject) {key : List UInt8} (h : quote ∈ key)
    (s : List UInt8) : ¬ o.HasString key s := by
  rintro ⟨m, -, rfl, -⟩
  exact m.key.quote_not_mem h

/-- What is read behind a key. -/
lemma readAt_eq_some_iff {before s : List UInt8} {behind : List (List UInt8)} :
    readAt before behind = some s ↔ ∃ next p rest, behind = next :: s :: p :: rest ∧
      before.getLast?.all isBoundary = true ∧ next.head?.any closesKey = true ∧
        s.length ≤ maxExtractedStringLen := by
  rcases behind with - | ⟨next, - | ⟨value, - | ⟨p, rest⟩⟩⟩
  · simp [readAt]
  · simp [readAt]
  · simp [readAt]
  · rw [readAt, Option.ite_none_right_eq_some, Option.some_inj]
    constructor
    · rintro ⟨⟨hbefore, hnext, hlength⟩, rfl⟩
      exact ⟨next, p, rest, rfl, hbefore, hnext, hlength⟩
    · rintro ⟨next', p', rest', heq, hbefore, hnext, hlength⟩
      obtain ⟨rfl, rfl, -⟩ := heq
      exact ⟨⟨hbefore, hnext, hlength⟩, rfl⟩

/-- The extraction returns the piece that stands where the value of the key would. -/
lemma FlatObject.extractStringValue_eq_some_iff (o : FlatObject) (key s : List UInt8) :
    extractStringValue o.render key = some s ↔ o.StandsBehind key s := by
  rw [o.extractStringValue_render, Option.bind_eq_some_iff]
  constructor
  · rintro ⟨⟨before, behind⟩, hfind, hread⟩
    obtain ⟨next, p, rest, rfl, hbefore, hnext, hlength⟩ := readAt_eq_some_iff.mp hread
    exact ⟨before, next, p, rest, find_eq_some_iff.mp hfind, ⟨hbefore, hnext⟩, hlength⟩
  · rintro ⟨before, next, p, rest, hfirst, ⟨hbefore, hnext⟩, hlength⟩
    exact ⟨_, find_eq_some_iff.mpr hfirst,
      readAt_eq_some_iff.mpr ⟨next, p, rest, rfl, hbefore, hnext, hlength⟩⟩

/-- The outcome at the member with the key. -/
lemma FlatObject.outcome_iff (o : FlatObject) {pre post : List FlatMember} {m : FlatMember}
    (hsplit : o.members = pre ++ m :: post) :
    (∀ s, outcome m.key.bytes o.members = some s ↔ o.HasString m.key.bytes s) ↔
      if m.value.text = none then Shadowed pre m.key.bytes ∨ nextKey post = none
      else ¬ Shadowed pre m.key.bytes := by
  have hstring (s : List UInt8) : o.HasString m.key.bytes s ↔ m.value.text = some s :=
    o.exists_key_iff hsplit fun m => m.value.text = some s
  simp only [hstring, outcome_eq]
  rcases o.searchMembers_split ownString hsplit with ⟨hshadow, hsearch⟩ | ⟨hshadow, hsearch⟩
  · rw [hsearch]
    cases htext : m.value.text with
    | none => simp [hshadow]
    | some t => simp [hshadow]
  · rw [hsearch, ownString]
    cases hvalue : m.value with
    | string t => simp [hshadow, FlatValue.text]
    | number n => simp [hshadow, FlatValue.text, Option.eq_none_iff_forall_ne_some]

/-- A plain key is extracted right exactly when the members before it and behind it let it. -/
lemma PlainKey.extract_iff {key : List UInt8} (h : PlainKey key) (o : FlatObject) :
    (∀ s, extractStringValue o.render key = some s ↔ o.HasString key s) ↔ o.ReadOwn key := by
  rw [h.extractStringValue_render]
  constructor
  · rintro hall pre m post hsplit rfl
    exact (o.outcome_iff hsplit).mp hall
  · intro hown
    by_cases hpresent : ∃ m ∈ o.members, m.key.bytes = key
    · obtain ⟨m, hm, rfl⟩ := hpresent
      obtain ⟨pre, post, hsplit⟩ := List.append_of_mem hm
      exact (o.outcome_iff hsplit).mpr (hown pre m post hsplit rfl)
    · push Not at hpresent
      intro s
      rw [outcome_eq, searchMembers_eq_none hpresent]
      refine iff_of_false nofun ?_
      rintro ⟨m, hm, hkey, -⟩
      exact hpresent m hm hkey

/-- The extraction returns the string value of a key, and nothing without one, exactly under these
conditions: on the members around a plain key; for a key with a quote, that nothing stands where its
value would; for any other key, that its string value stands there and nothing else. -/
theorem extractStringValue_iff (o : FlatObject) (key : List UInt8) :
    (∀ s, extractStringValue o.render key = some s ↔ o.HasString key s) ↔
      (PlainKey key → o.ReadOwn key) ∧
      (quote ∈ key → ∀ s, ¬ o.StandsBehind key s) ∧
      (¬ PlainKey key → quote ∉ key → ∀ s, o.StandsBehind key s ↔ o.HasString key s) := by
  by_cases hplain : PlainKey key
  · rw [hplain.extract_iff o]
    refine ⟨fun hown => ⟨fun _ => hown, ?_, fun hnot => absurd hplain hnot⟩, fun h => h.1 hplain⟩
    exact fun hquote => absurd hquote hplain.plain
  simp only [o.extractStringValue_eq_some_iff]
  by_cases hquote : quote ∈ key
  · have hnone (s : List UInt8) : (o.StandsBehind key s ↔ o.HasString key s) ↔
        ¬ o.StandsBehind key s := iff_false_right (o.not_hasString_of_quote hquote s)
    simp only [hnone]
    exact ⟨fun h => ⟨fun hnot => absurd hnot hplain, fun _ => h, fun _ hnot => absurd hquote hnot⟩,
      fun h => h.2.1 hquote⟩
  · exact ⟨fun h => ⟨fun hnot => absurd hnot hplain, fun hnot => absurd hnot hquote, fun _ _ => h⟩,
      fun h => h.2.2 hplain hquote⟩

lemma escapeFree_a : EscapeFree [97] := by decide

lemma escapeFree_s : EscapeFree [115] := by decide

lemma escapeFree_t : EscapeFree [116] := by decide

lemma escapeFree_x : EscapeFree [120] := by decide

/-- The string `t`. -/
def letterT : JsonString := ⟨[116], escapeFree_t⟩

/-- The string `x`. -/
def letterX : JsonString := ⟨[120], escapeFree_x⟩

/-- The members `"a":"t"` and `"t":"x"`. -/
def shadowedMembers : List FlatMember :=
  [⟨⟨[97], escapeFree_a⟩, .string letterT⟩, ⟨letterT, .string letterX⟩]

/-- The members `"t":5` and `"s":"x"`. -/
def numericMembers : List FlatMember :=
  [⟨letterT, .number ⟨false, [OrderFeed.five], [], none, OrderFeed.five_ne_nil,
    OrderFeed.leading_five⟩⟩, ⟨⟨[115], escapeFree_s⟩, .string letterX⟩]

lemma distinct_shadowedMembers : (shadowedMembers.map fun m => m.key.bytes).Nodup := by decide

lemma distinct_numericMembers : (numericMembers.map fun m => m.key.bytes).Nodup := by decide

lemma short_shadowedMembers : ∀ m ∈ shadowedMembers, ∀ s, m.value = .string s →
    s.bytes.length ≤ maxExtractedStringLen := by
  intro m hm s hs
  fin_cases hm <;> obtain rfl := FlatValue.string.inj hs <;> decide

lemma short_numericMembers : ∀ m ∈ numericMembers, ∀ s, m.value = .string s →
    s.bytes.length ≤ maxExtractedStringLen := by
  intro m hm s hs
  fin_cases hm
  · cases hs
  · obtain rfl := FlatValue.string.inj hs
    decide

/-- A compact object in which a string before the key equals it. -/
def shadowedObject : FlatObject :=
  ⟨⟨0, 0⟩, shadowedMembers, distinct_shadowedMembers, short_shadowedMembers⟩

/-- A compact object with a number as the value of the key. -/
def numericObject : FlatObject :=
  ⟨⟨0, 0⟩, numericMembers, distinct_numericMembers, short_numericMembers⟩

/-- A value is missed because a string before it equals its key, and the next key is returned as the
value of a number. -/
theorem extraction_fails :
    ¬ (∀ (o : FlatObject) (key s : List UInt8), o.HasString key s →
      extractStringValue o.render key = some s) ∧
    ¬ ∀ (o : FlatObject) (key s : List UInt8), extractStringValue o.render key = some s →
      o.HasString key s := by
  constructor
  · intro h
    have hread := h shadowedObject [116] [120]
      ⟨⟨letterT, .string letterX⟩, by simp [shadowedObject, shadowedMembers], rfl, rfl⟩
    exact absurd hread (by decide +kernel)
  · intro h
    obtain ⟨m, hm, hkey, htext⟩ := h numericObject [116] [115] (by decide +kernel)
    fin_cases hm
    · cases htext
    · exact absurd hkey (by decide)

end ZeroCopyParser

end HftArb
