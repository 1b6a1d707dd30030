import HftArb.Execution.DynamicFees
import HftArb.Foundations.Interleaving
import HftArb.Foundations.LineLog
import HftArb.Persistence.TradeLog
import Mathlib.Data.List.ReduceOption

/-!
# The file of the trade log

The trade log keeps its records in memory, behind a lock, and appends each of them to a file as a
line of JSON.  The text of a record and its line break are two writes, a write may be cut short, and
`record_trade` writes after it has given back the lock.  After a restart the log reads its records
from the file again.

A restart finds the records of the lines that hold one whole text and nothing else, or none at all
when a write was cut within a character (`loadExisting_run`).  Without a failed write, the file has
the records of the memory exactly when the text of no record came between the text of another one
and its line break (`loadExisting_perm_iff`).
-/

namespace HftArb

open LineLog Interleaving Runs

namespace TradeJournal

/-- How a write ends: it is done, or it stops behind some characters, maybe within the next one. -/
inductive WriteOutcome
  | done
  | cut (length : ℕ) (within : Bool)
  deriving DecidableEq

/-- A write to the file.  The first bytes of a character that is cut are `none`. -/
abbrev FileWrite := Write TradeRecord (Option Char)

/-- The records in memory, the file, and whether the lock is taken. -/
structure Shared where
  records : List TradeRecord
  file : List (Option Char)
  locked : Bool

/-- The parts of a call. -/
inductive Instr
  | lock
  | unlock
  | push (record : TradeRecord)
  | text (record : TradeRecord)
  | newline

/-- A call of the log, with the records that it has built. -/
inductive Call
  | recordTrade (record : TradeRecord)
  | recordArbPair (buy sell : TradeRecord)
  | recordTriangular (record1 record2 record3 : TradeRecord)

/-- The parts of `record_trade`, `record_arb_pair` and `record_triangular`.  A line break follows a
text whose write is done. -/
def Call.instrs : Call → List Instr
  | .recordTrade record => [.lock, .push record, .unlock, .text record]
  | .recordArbPair buy sell =>
    [.lock, .text buy, .text sell, .push buy, .push sell, .unlock]
  | .recordTriangular record1 record2 record3 =>
    [.lock, .text record1, .push record1, .text record2, .push record2, .text record3,
      .push record3, .unlock]

/-- The records of a call. -/
def Call.records : Call → List TradeRecord
  | .recordTrade record => [record]
  | .recordArbPair buy sell => [buy, sell]
  | .recordTriangular record1 record2 record3 => [record1, record2, record3]

/-- A step of a call, or a restart of the program. -/
inductive Action
  | task (a : Interleaving.Action Call WriteOutcome)
  | restart

/-- The part of a call that is left, if any. -/
def remaining (instrs : List Instr) : Option (List Instr) :=
  if instrs.isEmpty then none else some instrs

/-- `read_to_string`, which fails when a character is cut. -/
def readToString (file : List (Option Char)) : Option (List Char) :=
  if file.any Option.isNone then none else some file.reduceOption

section Model

-- `serde_json::to_string` and `serde_json::from_str`.
variable (toJson : TradeRecord → List Char) (fromJson : List Char → Option TradeRecord)

/-- The text of a record in the file. -/
def recordText (record : TradeRecord) : List (Option Char) := (toJson record).map some

/-- What reaches the file of the text of a record. -/
def textWrite (record : TradeRecord) : WriteOutcome → Option FileWrite
  | .done => some (.whole record)
  | .cut length within =>
    if (toJson record).length ≤ length then some (.whole record)
    else if length = 0 ∧ within = false then none
    else some (.part (((toJson record).take length).map some ++ if within then [none] else []))

/-- What is left of a call behind a write of `append_to_file`: the line break follows a whole text
only. -/
def behindWrite (instrs : List Instr) : FileWrite → List Instr
  | .whole _ => .newline :: instrs
  | _ => instrs

/-- The next part of a call. -/
def perform (s : Shared) (outcome : WriteOutcome) :
    List Instr → Outcome Shared (List Instr) FileWrite
  | [] => ⟨s, none, []⟩
  | .lock :: instrs =>
    if s.locked then ⟨s, some (.lock :: instrs), []⟩
    else ⟨{ s with locked := true }, remaining instrs, []⟩
  | .unlock :: instrs => ⟨{ s with locked := false }, remaining instrs, []⟩
  | .push record :: instrs =>
    ⟨{ s with records := s.records ++ [record] }, remaining instrs, []⟩
  | .text record :: instrs =>
    match textWrite toJson record outcome with
    | none => ⟨s, remaining instrs, []⟩
    | some w =>
      ⟨{ s with file := s.file ++ w.text (recordText toJson) (some '\n') },
        remaining (behindWrite instrs w), [w]⟩
  | .newline :: instrs =>
    match outcome with
    | .done => ⟨{ s with file := s.file ++ [some '\n'] }, remaining instrs, [.lineBreak]⟩
    | .cut _ _ => ⟨s, remaining instrs, []⟩

/-- The calls of the log as a system. -/
def system : System Shared Call (List Instr) WriteOutcome FileWrite where
  enter call := (some call.instrs, [])
  access := perform toJson

/-- A line of `load_existing`. -/
def loadLine (line : List Char) : Option TradeRecord :=
  let line := DynamicFees.trim line
  if line = [] then none else fromJson line

/-- The records that `load_existing` finds.  An empty last line is skipped like any empty line. -/
def loadExisting (file : List (Option Char)) : List TradeRecord :=
  match readToString file with
  | some contents => (contents.splitOn '\n').filterMap (loadLine fromJson)
  | none => []

/-- One action.  A restart loses the memory and the calls under way. -/
def step (s : State Shared (List Instr)) : Action → State Shared (List Instr) × List FileWrite
  | .task a => Interleaving.step (system toJson) s a
  | .restart => (⟨⟨loadExisting fromJson s.shared.file, s.shared.file, false⟩, []⟩, [])

/-- A log without records. -/
def start : State Shared (List Instr) := ⟨⟨[], [], false⟩, []⟩

/-! ## What the log relies on -/

/-- The texts of some records are JSON objects on one line, none of which begins with another one,
and the pieces of such texts are read as a record when they are one whole text only. -/
structure Serde (S : TradeRecord → Prop) : Prop where
  braces : ∀ r, S r → ∃ body, toJson r = '{' :: (body ++ ['}'])
  noBreak : ∀ r, S r → '\n' ∉ toJson r
  prefixFree : ∀ r r', S r → S r' → toJson r <+: toJson r' → r = r'
  reads : ∀ pieces : List (List Char), (∀ p ∈ pieces, p ≠ [] ∧ ∃ r, S r ∧ p <+: toJson r) →
    ∀ r, fromJson pieces.flatten = some r ↔ S r ∧ pieces = [toJson r]

end Model

/-! ## One line -/

/-- A nonempty beginning of some joined pieces ends within one of them. -/
lemma exists_of_prefix_flatten {α : Type*} (pieces : List (List α)) {l : List α} (hne : l ≠ [])
    (h : l <+: pieces.flatten) :
    ∃ front p back q, pieces = front ++ p :: back ∧ q <+: p ∧ q ≠ [] ∧ l = front.flatten ++ q := by
  induction pieces generalizing l with
  | nil => exact absurd (List.prefix_nil.mp h) hne
  | cons p pieces ih =>
    obtain ⟨t, ht⟩ := h
    rw [List.flatten_cons] at ht
    rcases List.append_eq_append_iff.mp ht with ⟨p', rfl, -⟩ | ⟨l', rfl, hl'⟩
    · exact ⟨[], _, pieces, l, rfl, List.prefix_append l p', hne, rfl⟩
    · by_cases hnil : l' = []
      · subst hnil
        rw [List.append_nil] at hne ⊢
        exact ⟨[], p, pieces, p, rfl, List.prefix_refl p, hne, rfl⟩
      · obtain ⟨front, p', back, q, rfl, hq, hqne, rfl⟩ := ih hnil ⟨t, hl'.symm⟩
        exact ⟨p :: front, p', back, q, rfl, hq, hqne, by simp⟩

section Line

variable {toJson : TradeRecord → List Char} {fromJson : List Char → Option TradeRecord}
  {S : TradeRecord → Prop}

/-- A nonempty beginning of the text of some record. -/
def Piece (toJson : TradeRecord → List Char) (S : TradeRecord → Prop) (p : List Char) : Prop :=
  p ≠ [] ∧ ∃ r, S r ∧ p <+: toJson r

/-- A piece begins with a brace. -/
lemma Serde.head_piece (h : Serde toJson fromJson S) {p : List Char} (hp : Piece toJson S p) :
    ∃ rest, p = '{' :: rest := by
  obtain ⟨hne, r, hr, hbegins⟩ := hp
  obtain ⟨body, hbody⟩ := h.braces r hr
  obtain ⟨c, rest, rfl⟩ := List.exists_cons_of_ne_nil hne
  rw [hbody] at hbegins
  exact ⟨rest, by rw [(List.cons_prefix_cons.mp hbegins).1]⟩

/-- A text that begins with a brace is trimmed to what is left without the white space at its
end. -/
lemma exists_trim_brace (text : List Char) :
    ∃ white, '{' :: text = DynamicFees.trim ('{' :: text) ++ white ∧
      (∀ c ∈ white, DynamicFees.isWhiteSpace c = true) ∧ DynamicFees.trim ('{' :: text) ≠ [] := by
  have hopen : DynamicFees.isWhiteSpace '{' = false := by decide
  have htrim : DynamicFees.trim ('{' :: text) =
      ('{' :: text).rdropWhile DynamicFees.isWhiteSpace := by
    rw [DynamicFees.trim, List.dropWhile_cons, hopen, if_neg Bool.false_ne_true]
  rw [htrim]
  refine ⟨_, (List.rdropWhile_append_rtakeWhile).symm, fun c hc => List.mem_rtakeWhile_imp hc, ?_⟩
  intro hnil
  have hall := List.rdropWhile_eq_nil_iff.mp hnil '{' List.mem_cons_self
  rw [hopen] at hall
  cases hall

/-- The text of a record is trimmed already. -/
lemma Serde.trim_toJson (h : Serde toJson fromJson S) {r : TradeRecord} (hr : S r) :
    DynamicFees.trim (toJson r) = toJson r := by
  obtain ⟨body, hbody⟩ := h.braces r hr
  have hclose : DynamicFees.isWhiteSpace '}' = false := by decide
  obtain ⟨white, hwhite, hall, -⟩ := exists_trim_brace (body ++ ['}'])
  rw [← hbody] at hwhite
  rcases List.eq_nil_or_concat white with rfl | ⟨front, last, rfl⟩
  · rw [List.append_nil] at hwhite
    exact hwhite.symm
  · -- the last character is a brace, which is no white space
    have hlast := congrArg List.getLast? hwhite
    rw [hbody, ← List.cons_append, List.concat_eq_append, ← List.append_assoc,
      List.getLast?_concat, List.getLast?_concat] at hlast
    have hspace := hall last (by simp)
    rw [← Option.some.inj hlast, hclose] at hspace
    cases hspace

/-- A line of pieces is read as a record when it is one whole text. -/
lemma loadLine_flatten (h : Serde toJson fromJson S) {pieces : List (List Char)}
    (hpieces : ∀ p ∈ pieces, Piece toJson S p) (r : TradeRecord) :
    loadLine fromJson pieces.flatten = some r ↔ S r ∧ pieces = [toJson r] := by
  unfold loadLine
  dsimp only
  constructor
  · intro hload
    cases pieces with
    | nil => cases hload
    | cons p pieces =>
      obtain ⟨rest, rfl⟩ := h.head_piece (hpieces _ List.mem_cons_self)
      obtain ⟨white, hwhite, hall, hne⟩ := exists_trim_brace (rest ++ pieces.flatten)
      rw [List.flatten_cons, List.cons_append, if_neg hne] at hload
      -- what is left of the line is made of pieces again, so it is one whole text
      obtain ⟨front, p, back, q, heq, hq, hqne, htrim⟩ :=
        exists_of_prefix_flatten (('{' :: rest) :: pieces) hne ⟨white, hwhite.symm⟩
      rw [htrim, ← List.flatten_concat] at hload
      have hfront : ∀ p' ∈ front ++ [q], Piece toJson S p' := by
        rw [heq] at hpieces
        intro p' hp'
        rcases List.mem_append.mp hp' with hp' | hp'
        · exact hpieces p' (List.mem_append_left _ hp')
        · obtain ⟨-, r', hr', hbegins⟩ := hpieces p (by simp)
          rw [List.mem_singleton.mp hp']
          exact ⟨hqne, r', hr', hq.trans hbegins⟩
      obtain ⟨hr, hwhole⟩ := (h.reads _ hfront r).mp hload
      obtain rfl : front = [] := by
        have hlength := congrArg List.length hwhole
        simp only [List.length_append, List.length_singleton] at hlength
        exact List.length_eq_zero_iff.mp (by omega)
      obtain rfl : q = toJson r := List.singleton_inj.mp hwhole
      refine ⟨hr, ?_⟩
      obtain ⟨-, r', hr', hbegins⟩ := hpieces p (by rw [heq]; exact List.mem_cons_self)
      obtain rfl := h.prefixFree r r' hr hr' (hq.trans hbegins)
      obtain rfl : p = toJson r := hbegins.eq_of_length_le hq.length_le
      rw [heq]
      cases back with
      | nil => rfl
      | cons p' back =>
        -- the next piece would begin with a brace, which is not trimmed
        obtain ⟨rest', rfl⟩ := h.head_piece (hpieces p' (by rw [heq]; simp))
        have hline : '{' :: (rest ++ pieces.flatten) =
            toJson r ++ ('{' :: rest' ++ back.flatten) := by
          rw [← List.cons_append, ← List.flatten_cons, heq]
          simp
        rw [htrim, List.flatten_nil, List.nil_append, hline] at hwhite
        rw [← List.append_cancel_left hwhite] at hall
        have hspace := hall '{' (by simp)
        have hopen : DynamicFees.isWhiteSpace '{' = false := by decide
        rw [hopen] at hspace
        cases hspace
  · rintro ⟨hr, rfl⟩
    obtain ⟨body, hbody⟩ := h.braces r hr
    have hne : toJson r ≠ [] := by
      rw [hbody]
      exact List.cons_ne_nil _ _
    rw [List.flatten_singleton, h.trim_toJson hr, if_neg hne]
    have hread := (h.reads [toJson r] (fun p hp => ?_) r).mpr ⟨hr, rfl⟩
    · rwa [List.flatten_singleton] at hread
    · rw [List.mem_singleton.mp hp]
      exact ⟨by rw [hbody]; exact List.cons_ne_nil _ _, r, hr, List.prefix_refl _⟩

end Line

/-! ## The writes -/

/-- Some write was cut within a character. -/
def Fragmented (writes : List FileWrite) : Prop :=
  ∃ piece, .part piece ∈ writes ∧ none ∈ piece

/-- A write of a record with a property: its whole text, or a proper part of it. -/
def IsWrite (toJson : TradeRecord → List Char) (S : TradeRecord → Prop) : FileWrite → Prop
  | .whole record => S record
  | .part piece => ∃ record length, S record ∧ length < (toJson record).length ∧
      (piece = ((toJson record).take length).map some ∧ 0 < length ∨
        piece = ((toJson record).take length).map some ++ [none])
  | .lineBreak => True

section Writes

variable {toJson : TradeRecord → List Char} {fromJson : List Char → Option TradeRecord}
  {S : TradeRecord → Prop}

/-- A text that is written is that of its record, or a part of it. -/
lemma isWrite_textWrite {record : TradeRecord} (hrecord : S record) {outcome : WriteOutcome}
    {w : FileWrite} (h : textWrite toJson record outcome = some w) : IsWrite toJson S w := by
  cases outcome with
  | done =>
    cases h
    exact hrecord
  | cut length within =>
    simp only [textWrite] at h
    split_ifs at h with hlength hnone hwithin
    · cases h
      exact hrecord
    · cases h
      exact ⟨record, length, hrecord, not_le.mp hlength, Or.inr rfl⟩
    · cases h
      refine ⟨record, length, hrecord, not_le.mp hlength, Or.inl ⟨List.append_nil _, ?_⟩⟩
      rcases Nat.eq_zero_or_pos length with hzero | hpos
      · exact absurd ⟨hzero, Bool.not_eq_true _ ▸ hwithin⟩ hnone
      · exact hpos

lemma reduceOption_map_some (text : List Char) : (text.map some).reduceOption = text := by
  rw [List.reduceOption, List.filterMap_map]
  exact List.filterMap_some

/-- The text of the file without the cut characters. -/
lemma reduceOption_content (writes : List FileWrite) :
    (content (recordText toJson) (some '\n') writes).reduceOption =
      content toJson '\n' (writes.map (Write.mapText List.reduceOption)) := by
  induction writes with
  | nil => rfl
  | cons w writes ih =>
    rw [content_cons, List.map_cons, content_cons, List.reduceOption_append, ih]
    congr 1
    cases w with
    | whole record => exact reduceOption_map_some _
    | part piece => rfl
    | lineBreak => rfl

/-- The file has a cut character exactly when some write was cut within one. -/
lemma any_isNone_content (writes : List FileWrite) :
    (content (recordText toJson) (some '\n') writes).any Option.isNone = true ↔
      Fragmented writes := by
  rw [List.any_eq_true]
  constructor
  · rintro ⟨c, hc, hnone⟩
    obtain ⟨w, hw, hc⟩ := List.mem_flatMap.mp hc
    obtain rfl := Option.isNone_iff_eq_none.mp hnone
    cases w with
    | whole record =>
      obtain ⟨c, -, hc⟩ := List.mem_map.mp hc
      cases hc
    | part piece => exact ⟨piece, hw, hc⟩
    | lineBreak => exact absurd (List.mem_singleton.mp hc) (Option.some_ne_none _).symm
  · rintro ⟨piece, hpiece, hnone⟩
    exact ⟨none, List.mem_flatMap.mpr ⟨_, hpiece, hnone⟩, rfl⟩

/-- Without a cut character, what a write puts into a line is a piece of the text of a record, and
the whole text of a record is put there by its own write. -/
lemma piece_text (h : Serde toJson fromJson S) {w : FileWrite} (hw : IsWrite toJson S w)
    (hbreak : w.isBreak = false) (hfragment : ∀ piece, w = .part piece → none ∉ piece) :
    Piece toJson S ((w.mapText List.reduceOption).text toJson '\n') ∧
      ∀ r, S r → ((w.mapText List.reduceOption).text toJson '\n' = toJson r ↔
        w = .whole r) := by
  cases w with
  | whole record =>
    have hrecord : S record := hw
    obtain ⟨body, hbody⟩ := h.braces record hrecord
    refine ⟨⟨by rw [Write.mapText, Write.text, hbody]; exact List.cons_ne_nil _ _, record, hrecord,
      List.prefix_refl _⟩, fun r hr => ?_⟩
    constructor
    · intro heq
      change toJson record = toJson r at heq
      rw [h.prefixFree record r hrecord hr (heq ▸ List.prefix_refl _)]
    · intro heq
      rw [Write.whole.inj heq]
      rfl
  | part piece =>
    obtain ⟨record, length, hrecord, hlength, ⟨rfl, hpos⟩ | rfl⟩ := hw
    · have htext : (Write.mapText List.reduceOption
          (.part (((toJson record).take length).map some) : FileWrite)).text toJson '\n' =
          (toJson record).take length := reduceOption_map_some _
      rw [htext]
      have htake : ((toJson record).take length).length = length :=
        List.length_take_of_le hlength.le
      refine ⟨⟨fun hnil => ?_, record, hrecord, List.take_prefix _ _⟩, fun r hr => ?_⟩
      · rw [hnil] at htake
        exact hpos.ne htake
      · refine iff_of_false (fun heq => ?_) (by simp)
        have hsame := h.prefixFree r record hr hrecord (heq ▸ List.take_prefix _ _)
        rw [heq, hsame] at htake
        omega
    · exact absurd (by simp) (hfragment _ rfl)
  | lineBreak => cases hbreak

/-- Without a cut character, a line is read as a record when it is intact. -/
lemma loadLine_line (h : Serde toJson fromJson S) {line : List FileWrite}
    (hline : ∀ w ∈ line, IsWrite toJson S w ∧ w.isBreak = false ∧
      ∀ piece, w = .part piece → none ∉ piece) :
    loadLine fromJson (content toJson '\n' (line.map (Write.mapText List.reduceOption))) =
      intactRecord line := by
  have hflatten : content toJson '\n' (line.map (Write.mapText List.reduceOption)) =
      (line.map fun w => (w.mapText List.reduceOption).text toJson '\n').flatten := by
    rw [content, List.flatMap_map, List.flatMap_def]
  have hpieces : ∀ p ∈ line.map fun w => (w.mapText List.reduceOption).text toJson '\n',
      Piece toJson S p := by
    intro p hp
    obtain ⟨w, hw, rfl⟩ := List.mem_map.mp hp
    obtain ⟨hwrite, hbreak, hfragment⟩ := hline w hw
    exact (piece_text h hwrite hbreak hfragment).1
  refine Option.ext fun r => ?_
  rw [hflatten, loadLine_flatten h hpieces r]
  constructor
  · rintro ⟨hr, heq⟩
    obtain ⟨w, rfl⟩ := List.length_eq_one_iff.mp ((List.length_map _).symm.trans
      (congrArg List.length heq))
    obtain ⟨hwrite, hbreak, hfragment⟩ := hline w (List.mem_singleton_self w)
    rw [((piece_text h hwrite hbreak hfragment).2 r hr).mp (List.singleton_inj.mp heq)]
    rfl
  · intro hintact
    unfold intactRecord at hintact
    split at hintact
    · cases hintact
      exact ⟨(hline _ (List.mem_singleton_self _)).1, rfl⟩
    · cases hintact

/-- The file is read back as the records of its intact lines, or not at all when a character is
cut. -/
lemma loadExisting_content (h : Serde toJson fromJson S) {writes : List FileWrite}
    (hwrites : ∀ w ∈ writes, IsWrite toJson S w) :
    (Fragmented writes →
        loadExisting fromJson (content (recordText toJson) (some '\n') writes) = []) ∧
      (¬ Fragmented writes →
        loadExisting fromJson (content (recordText toJson) (some '\n') writes) =
          intact writes) := by
  unfold loadExisting readToString
  refine ⟨fun hfragmented => ?_, fun hfragmented => ?_⟩
  · rw [if_pos ((any_isNone_content writes).mpr hfragmented)]
  · rw [if_neg fun hany => hfragmented ((any_isNone_content writes).mp hany)]
    dsimp only
    have hclear : ∀ w ∈ writes, ∀ piece, w = .part piece → none ∉ piece := by
      rintro w hw piece rfl hnone
      exact hfragmented ⟨piece, hw, hnone⟩
    rw [reduceOption_content, ← intact_map_mapText List.reduceOption]
    apply filterMap_splitOn_content
    · intro w' hw' hbreak
      obtain ⟨w, hw, rfl⟩ := List.mem_map.mp hw'
      have hbreak' : w.isBreak = false := by cases w <;> exact hbreak
      obtain ⟨⟨-, r, hr, hbegins⟩, -⟩ := piece_text h (hwrites w hw) hbreak' (hclear w hw)
      exact fun hmem => h.noBreak r hr (hbegins.subset hmem)
    · intro line' hline'
      rw [lines_map_mapText] at hline'
      obtain ⟨line, hline, rfl⟩ := List.mem_map.mp hline'
      have hmem := mem_of_mem_lines hline
      rw [intactRecord_map_mapText]
      exact loadLine_line h fun w hw =>
        ⟨hwrites w (hmem w hw).1, (hmem w hw).2, hclear w (hmem w hw).1⟩

end Writes

/-! ## Runs of the log -/

/-- The record of a part of a call. -/
def Instr.record? : Instr → Option TradeRecord
  | .push record => some record
  | .text record => some record
  | _ => none

/-- The parts of a call are about records with a property. -/
def About (S : TradeRecord → Prop) (instrs : List Instr) : Prop :=
  ∀ record ∈ instrs.filterMap Instr.record?, S record

/-- Some call of a run is about a record. -/
def Recorded (actions : List Action) (record : TradeRecord) : Prop :=
  ∃ call, .task (.enter call) ∈ actions ∧ record ∈ call.records

/-- The file, the writes and the calls under way of a log whose records have a property. -/
structure Journal (toJson : TradeRecord → List Char) (S : TradeRecord → Prop)
    (s : State Shared (List Instr)) (writes : List FileWrite) : Prop where
  file : s.shared.file = content (recordText toJson) (some '\n') writes
  writes : ∀ w ∈ writes, IsWrite toJson S w
  inFlight : ∀ instrs ∈ s.inFlight, About S instrs

section Run

variable {toJson : TradeRecord → List Char} {fromJson : List Char → Option TradeRecord}
  {S : TradeRecord → Prop}

lemma about_instrs {call : Call} (h : ∀ record ∈ call.records, S record) :
    About S call.instrs := by
  intro record hrecord
  apply h
  cases call <;> simp [Call.instrs, Call.records, Instr.record?] at hrecord ⊢ <;> tauto

lemma About.tail {i : Instr} {instrs : List Instr} (h : About S (i :: instrs)) :
    About S instrs := by
  intro record hrecord
  apply h
  rw [List.filterMap_cons]
  cases i.record? with
  | none => exact hrecord
  | some _ => exact List.mem_cons_of_mem _ hrecord

/-- What is left of a call is about its records. -/
lemma about_remaining {instrs instrs' : List Instr} (h : About S instrs)
    (hinstrs : instrs' ∈ remaining instrs) : About S instrs' := by
  unfold remaining at hinstrs
  split_ifs at hinstrs
  · cases hinstrs
  · cases hinstrs
    exact h

lemma about_behindWrite {instrs : List Instr} (h : About S instrs) (w : FileWrite) :
    About S (behindWrite instrs w) := by
  cases w <;> exact h

/-- A part of a call appends its writes to the file, which are of its records, and leaves a call
about them. -/
lemma perform_spec (toJson : TradeRecord → List Char) (s : Shared) (outcome : WriteOutcome)
    {instrs : List Instr} (h : About S instrs) :
    (perform toJson s outcome instrs).shared.file =
        s.file ++ content (recordText toJson) (some '\n')
          (perform toJson s outcome instrs).events ∧
      (∀ w ∈ (perform toJson s outcome instrs).events, IsWrite toJson S w) ∧
      ∀ instrs' ∈ (perform toJson s outcome instrs).remaining, About S instrs' := by
  have hsilent : ∀ {s' : Shared} {left : Option (List Instr)}, s'.file = s.file →
      (∀ instrs' ∈ left, About S instrs') →
      s'.file = s.file ++ content (recordText toJson) (some '\n') [] ∧
        (∀ w ∈ ([] : List FileWrite), IsWrite toJson S w) ∧ ∀ instrs' ∈ left, About S instrs' := by
    intro s' left hfile hleft
    exact ⟨by rw [hfile, content_nil, List.append_nil], fun w hw => (by cases hw), hleft⟩
  cases instrs with
  | nil => exact hsilent rfl fun _ hleft => by cases hleft
  | cons i instrs =>
    have hrest : ∀ instrs' ∈ remaining instrs, About S instrs' := fun _ => about_remaining h.tail
    cases i with
    | lock =>
      unfold perform
      split_ifs
      · refine hsilent rfl fun instrs' hleft => ?_
        cases hleft
        exact h
      · exact hsilent rfl hrest
    | unlock => exact hsilent rfl hrest
    | push record => exact hsilent rfl hrest
    | text record =>
      have hrecord : S record := h record (by simp [Instr.record?])
      simp only [perform]
      cases htext : textWrite toJson record outcome with
      | none => exact hsilent rfl hrest
      | some w =>
        refine ⟨?_, ?_, fun _ => about_remaining (about_behindWrite h.tail w)⟩
        · simp [content]
        · intro w' hw'
          rw [List.mem_singleton.mp hw']
          exact isWrite_textWrite hrecord htext
    | newline =>
      cases outcome with
      | done =>
        refine ⟨rfl, ?_, hrest⟩
        intro w hw
        rw [List.mem_singleton.mp hw]
        trivial
      | cut length within => exact hsilent rfl hrest

/-- One action keeps the journal. -/
lemma Journal.step {s : State Shared (List Instr)} {writes : List FileWrite}
    (h : Journal toJson S s writes) {a : Action}
    (ha : ∀ call, a = .task (.enter call) → ∀ record ∈ call.records, S record) :
    Journal toJson S (step toJson fromJson s a).1 (writes ++ (step toJson fromJson s a).2) := by
  cases a with
  | restart =>
    refine ⟨?_, ?_, fun _ hi => absurd hi List.not_mem_nil⟩
    · simpa [TradeJournal.step] using h.file
    · simpa [TradeJournal.step] using h.writes
  | task a =>
    change Journal toJson S (Interleaving.step (system toJson) s a).1
      (writes ++ (Interleaving.step (system toJson) s a).2)
    rcases step_cases (system toJson) s a with ⟨call, rfl, hstate, hevents⟩ |
      ⟨-, hstep⟩ | ⟨position, outcome, instrs, others, -, hop, hbefore, hshared, hafter, hevents⟩
    · rw [hstate, hevents]
      refine ⟨?_, ?_, fun instrs hinstrs => ?_⟩
      · simpa [system] using h.file
      · simpa [system] using h.writes
      · rcases List.mem_append.mp hinstrs with hinstrs | hinstrs
        · exact h.inFlight instrs hinstrs
        · obtain rfl : instrs = call.instrs := by simpa [system] using hinstrs
          exact about_instrs (ha call rfl)
    · rw [hstep, List.append_nil]
      exact h
    · have hinstrs := h.inFlight instrs (List.mem_of_getElem? hop)
      obtain ⟨hfile, hwrites, hleft⟩ := perform_spec toJson s.shared outcome hinstrs
      refine ⟨?_, ?_, ?_⟩
      · rw [hshared, hevents, content_append, ← h.file]
        exact hfile
      · rw [hevents]
        exact fun w hw => (List.mem_append.mp hw).elim (h.writes w) (hwrites w)
      · exact forall_inFlight_access hbefore hafter h.inFlight (fun _ _ hold => hold) hleft

/-- The journal of every run. -/
lemma journal_run (toJson : TradeRecord → List Char) (fromJson : List Char → Option TradeRecord)
    (actions : List Action) :
    Journal toJson (Recorded actions) (runState (step toJson fromJson) start actions)
      (runTrace (step toJson fromJson) start actions) := by
  have hstart : Journal toJson (Recorded actions) start [] :=
    ⟨rfl, fun _ hw => absurd hw List.not_mem_nil, fun _ hi => absurd hi List.not_mem_nil⟩
  have hrun : Journal toJson (Recorded actions) (runState (step toJson fromJson) start actions)
      ([] ++ runTrace (step toJson fromJson) start actions) := by
    refine run_induction (C := fun _ _ a => a ∈ actions) (fun s writes a hs ha =>
      hs.step fun call hcall record hrecord => ⟨call, hcall ▸ ha, hrecord⟩) hstart ?_
    rintro before a rest rfl
    simp
  simpa using hrun

/-- Whatever the calls, their failures and the restarts, a restart finds the records of the lines
that hold one whole text and nothing else, and none at all when some write was cut within a
character. -/
theorem loadExisting_run (actions : List Action)
    (hserde : Serde toJson fromJson (Recorded actions)) :
    (Fragmented (runTrace (step toJson fromJson) start actions) →
        loadExisting fromJson (runState (step toJson fromJson) start actions).shared.file = []) ∧
      (¬ Fragmented (runTrace (step toJson fromJson) start actions) →
        loadExisting fromJson (runState (step toJson fromJson) start actions).shared.file =
          intact (runTrace (step toJson fromJson) start actions)) := by
  have hjournal := journal_run toJson fromJson actions
  rw [hjournal.file]
  exact loadExisting_content hserde hjournal.writes

end Run

/-! ## Runs without a failure -/

/-- No write fails, and the program is not restarted. -/
def Faultless : Action → Prop
  | .task (.enter _) => True
  | .task (.access _ outcome) => outcome = .done
  | .restart => False

/-- The record that a part of a call pushes. -/
def Instr.pushed? : Instr → Option TradeRecord
  | .push record => some record
  | _ => none

/-- The record whose text a part of a call writes. -/
def Instr.written? : Instr → Option TradeRecord
  | .text record => some record
  | _ => none

/-- The records that a call has still to push. -/
def pushes (instrs : List Instr) : Multiset TradeRecord := (instrs.filterMap Instr.pushed? : List _)

/-- The records whose texts a call has still to write. -/
def texts (instrs : List Instr) : Multiset TradeRecord := (instrs.filterMap Instr.written? : List _)

/-- Calls push the records whose texts they write. -/
lemma pushes_instrs (call : Call) : pushes call.instrs = texts call.instrs := by
  cases call <;> rfl

/-- What is left to do does not depend on whether an empty rest counts as one. -/
lemma getD_map_remaining (weight : List Instr → Multiset TradeRecord) (h : weight [] = 0)
    (instrs : List Instr) : ((remaining instrs).map weight).getD 0 = weight instrs := by
  cases instrs with
  | nil => exact h.symm
  | cons i instrs => rfl

/-- A quantity that moves within two sums leaves their balance. -/
lemma balance_moved {M : Type*} [AddCancelCommMonoid M] {r r' p p' w e t t' a a' b b' : M}
    (h : r + p = w + t) (hr : r' + a' = r + a) (hp : p' + a = p + a') (he : e + b' = b)
    (ht : t' + b = t + b') : r' + p' = w + e + t' := by
  have htexts : t' + e = t := by
    rw [← he, ← add_assoc] at ht
    exact add_right_cancel ht
  apply add_right_cancel (b := a)
  calc r' + p' + a = r' + (p' + a) := add_assoc ..
    _ = r' + a' + p := by rw [hp, add_comm p, add_assoc]
    _ = r + p + a := by rw [hr, add_right_comm]
    _ = w + e + t' + a := by rw [h, ← htexts, add_comm t' e, ← add_assoc w]

section Faultless

variable {toJson : TradeRecord → List Char} {fromJson : List Char → Option TradeRecord}

/-- A record is in memory or still to be pushed. -/
lemma perform_pushes (toJson : TradeRecord → List Char) (s : Shared) (outcome : WriteOutcome)
    (instrs : List Instr) :
    ((perform toJson s outcome instrs).shared.records : Multiset TradeRecord) +
        ((perform toJson s outcome instrs).remaining.map pushes).getD 0 =
      (s.records : Multiset TradeRecord) + pushes instrs := by
  cases instrs with
  | nil => rfl
  | cons i instrs =>
    cases i with
    | lock =>
      simp only [perform]
      split_ifs
      · rfl
      · rw [getD_map_remaining _ rfl]
        rfl
    | unlock =>
      simp only [perform, getD_map_remaining pushes rfl]
      rfl
    | push record =>
      simp only [perform, getD_map_remaining pushes rfl]
      rw [← Multiset.coe_add, add_assoc]
      rfl
    | text record =>
      simp only [perform]
      cases textWrite toJson record outcome with
      | none =>
        rw [getD_map_remaining _ rfl]
        rfl
      | some w =>
        rw [getD_map_remaining _ rfl]
        cases w <;> rfl
    | newline =>
      cases outcome <;> simp only [perform, getD_map_remaining pushes rfl] <;> rfl

/-- Without a failure, the text of a record is written whole or still to be written, and nothing
else is written but line breaks. -/
lemma perform_texts (toJson : TradeRecord → List Char) (s : Shared) (instrs : List Instr) :
    (LineLog.records (perform toJson s .done instrs).events : Multiset TradeRecord) +
        ((perform toJson s .done instrs).remaining.map texts).getD 0 = texts instrs ∧
      ∀ piece, .part piece ∉ (perform toJson s .done instrs).events := by
  cases instrs with
  | nil => exact ⟨rfl, fun _ => List.not_mem_nil⟩
  | cons i instrs =>
    cases i with
    | lock =>
      simp only [perform]
      split_ifs
      · exact ⟨rfl, fun _ => List.not_mem_nil⟩
      · rw [getD_map_remaining _ rfl]
        exact ⟨rfl, fun _ => List.not_mem_nil⟩
    | unlock =>
      simp only [perform, getD_map_remaining texts rfl]
      exact ⟨rfl, fun _ => List.not_mem_nil⟩
    | push record =>
      simp only [perform, getD_map_remaining texts rfl]
      exact ⟨rfl, fun _ => List.not_mem_nil⟩
    | text record =>
      simp only [perform, textWrite, getD_map_remaining texts rfl]
      exact ⟨rfl, by simp⟩
    | newline =>
      simp only [perform, getD_map_remaining texts rfl]
      exact ⟨rfl, by simp⟩

/-- The records in memory or still to be pushed are those whose texts are written whole or still to
be written. -/
structure Balanced (s : State Shared (List Instr)) (writes : List FileWrite) : Prop where
  records : (s.shared.records : Multiset TradeRecord) + (s.inFlight.map pushes).sum =
    (LineLog.records writes : Multiset TradeRecord) + (s.inFlight.map texts).sum
  whole : ∀ piece, .part piece ∉ writes

lemma Balanced.step {s : State Shared (List Instr)} {writes : List FileWrite}
    (h : Balanced s writes) {a : Action} (ha : Faultless a) :
    Balanced (step toJson fromJson s a).1 (writes ++ (step toJson fromJson s a).2) := by
  cases a with
  | restart => exact ha.elim
  | task a =>
    change Balanced (Interleaving.step (system toJson) s a).1
      (writes ++ (Interleaving.step (system toJson) s a).2)
    rcases step_cases (system toJson) s a with ⟨call, rfl, hstate, hevents⟩ |
      ⟨-, hstep⟩ | ⟨position, outcome, instrs, others, rfl, -, hbefore, hshared, hafter, hevents⟩
    · rw [hstate, hevents]
      refine ⟨?_, by simpa [system] using h.whole⟩
      have hcall : (system toJson).enter call = (some call.instrs, []) := rfl
      rw [hcall, List.append_nil, List.map_append, List.map_append, List.sum_append,
        List.sum_append, ← add_assoc, ← add_assoc, h.records]
      exact congrArg _ (congrArg (· + 0) (pushes_instrs call))
    · rw [hstep, List.append_nil]
      exact h
    · obtain rfl : outcome = .done := ha
      have hpush := perform_pushes toJson s.shared .done instrs
      obtain ⟨htext, hwhole⟩ := perform_texts toJson s.shared instrs
      have hpushes := sum_inFlight_access pushes hbefore hafter
      have htexts := sum_inFlight_access texts hbefore hafter
      have haccess : (system toJson).access s.shared .done instrs =
          perform toJson s.shared .done instrs := rfl
      rw [haccess] at hshared hevents hpushes htexts
      have hrecords : LineLog.records (writes ++ (perform toJson s.shared .done instrs).events) =
          LineLog.records writes ++
            LineLog.records (perform toJson s.shared .done instrs).events :=
        List.filterMap_append
      refine ⟨?_, ?_⟩
      · rw [hshared, hevents, hrecords, ← Multiset.coe_add]
        exact balance_moved h.records hpush hpushes htext htexts
      · rw [hevents]
        exact fun piece hpiece =>
          (List.mem_append.mp hpiece).elim (h.whole piece) (hwhole piece)

/-- The balance of every run without a failure. -/
lemma balanced_run (toJson : TradeRecord → List Char) (fromJson : List Char → Option TradeRecord)
    {actions : List Action} (h : ∀ a ∈ actions, Faultless a) :
    Balanced (runState (step toJson fromJson) start actions)
      (runTrace (step toJson fromJson) start actions) := by
  have hstart : Balanced start [] := ⟨rfl, fun _ => List.not_mem_nil⟩
  have hrun : Balanced (runState (step toJson fromJson) start actions)
      ([] ++ runTrace (step toJson fromJson) start actions) := by
    refine run_induction (C := fun _ _ a => Faultless a) (fun s writes a hs ha => hs.step ha)
      hstart ?_
    rintro before a rest rfl
    exact h a (by simp)
  simpa using hrun

/-- When no write has failed and every call has returned, a restart finds the records that are in
memory, in some order, exactly when every line has one text at most: when no text has come between
the text of a record and its line break. -/
theorem loadExisting_perm_iff (actions : List Action)
    (hserde : Serde toJson fromJson (Recorded actions)) (hfaultless : ∀ a ∈ actions, Faultless a)
    (hreturned : (runState (step toJson fromJson) start actions).inFlight = []) :
    (loadExisting fromJson
        (runState (step toJson fromJson) start actions).shared.file).Perm
        (runState (step toJson fromJson) start actions).shared.records ↔
      ∀ line ∈ lines (runTrace (step toJson fromJson) start actions), line.length ≤ 1 := by
  obtain ⟨hrecords, hwhole⟩ := balanced_run toJson fromJson hfaultless
  have hclear : ¬ Fragmented (runTrace (step toJson fromJson) start actions) := by
    rintro ⟨piece, hpiece, -⟩
    exact hwhole piece hpiece
  have hjournal := journal_run toJson fromJson actions
  rw [hjournal.file, (loadExisting_content hserde hjournal.writes).2 hclear]
  rw [hreturned, List.map_nil, List.sum_nil, List.map_nil, List.sum_nil, add_zero, add_zero]
    at hrecords
  have hmemory := Multiset.coe_eq_coe.mp hrecords
  have hiff := length_intact_eq_iff (runTrace (step toJson fromJson) start actions)
  have hsub := intact_sublist_records (runTrace (step toJson fromJson) start actions)
  have hlines : ∀ line ∈ lines (runTrace (step toJson fromJson) start actions), ∀ w ∈ line,
      ∃ record, w = .whole record := by
    intro line hline w hw
    obtain ⟨hmem, hbreak⟩ := mem_of_mem_lines hline w hw
    cases w with
    | whole record => exact ⟨record, rfl⟩
    | part piece => exact absurd hmem (hwhole piece)
    | lineBreak => cases hbreak
  constructor
  · intro hperm line hline
    have hshare := hiff.mp ((hperm.trans hmemory).length_eq) line hline
    cases line with
    | nil => exact Nat.zero_le _
    | cons w rest =>
      obtain ⟨record, rfl⟩ := hlines _ hline w List.mem_cons_self
      rw [hshare record List.mem_cons_self]
      exact le_rfl
  · intro hshort
    have hlength := hiff.mpr fun line hline record hrecord => ?_
    · rw [hsub.eq_of_length hlength]
      exact hmemory.symm
    · obtain ⟨w, rfl⟩ := List.length_eq_one_iff.mp
        (le_antisymm (hshort line hline) (List.length_pos_of_mem hrecord))
      rw [List.mem_singleton.mp hrecord]

end Faultless

/-! ## Two trades -/

/-- A character in a JSON string. -/
def escapeJson (c : Char) : List Char :=
  if c = '"' then ['\\', '"']
  else if c = '\\' then ['\\', '\\']
  else if c = '\n' then ['\\', 'n']
  else [c]

/-- A JSON string. -/
def jsonString (text : List Char) : List Char := '"' :: (text.flatMap escapeJson ++ ['"'])

/-- A field of a JSON object. -/
def jsonField (name : String) (value : List Char) : List Char :=
  jsonString name.toList ++ ':' :: value

/-- A value that may be missing. -/
def jsonOption (value : Option (List Char)) : List Char :=
  (value.map jsonString).getD "null".toList

/-- The fields of the JSON object of a trade. -/
def jsonFields (t : TradeRecord) : List Char :=
  [','].intercalate
    [jsonField "trade_id" (jsonString t.tradeId),
      jsonField "timestamp" (displayInt t.timestamp.toInt),
      jsonField "exchange_id" (Nat.toDigits 10 t.exchangeId.toNat),
      jsonField "exchange_name" (jsonString t.exchangeName),
      jsonField "symbol" (jsonString t.symbol),
      jsonField "side" (jsonString t.side),
      jsonField "quantity" (jsonString t.quantity.display),
      jsonField "price" (jsonString t.price.display),
      jsonField "fee" (jsonString t.fee.display),
      jsonField "pnl_realized" (jsonOption (t.pnlRealized.map RustDecimal.display)),
      jsonField "strategy" (jsonString t.strategy),
      jsonField "pair_trade_id" (jsonOption t.pairTradeId)]

/-- The JSON object of a trade. -/
def jsonRecord (t : TradeRecord) : List Char := '{' :: (jsonFields t ++ ['}'])

/-- A trade with plain texts. -/
def plainTrade : TradeRecord where
  tradeId := "6ba7b810-9dad-41d1-80b4-00c04fd430c8".toList
  timestamp := 1700000000250
  exchangeId := 3
  exchangeName := "Kraken".toList
  symbol := "ETHUSDT".toList
  side := "SELL".toList
  quantity := TradeLog.decimalOf false 1 2
  price := TradeLog.decimalOf false 0 3100
  fee := TradeLog.decimalOf false 2 31
  pnlRealized := none
  strategy := "triangular".toList
  pairTradeId := some "550e8400-e29b-41d4-a716-446655440000".toList

/-- The trade with quotes and a line break, and the plain one. -/
def twoTrades : List TradeRecord := [TradeLog.quotedTrade, plainTrade]

/-- The texts of the two trades are read. -/
def readTrades (text : List Char) : Option TradeRecord :=
  twoTrades.find? fun r => jsonRecord r = text

/-- Texts that begin with a brace and have one together are one text. -/
lemma eq_singleton_of_flatten {pieces : List (List Char)} {body : List Char}
    (hbody : '{' ∉ body) (hpieces : ∀ p ∈ pieces, ∃ rest, p = '{' :: rest)
    (h : pieces.flatten = '{' :: body) : pieces = ['{' :: body] := by
  cases pieces with
  | nil => cases h
  | cons p pieces =>
    cases pieces with
    | nil =>
      rw [List.flatten_singleton] at h
      rw [h]
    | cons p' pieces =>
      obtain ⟨rest, rfl⟩ := hpieces p List.mem_cons_self
      obtain ⟨rest', rfl⟩ := hpieces p' (by simp)
      refine absurd ?_ hbody
      rw [← (List.cons.inj h).2]
      simp

/-- No text of the two trades begins with the other one. -/
lemma eq_of_jsonRecord_prefix : ∀ r ∈ twoTrades, ∀ r' ∈ twoTrades,
    jsonRecord r <+: jsonRecord r' → r = r' := by
  have hquoted : ¬ jsonRecord TradeLog.quotedTrade <+: jsonRecord plainTrade := by decide +kernel
  have hplain : ¬ jsonRecord plainTrade <+: jsonRecord TradeLog.quotedTrade := by decide +kernel
  intro r hr r' hr' h
  simp only [twoTrades, List.mem_cons, List.not_mem_nil, or_false] at hr hr'
  rcases hr with rfl | rfl <;> rcases hr' with rfl | rfl
  · rfl
  · exact absurd h hquoted
  · exact absurd h hplain
  · rfl

lemma readTrades_spec {text : List Char} {r : TradeRecord} (h : readTrades text = some r) :
    r ∈ twoTrades ∧ text = jsonRecord r := by
  have htext := List.find?_some h
  rw [decide_eq_true_eq] at htext
  exact ⟨List.mem_of_find?_eq_some h, htext.symm⟩

lemma readTrades_eq_some_iff {text : List Char} {r : TradeRecord} :
    readTrades text = some r ↔ r ∈ twoTrades ∧ text = jsonRecord r := by
  refine ⟨readTrades_spec, ?_⟩
  rintro ⟨hr, rfl⟩
  have hfound : (readTrades (jsonRecord r)).isSome :=
    List.find?_isSome.mpr ⟨r, hr, decide_eq_true rfl⟩
  obtain ⟨r', hr'⟩ := Option.isSome_iff_exists.mp hfound
  obtain ⟨hmem, htext⟩ := readTrades_spec hr'
  rw [hr', eq_of_jsonRecord_prefix r hr r' hmem (htext ▸ List.prefix_refl _)]

lemma serde_twoTrades {S : TradeRecord → Prop} (hS : ∀ r, S r ↔ r ∈ twoTrades) :
    Serde jsonRecord readTrades S where
  braces r _ := ⟨jsonFields r, rfl⟩
  noBreak r hr := by
    have hall : ∀ r ∈ twoTrades, '\n' ∉ jsonRecord r := by decide +kernel
    exact hall r ((hS r).mp hr)
  prefixFree r r' hr hr' := eq_of_jsonRecord_prefix r ((hS r).mp hr) r' ((hS r').mp hr')
  reads pieces hpieces r := by
    have hopen : ∀ r ∈ twoTrades, '{' ∉ jsonFields r ++ ['}'] := by decide +kernel
    have hbraces : ∀ p ∈ pieces, ∃ rest, p = '{' :: rest := by
      intro p hp
      obtain ⟨hne, r', -, hbegins⟩ := hpieces p hp
      obtain ⟨c, rest, rfl⟩ := List.exists_cons_of_ne_nil hne
      exact ⟨rest, by rw [(List.cons_prefix_cons.mp hbegins).1]⟩
    rw [hS, readTrades_eq_some_iff]
    refine and_congr_right fun hr => ⟨eq_singleton_of_flatten (hopen r hr) hbraces, ?_⟩
    rintro rfl
    exact List.flatten_singleton

/-- The next accesses of the call at a position, all of them done. -/
def accesses (position count : ℕ) : List Action :=
  List.replicate count (.task (.access position .done))

/-- A trade is recorded alone. -/
def recordAlone (record : TradeRecord) : List Action :=
  .task (.enter (.recordTrade record)) :: accesses 0 5

/-- Both trades are recorded by calls that overlap: both have given back the lock before the first
of them writes. -/
def beginBoth : List Action :=
  [.task (.enter (.recordTrade TradeLog.quotedTrade)), .task (.enter (.recordTrade plainTrade))] ++
    accesses 0 3 ++ accesses 1 3

/-- After a trade on its own line, the texts of two calls come to one line, the text of a third call
is cut, and the program is restarted; of the two trades recorded then, the first one comes behind
the cut text. -/
def faultyActions : List Action :=
  recordAlone TradeLog.quotedTrade ++ (beginBoth ++ accesses 0 1 ++ accesses 1 2 ++ accesses 0 1) ++
    (.task (.enter (.recordTrade plainTrade)) :: accesses 0 3 ++
      [.task (.access 0 (.cut 9 false))]) ++
    .restart :: (recordAlone TradeLog.quotedTrade ++ recordAlone plainTrade)

/-- The call that begins second writes first. -/
def overlappingActions : List Action := beginBoth ++ accesses 1 2 ++ accesses 0 2

/-- The calls write to the same line. -/
def sharedLineActions : List Action := beginBoth ++ accesses 0 1 ++ accesses 1 2 ++ accesses 0 1

/-! ### The runs -/

section Recorded

variable {actions : List Action} {r : TradeRecord}

lemma recorded_cons {a : Action} :
    Recorded (a :: actions) r ↔
      (∃ call, a = .task (.enter call) ∧ r ∈ call.records) ∨ Recorded actions r := by
  unfold Recorded
  simp only [List.mem_cons, or_and_right, exists_or, eq_comm]

lemma recorded_append {actions' : List Action} :
    Recorded (actions ++ actions') r ↔ Recorded actions r ∨ Recorded actions' r := by
  unfold Recorded
  simp only [List.mem_append, or_and_right, exists_or]

lemma not_recorded_accesses (position count : ℕ) : ¬ Recorded (accesses position count) r := by
  rintro ⟨call, hcall, -⟩
  cases List.eq_of_mem_replicate hcall

lemma recorded_recordAlone {record : TradeRecord} :
    Recorded (recordAlone record) r ↔ r = record := by
  simp [recordAlone, recorded_cons, not_recorded_accesses, Call.records]

lemma recorded_beginBoth : Recorded beginBoth r ↔ r ∈ twoTrades := by
  simp [beginBoth, recorded_cons, recorded_append, not_recorded_accesses, Call.records, twoTrades]

lemma recorded_overlappingActions : Recorded overlappingActions r ↔ r ∈ twoTrades := by
  simp [overlappingActions, recorded_append, recorded_beginBoth, not_recorded_accesses]

lemma recorded_sharedLineActions : Recorded sharedLineActions r ↔ r ∈ twoTrades := by
  simp [sharedLineActions, recorded_append, recorded_beginBoth, not_recorded_accesses]

lemma recorded_faultyActions : Recorded faultyActions r ↔ r ∈ twoTrades := by
  by_cases hquoted : r = TradeLog.quotedTrade <;>
    simp [hquoted, faultyActions, recorded_append, recorded_cons, recorded_beginBoth,
      recorded_recordAlone, not_recorded_accesses, Call.records, twoTrades]

end Recorded

/-- The writes of the run with the failures. -/
lemma runTrace_faultyActions :
    runTrace (step jsonRecord readTrades) start faultyActions =
      [.whole TradeLog.quotedTrade, .lineBreak,
        .whole TradeLog.quotedTrade, .whole plainTrade, .lineBreak, .lineBreak,
        .part (((jsonRecord plainTrade).take 9).map some), .whole TradeLog.quotedTrade, .lineBreak,
        .whole plainTrade, .lineBreak] := by
  set_option maxRecDepth 2000 in
  rfl

lemma runTrace_overlappingActions :
    runTrace (step jsonRecord readTrades) start overlappingActions =
      [.whole plainTrade, .lineBreak, .whole TradeLog.quotedTrade, .lineBreak] := rfl

lemma runTrace_sharedLineActions :
    runTrace (step jsonRecord readTrades) start sharedLineActions =
      [.whole TradeLog.quotedTrade, .whole plainTrade, .lineBreak, .lineBreak] := rfl

lemma faultless_accesses (position count : ℕ) : ∀ a ∈ accesses position count, Faultless a := by
  intro a ha
  rw [List.eq_of_mem_replicate ha]
  rfl

lemma faultless_beginBoth : ∀ a ∈ beginBoth, Faultless a := by
  simp only [beginBoth, List.forall_mem_append, List.forall_mem_cons]
  exact ⟨⟨⟨trivial, trivial, by simp⟩, faultless_accesses 0 3⟩, faultless_accesses 1 3⟩

/-- Of the trades that are recorded, the restart finds the first one and the last one: the others
share a line with each other or with the text that was cut. -/
theorem loadExisting_run_quotedTrade :
    loadExisting readTrades
        (runState (step jsonRecord readTrades) start faultyActions).shared.file =
      [TradeLog.quotedTrade, plainTrade] := by
  have hload := (loadExisting_run faultyActions
    (serde_twoTrades fun _ => recorded_faultyActions)).2 ?_
  · rw [hload, runTrace_faultyActions]
    rfl
  · rw [runTrace_faultyActions]
    rintro ⟨piece, hpiece, hnone⟩
    simp only [List.mem_cons, reduceCtorEq, Write.part.injEq, List.not_mem_nil, or_false,
      false_or] at hpiece
    obtain ⟨c, -, hc⟩ := List.mem_map.mp (hpiece ▸ hnone)
    cases hc

/-- When the call that begins second writes first, the file has the two trades in the other order
than the memory; when both write to the same line, it has none of them. -/
theorem loadExisting_perm_iff_quotedTrade :
    (loadExisting readTrades
        (runState (step jsonRecord readTrades) start overlappingActions).shared.file).Perm
        (runState (step jsonRecord readTrades) start overlappingActions).shared.records ∧
      ¬ (loadExisting readTrades
        (runState (step jsonRecord readTrades) start sharedLineActions).shared.file).Perm
        (runState (step jsonRecord readTrades) start sharedLineActions).shared.records := by
  constructor
  · refine (loadExisting_perm_iff overlappingActions
      (serde_twoTrades fun _ => recorded_overlappingActions) ?_ rfl).mpr ?_
    · simp only [overlappingActions, List.forall_mem_append]
      exact ⟨⟨faultless_beginBoth, faultless_accesses 1 2⟩, faultless_accesses 0 2⟩
    · have hlines : ∀ line ∈ lines [.whole plainTrade, .lineBreak, .whole TradeLog.quotedTrade,
          (.lineBreak : FileWrite)], line.length ≤ 1 := by decide
      rwa [runTrace_overlappingActions]
  · rw [loadExisting_perm_iff sharedLineActions
      (serde_twoTrades fun _ => recorded_sharedLineActions) ?_ rfl]
    · have hlines : ¬ ∀ line ∈ lines [.whole TradeLog.quotedTrade, .whole plainTrade, .lineBreak,
          (.lineBreak : FileWrite)], line.length ≤ 1 := by decide
      rwa [runTrace_sharedLineActions]
    · simp only [sharedLineActions, List.forall_mem_append]
      exact ⟨⟨⟨faultless_beginBoth, faultless_accesses 0 1⟩, faultless_accesses 1 2⟩,
        faultless_accesses 0 1⟩

end TradeJournal

end HftArb
