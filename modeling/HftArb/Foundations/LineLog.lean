import Mathlib.Tactic

/-!
# Logs with one record on a line

A log is a text to which records are appended, each followed by a line break.  A write may be cut
short, and the writes of two records may get between each other, so that a line holds something else
than one whole text.  `intact` are the records of the lines that hold one whole text and nothing
else.

When a line is read back exactly if it is intact, reading the lines of the text gives the intact
records (`filterMap_splitOn_content`).  These are among the records that were written, and all of
them exactly when no text shares its line (`length_intact_eq_iff`).
-/

namespace LineLog

variable {α γ : Type*}

/-- A write to a log: the whole text of a record, a part of one, or a line break. -/
inductive Write (α γ : Type*)
  | whole (record : α)
  | part (piece : List γ)
  | lineBreak

/-- The write is a line break. -/
def Write.isBreak : Write α γ → Bool
  | .lineBreak => true
  | _ => false

/-- The record whose whole text is written. -/
def Write.record? : Write α γ → Option α
  | .whole record => some record
  | _ => none

/-- What a write appends to the text. -/
def Write.text (encode : α → List γ) (newline : γ) : Write α γ → List γ
  | .whole record => encode record
  | .part piece => piece
  | .lineBreak => [newline]

/-- The text after some writes. -/
def content (encode : α → List γ) (newline : γ) (writes : List (Write α γ)) : List γ :=
  writes.flatMap (Write.text encode newline)

/-- The writes of each line. -/
def lines (writes : List (Write α γ)) : List (List (Write α γ)) := writes.splitOnP Write.isBreak

/-- The record of a line that holds its whole text and nothing else. -/
def intactRecord : List (Write α γ) → Option α
  | [.whole record] => some record
  | _ => none

/-- The records of the intact lines. -/
def intact (writes : List (Write α γ)) : List α := (lines writes).filterMap intactRecord

/-- The records whose whole text is written. -/
def records (writes : List (Write α γ)) : List α := writes.filterMap Write.record?

section Content

variable {encode : α → List γ} {newline : γ}

@[simp] lemma content_nil : content encode newline [] = [] := rfl

lemma content_cons (w : Write α γ) (writes : List (Write α γ)) :
    content encode newline (w :: writes) = w.text encode newline ++ content encode newline writes :=
  rfl

lemma content_append (writes writes' : List (Write α γ)) :
    content encode newline (writes ++ writes') =
      content encode newline writes ++ content encode newline writes' :=
  List.flatMap_append

/-- A text without separators goes to the front of the first piece behind it. -/
lemma splitOn_append_of_not_mem [DecidableEq γ] {text rest : List γ} (h : newline ∉ text) :
    (text ++ rest).splitOn newline = (rest.splitOn newline).modifyHead (text ++ ·) := by
  induction text with
  | nil =>
    rw [List.nil_append]
    cases rest.splitOn newline <;> rfl
  | cons c text ih =>
    obtain ⟨hc, htext⟩ := not_or.mp (fun hor => h (List.mem_cons.mpr hor))
    have hne : (c == newline) = false := beq_eq_false_iff_ne.mpr (Ne.symm hc)
    rw [List.splitOn_eq_splitOnP] at ih ⊢
    rw [List.cons_append, List.splitOnP_cons_eq_if_modifyHead, hne, ih htext]
    simp [List.modifyHead_modifyHead, Function.comp_def]

/-- The lines of the text are the texts of the lines, when nothing but line breaks has one. -/
lemma splitOn_content [DecidableEq γ] {writes : List (Write α γ)}
    (h : ∀ w ∈ writes, w.isBreak = false → newline ∉ w.text encode newline) :
    (content encode newline writes).splitOn newline =
      (lines writes).map (content encode newline) := by
  induction writes with
  | nil => rfl
  | cons w writes ih =>
    obtain ⟨hw, hwrites⟩ := List.forall_mem_cons.mp h
    unfold lines at ih ⊢
    rw [content_cons, List.splitOnP_cons_eq_if_modifyHead]
    cases hbreak : w.isBreak with
    | true =>
      cases w with
      | whole record => cases hbreak
      | part piece => cases hbreak
      | lineBreak =>
        rw [if_pos rfl, List.map_cons, ← ih hwrites]
        exact List.splitOn_append_cons_self_of_not_mem List.not_mem_nil _
    | false =>
      rw [if_neg Bool.false_ne_true, splitOn_append_of_not_mem (hw hbreak), ih hwrites]
      cases writes.splitOnP Write.isBreak <;> rfl

/-- The records that are read from the lines are those of the intact ones. -/
lemma filterMap_splitOn_content [DecidableEq γ] {decode : List γ → Option α}
    {writes : List (Write α γ)}
    (h : ∀ w ∈ writes, w.isBreak = false → newline ∉ w.text encode newline)
    (hdecode : ∀ line ∈ lines writes, decode (content encode newline line) = intactRecord line) :
    ((content encode newline writes).splitOn newline).filterMap decode = intact writes := by
  rw [splitOn_content h, List.filterMap_map]
  exact List.filterMap_congr hdecode

end Content

/-! ## Texts over other letters -/

/-- A write with its piece in other letters. -/
def Write.mapText {δ : Type*} (f : List γ → List δ) : Write α γ → Write α δ
  | .whole record => .whole record
  | .part piece => .part (f piece)
  | .lineBreak => .lineBreak

/-- The lines of the writes in other letters. -/
lemma lines_map_mapText {δ : Type*} (f : List γ → List δ) (writes : List (Write α γ)) :
    lines (writes.map (Write.mapText f)) = (lines writes).map (List.map (Write.mapText f)) := by
  induction writes with
  | nil => rfl
  | cons w writes ih =>
    unfold lines at ih ⊢
    have hbreak : (w.mapText f).isBreak = w.isBreak := by cases w <;> rfl
    rw [List.map_cons, List.splitOnP_cons_eq_if_modifyHead, List.splitOnP_cons_eq_if_modifyHead,
      hbreak, ih]
    cases w.isBreak with
    | true => rfl
    | false => cases writes.splitOnP Write.isBreak <;> rfl

lemma intactRecord_map_mapText {δ : Type*} (f : List γ → List δ) (line : List (Write α γ)) :
    intactRecord (line.map (Write.mapText f)) = intactRecord line := by
  rcases line with - | ⟨w, - | ⟨w', rest⟩⟩
  · rfl
  · cases w <;> rfl
  · cases w <;> cases w' <;> rfl

/-- Intact lines are intact in other letters. -/
lemma intact_map_mapText {δ : Type*} (f : List γ → List δ) (writes : List (Write α γ)) :
    intact (writes.map (Write.mapText f)) = intact writes := by
  rw [intact, lines_map_mapText, List.filterMap_map]
  exact List.filterMap_congr fun line _ => intactRecord_map_mapText f line

/-! ## Which records are intact -/

/-- The writes of a line are among the writes, and none of them is a line break. -/
lemma mem_of_mem_lines {writes line : List (Write α γ)} (h : line ∈ lines writes) :
    ∀ w ∈ line, w ∈ writes ∧ w.isBreak = false := by
  induction writes generalizing line with
  | nil =>
    rw [List.mem_singleton.mp h]
    intro w hw
    cases hw
  | cons w' writes ih =>
    unfold lines at ih h
    rw [List.splitOnP_cons_eq_if_modifyHead] at h
    cases hbreak : w'.isBreak with
    | true =>
      rw [hbreak, if_pos rfl] at h
      rcases List.mem_cons.mp h with rfl | h
      · intro w hw
        cases hw
      · intro w hw
        exact ⟨List.mem_cons_of_mem _ (ih h w hw).1, (ih h w hw).2⟩
    | false =>
      rw [hbreak, if_neg Bool.false_ne_true] at h
      obtain ⟨first, rest, hlines⟩ :=
        List.exists_cons_of_ne_nil (List.splitOnP_ne_nil Write.isBreak writes)
      rw [hlines] at ih h
      have hold : ∀ line ∈ first :: rest, ∀ w ∈ line, w ∈ w' :: writes ∧ w.isBreak = false :=
        fun line hline w hw =>
          ⟨List.mem_cons_of_mem _ (ih hline w hw).1, (ih hline w hw).2⟩
      rcases List.mem_cons.mp h with rfl | h
      · intro w hw
        rcases List.mem_cons.mp hw with rfl | hw
        · exact ⟨List.mem_cons_self, hbreak⟩
        · exact hold first List.mem_cons_self w hw
      · exact hold line (List.mem_cons_of_mem _ h)

/-- The records that are written are those of the lines. -/
lemma flatMap_records_lines (writes : List (Write α γ)) :
    (lines writes).flatMap records = records writes := by
  induction writes with
  | nil => rfl
  | cons w writes ih =>
    unfold lines at ih ⊢
    rw [List.splitOnP_cons_eq_if_modifyHead]
    cases hbreak : w.isBreak with
    | true =>
      cases w with
      | whole record => cases hbreak
      | part piece => cases hbreak
      | lineBreak =>
        rw [if_pos rfl, List.flatMap_cons, ih]
        rfl
    | false =>
      obtain ⟨first, rest, hlines⟩ :=
        List.exists_cons_of_ne_nil (List.splitOnP_ne_nil Write.isBreak writes)
      rw [if_neg Bool.false_ne_true]
      rw [hlines] at ih ⊢
      rw [List.modifyHead_cons, List.flatMap_cons]
      rw [List.flatMap_cons] at ih
      have hcons : ∀ ws : List (Write α γ), records (w :: ws) = w.record?.toList ++ records ws := by
        intro ws
        cases w <;> rfl
      rw [hcons, List.append_assoc, ih, hcons]

/-- An intact line has one record, and another line with a record is not intact. -/
lemma length_intactRecord (line : List (Write α γ)) :
    (intactRecord line).toList.length ≤ (records line).length ∧
      ((intactRecord line).toList.length = (records line).length ↔
        ∀ record, .whole record ∈ line → line = [.whole record]) := by
  by_cases hintact : ∃ record, line = [.whole record]
  · obtain ⟨record, rfl⟩ := hintact
    refine ⟨le_rfl, iff_of_true rfl fun record' h => ?_⟩
    rw [Write.whole.inj (List.mem_singleton.mp h)]
  · have hnone : intactRecord line = none := by
      unfold intactRecord
      split
      · exact absurd ⟨_, rfl⟩ hintact
      · rfl
    rw [hnone]
    refine ⟨Nat.zero_le _, ?_⟩
    constructor
    · intro hlength record hmem
      have hrecord : record ∈ records line := List.mem_filterMap.mpr ⟨_, hmem, rfl⟩
      exact absurd hlength (List.length_pos_of_mem hrecord).ne
    · intro hshare
      rw [Option.toList_none, List.length_nil, eq_comm, List.length_eq_zero_iff,
        List.eq_nil_iff_forall_not_mem]
      intro record hrecord
      obtain ⟨w, hw, hrecord⟩ := List.mem_filterMap.mp hrecord
      cases w with
      | whole record' => exact hintact ⟨record', hshare record' hw⟩
      | part piece => cases hrecord
      | lineBreak => cases hrecord

/-- The intact records of some lines are among the records of the lines, in their order. -/
lemma filterMap_intactRecord_sublist (ls : List (List (Write α γ))) :
    (ls.filterMap intactRecord).Sublist (ls.flatMap records) := by
  induction ls with
  | nil => exact List.Sublist.refl _
  | cons line rest ih =>
    rw [List.flatMap_cons]
    cases hline : intactRecord line with
    | none =>
      rw [List.filterMap_cons_none hline]
      exact ih.trans (List.sublist_append_right _ _)
    | some record =>
      rw [List.filterMap_cons_some hline]
      unfold intactRecord at hline
      split at hline
      · cases hline
        exact ih.cons_cons _
      · cases hline

/-- The intact records are among those that are written, in their order. -/
lemma intact_sublist_records (writes : List (Write α γ)) :
    (intact writes).Sublist (records writes) := by
  rw [← flatMap_records_lines]
  exact filterMap_intactRecord_sublist _

/-- All records that are written are intact exactly when no whole text shares its line. -/
lemma length_intact_eq_iff (writes : List (Write α γ)) :
    (intact writes).length = (records writes).length ↔
      ∀ line ∈ lines writes, ∀ record, .whole record ∈ line → line = [.whole record] := by
  rw [intact, ← flatMap_records_lines]
  induction lines writes with
  | nil => simp
  | cons line rest ih =>
    obtain ⟨hle, hiff⟩ := length_intactRecord line
    have hrest := (filterMap_intactRecord_sublist rest).length_le
    have hlength : ((line :: rest).filterMap intactRecord).length =
        (intactRecord line).toList.length + (rest.filterMap intactRecord).length := by
      rw [List.filterMap_cons]
      cases intactRecord line with
      | none => simp
      | some record => simp [Nat.add_comm]
    rw [List.forall_mem_cons, ← hiff, ← ih, hlength, List.flatMap_cons, List.length_append]
    omega

end LineLog
