import Mathlib.Data.List.Basic

/-!
# Comma-separated values

Rows of cells, as RFC 4180 describes them: cells are separated by commas, a cell in quotes may
contain commas, line breaks and doubled quotes, and any other cell contains none of these.  A row
ends at a line feed or a carriage return with a line feed; the last row may go without.

The reader is a machine that takes one character at a time; `parse_renderRows` says that it reads
back what was written.
-/

namespace Csv

/-! ## Reading -/

/-- A double quote. -/
def quoteMark : Char := '"'

/-- Where the reader stands in a cell: at its start, in a cell without quotes, between quotes,
behind a second quote, behind a carriage return that must end the row. -/
inductive Point
  | start
  | plain
  | quoted
  | closed
  | carriage

/-- The reader: where it stands, the characters of the cell, the cells of the row and the rows. -/
structure Reader where
  point : Point
  cell : List Char
  row : List (List Char)
  rows : List (List (List Char))

namespace Reader

/-- The reader at the start of a text. -/
def init : Reader := ⟨.start, [], [], []⟩

/-- Take a character into the cell. -/
def push (r : Reader) (point : Point) (c : Char) : Reader :=
  { r with point := point, cell := r.cell ++ [c] }

/-- End the cell. -/
def endCell (r : Reader) : Reader := ⟨.start, [], r.row ++ [r.cell], r.rows⟩

/-- End the cell and the row. -/
def endRow (r : Reader) : Reader := ⟨.start, [], [], r.rows ++ [r.row ++ [r.cell]]⟩

/-- Open a cell in quotes, or take a doubled quote into it. -/
def openQuote (r : Reader) : Option Reader :=
  match r.point with
  | .start => some { r with point := .quoted }
  | .closed => some (r.push .quoted quoteMark)
  | _ => none

/-- Take a character into a cell without quotes. -/
def pushPlain (r : Reader) (c : Char) : Option Reader :=
  match r.point with
  | .start => some (r.push .plain c)
  | .plain => some (r.push .plain c)
  | _ => none

/-- A character outside of quotes. -/
def stepOutside (r : Reader) (c : Char) : Option Reader :=
  if c = ',' then some r.endCell
  else if c = '\n' then some r.endRow
  else if c = '\r' then some { r with point := .carriage }
  else if c = quoteMark then r.openQuote
  else r.pushPlain c

/-- The next character; there is no result when the text is malformed. -/
def step (r : Reader) (c : Char) : Option Reader :=
  match r.point with
  | .quoted =>
    if c = quoteMark then some { r with point := .closed } else some (r.push .quoted c)
  | .carriage => if c = '\n' then some r.endRow else none
  | _ => r.stepOutside c

/-- The rows at the end of a text; an empty last line is no row. -/
def finish (r : Reader) : Option (List (List (List Char))) :=
  match r.point with
  | .quoted => none
  | .carriage => none
  | .start => some (if r.row = [] then r.rows else r.endRow.rows)
  | _ => some r.endRow.rows

end Reader

/-- The rows of a text; there are none when it is malformed. -/
def parse (text : List Char) : Option (List (List (List Char))) :=
  (text.foldlM Reader.step Reader.init).bind Reader.finish

/-! ## Writing -/

/-- Double the quotes of a text. -/
def escape (text : List Char) : List Char :=
  text.flatMap fun c => if c = quoteMark then [quoteMark, quoteMark] else [c]

/-- A text in quotes. -/
def inQuotes (text : List Char) : List Char := quoteMark :: (text ++ [quoteMark])

/-- A character that may stand in a cell without quotes. -/
def IsPlain (c : Char) : Prop := c ≠ ',' ∧ c ≠ '\n' ∧ c ≠ '\r' ∧ c ≠ quoteMark

instance (c : Char) : Decidable (IsPlain c) :=
  inferInstanceAs (Decidable (c ≠ ',' ∧ c ≠ '\n' ∧ c ≠ '\r' ∧ c ≠ quoteMark))

/-- A cell, without quotes or with them. -/
inductive Cell
  | plain (text : List Char)
  | quoted (text : List Char)

/-- The text in a cell. -/
def Cell.text : Cell → List Char
  | plain text => text
  | quoted text => text

/-- A cell as it is written. -/
def Cell.render : Cell → List Char
  | plain text => text
  | quoted text => inQuotes (escape text)

/-- What a cell without quotes must not contain is not there. -/
def Cell.Readable : Cell → Prop
  | plain text => ∀ c ∈ text, IsPlain c
  | quoted _ => True

/-- A row as it is written. -/
def renderRow (row : List Cell) : List Char := [','].intercalate (row.map Cell.render)

/-- Rows as they are written, each with its line feed. -/
def renderRows (rows : List (List Cell)) : List Char :=
  rows.flatMap fun row => renderRow row ++ ['\n']

/-! ## Reading back -/

/-- A text without quotes needs no doubling. -/
lemma escape_eq_self {text : List Char} (h : quoteMark ∉ text) : escape text = text := by
  induction text with
  | nil => rfl
  | cons c text ih =>
    have hc : c ≠ quoteMark := fun heq => h (heq ▸ List.mem_cons_self)
    have hrest : escape text = text := ih fun hmem => h (List.mem_cons_of_mem _ hmem)
    rw [escape, List.flatMap_cons, if_neg hc, ← escape, hrest]
    rfl

namespace Reader

/-- A cell without quotes, or behind its closing quote. -/
def Outside (r : Reader) : Prop := r.point = .start ∨ r.point = .plain ∨ r.point = .closed

lemma step_of_outside {r : Reader} (h : r.Outside) (c : Char) : r.step c = r.stepOutside c := by
  rcases h with h | h | h <;> rw [step, h]

/-- Plain characters are collected. -/
lemma foldlM_plain {text : List Char} (h : ∀ c ∈ text, IsPlain c) {r : Reader}
    (hr : r.point = .plain) :
    text.foldlM step r = some { r with cell := r.cell ++ text } := by
  induction text generalizing r with
  | nil =>
    rw [List.append_nil]
    rfl
  | cons c text ih =>
    obtain ⟨⟨hcomma, hlf, hcr, hquote⟩, htext⟩ := List.forall_mem_cons.mp h
    have hstep : r.step c = some (r.push .plain c) := by
      rw [step_of_outside (Or.inr (Or.inl hr)), stepOutside, if_neg hcomma, if_neg hlf, if_neg hcr,
        if_neg hquote, pushPlain, hr]
    rw [List.foldlM_cons, hstep]
    refine (ih htext rfl).trans (congrArg some ?_)
    rw [push, hr, List.append_assoc]
    rfl

/-- Between quotes, doubled quotes are single ones and everything else is itself. -/
lemma foldlM_escape (text : List Char) {r : Reader} (hr : r.point = .quoted) :
    (escape text).foldlM step r = some { r with cell := r.cell ++ text } := by
  induction text generalizing r with
  | nil =>
    rw [List.append_nil]
    rfl
  | cons c text ih =>
    have hpush : (if c = quoteMark then [quoteMark, quoteMark] else [c]).foldlM step r =
        some (r.push .quoted c) := by
      by_cases hc : c = quoteMark
      · subst hc
        rw [if_pos rfl, List.foldlM_cons, step, hr]
        rfl
      · rw [if_neg hc, List.foldlM_cons, step, hr]
        exact congrArg (fun next => Option.bind next _) (if_neg hc)
    rw [escape, List.flatMap_cons, ← escape, List.foldlM_append, hpush]
    refine (ih rfl).trans (congrArg some ?_)
    rw [push, hr, List.append_assoc]
    rfl

/-- A cell is read as its text. -/
lemma foldlM_cell {cell : Cell} (h : cell.Readable) (row : List (List Char))
    (rows : List (List (List Char))) :
    ∃ p, (⟨p, cell.text, row, rows⟩ : Reader).Outside ∧
      cell.render.foldlM step ⟨.start, [], row, rows⟩ = some ⟨p, cell.text, row, rows⟩ := by
  cases cell with
  | plain text =>
    cases text with
    | nil => exact ⟨.start, Or.inl rfl, rfl⟩
    | cons c text =>
      obtain ⟨⟨hcomma, hlf, hcr, hquote⟩, htext⟩ := List.forall_mem_cons.mp h
      refine ⟨.plain, Or.inr (Or.inl rfl), ?_⟩
      have hstep : step ⟨.start, [], row, rows⟩ c = some ⟨.plain, [c], row, rows⟩ := by
        rw [step_of_outside (Or.inl rfl), stepOutside, if_neg hcomma, if_neg hlf, if_neg hcr,
          if_neg hquote]
        rfl
      rw [Cell.render, List.foldlM_cons, hstep]
      exact foldlM_plain htext rfl
  | quoted text =>
    refine ⟨.closed, Or.inr (Or.inr rfl), ?_⟩
    have hopen : step ⟨.start, [], row, rows⟩ quoteMark = some ⟨.quoted, [], row, rows⟩ := rfl
    rw [Cell.render, inQuotes, List.foldlM_cons, hopen]
    refine List.foldlM_append.trans ?_
    rw [foldlM_escape text rfl]
    rfl

/-- A comma ends a cell. -/
lemma step_comma {r : Reader} (h : r.Outside) : r.step ',' = some r.endCell :=
  step_of_outside h _

/-- A line feed ends a row. -/
lemma step_lineFeed {r : Reader} (h : r.Outside) : r.step '\n' = some r.endRow :=
  step_of_outside h _

/-- A row with its line feed is read as the texts of its cells. -/
lemma foldlM_row {cells : List Cell} (hne : cells ≠ []) (h : ∀ cell ∈ cells, cell.Readable)
    (row : List (List Char)) (rows : List (List (List Char))) :
    (renderRow cells ++ ['\n']).foldlM step ⟨.start, [], row, rows⟩ =
      some ⟨.start, [], [], rows ++ [row ++ cells.map Cell.text]⟩ := by
  induction cells generalizing row with
  | nil => exact absurd rfl hne
  | cons cell cells ih =>
    obtain ⟨hcell, hcells⟩ := List.forall_mem_cons.mp h
    obtain ⟨p, hp, hread⟩ := foldlM_cell hcell row rows
    cases cells with
    | nil =>
      have hrow : renderRow [cell] = cell.render := List.intercalate_singleton
      rw [hrow, List.foldlM_append, hread, Option.bind_eq_bind, Option.bind_some, List.foldlM_cons,
        step_lineFeed hp]
      rfl
    | cons cell' cells =>
      have hrow : renderRow (cell :: cell' :: cells) ++ ['\n'] =
          cell.render ++ ',' :: (renderRow (cell' :: cells) ++ ['\n']) := by
        rw [renderRow, List.map_cons, List.map_cons, List.intercalate_cons_cons, ← List.map_cons,
          ← renderRow]
        simp
      rw [hrow, List.foldlM_append, hread, Option.bind_eq_bind, Option.bind_some, List.foldlM_cons,
        step_comma hp]
      refine (ih (List.cons_ne_nil _ _) hcells _).trans ?_
      rw [List.map_cons, List.append_assoc]
      rfl

/-- Rows are read one after the other. -/
lemma foldlM_rows {rows : List (List Cell)} (hne : ∀ row ∈ rows, row ≠ [])
    (h : ∀ row ∈ rows, ∀ cell ∈ row, cell.Readable) (before : List (List (List Char))) :
    (renderRows rows).foldlM step ⟨.start, [], [], before⟩ =
      some ⟨.start, [], [], before ++ rows.map fun row => row.map Cell.text⟩ := by
  induction rows generalizing before with
  | nil =>
    rw [List.map_nil, List.append_nil]
    rfl
  | cons row rows ih =>
    obtain ⟨hrow, hrows⟩ := List.forall_mem_cons.mp h
    obtain ⟨hrowNe, hrowsNe⟩ := List.forall_mem_cons.mp hne
    rw [renderRows, List.flatMap_cons, ← renderRows, List.foldlM_append, foldlM_row hrowNe hrow]
    refine (ih hrowsNe hrows _).trans ?_
    rw [List.nil_append, List.map_cons, List.append_assoc]
    rfl

end Reader

/-- What was written is read back, row by row and cell by cell. -/
theorem parse_renderRows {rows : List (List Cell)} (hne : ∀ row ∈ rows, row ≠ [])
    (h : ∀ row ∈ rows, ∀ cell ∈ row, cell.Readable) :
    parse (renderRows rows) = some (rows.map fun row => row.map Cell.text) := by
  rw [parse, Reader.init, Reader.foldlM_rows hne h]
  rfl

end Csv
