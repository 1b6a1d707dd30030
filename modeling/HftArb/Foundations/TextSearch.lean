import Mathlib.Data.List.Infix
import Mathlib.Tactic

/-!
# Searching a pattern in a text

`find` splits a text at the first occurrence of a pattern.  A piece of the text in which no
occurrence begins is skipped: `find_append_of_avoids`.  The pieces that matter here are the ones
without the first letter of the pattern and the quoted ones, `avoids_quoted`: a quoted pattern can
only begin at a quoted piece with the same letters between the quotes.
-/

namespace TextSearch

variable {α : Type*}

/-! ## Pieces without an occurrence -/

/-- No occurrence of the pattern begins in the piece when it is followed by the rest. -/
def Avoids (pattern : List α) : List α → List α → Prop
  | [], _ => True
  | c :: piece, rest => ¬ pattern <+: c :: piece ++ rest ∧ Avoids pattern piece rest

/-- Two pieces in a row. -/
lemma avoids_append {pattern piece piece' rest : List α} :
    Avoids pattern (piece ++ piece') rest ↔
      Avoids pattern piece (piece' ++ rest) ∧ Avoids pattern piece' rest := by
  induction piece with
  | nil => simp [Avoids]
  | cons c piece ih =>
    rw [List.cons_append, Avoids, Avoids, ih, ← List.cons_append, List.append_assoc, and_assoc]

/-- A piece without the first letter of the pattern. -/
lemma avoids_of_not_mem {q : α} {pattern piece : List α} (h : q ∉ piece) (rest : List α) :
    Avoids (q :: pattern) piece rest := by
  induction piece with
  | nil => trivial
  | cons c piece ih =>
    rw [List.mem_cons, not_or] at h
    exact ⟨fun hprefix => h.1 (List.cons_prefix_cons.mp hprefix).1, ih h.2⟩

/-- A piece in which no occurrence begins does not contain the pattern. -/
lemma not_infix_of_avoids {pattern piece rest : List α} (hpattern : pattern ≠ [])
    (h : Avoids pattern piece rest) : ¬ pattern <:+: piece := by
  rintro ⟨front, back, rfl⟩
  rw [List.append_assoc, avoids_append] at h
  cases pattern with
  | nil => exact hpattern rfl
  | cons c pattern =>
    have hbegins : c :: pattern <+: c :: pattern ++ (back ++ rest) := List.prefix_append _ _
    rw [← List.append_assoc] at hbegins
    exact h.2.1 hbegins

/-- An occurrence does not reach over a letter that the pattern does not have. -/
lemma infix_append_cons {c : α} {pattern a b : List α} (hc : c ∉ pattern)
    (h : pattern <:+: a ++ c :: b) : pattern <:+: a ∨ pattern <:+: b := by
  obtain ⟨front, back, heq⟩ := h
  rw [List.append_assoc] at heq
  rcases List.append_eq_append_iff.mp heq with ⟨middle, rfl, hmiddle⟩ | ⟨middle, rfl, hmiddle⟩
  · -- the occurrence begins in the first part
    rcases List.append_eq_append_iff.mp hmiddle with ⟨more, rfl, -⟩ | ⟨more, rfl, hmore⟩
    · exact Or.inl ⟨front, more, List.append_assoc _ _ _⟩
    · cases more with
      | nil => exact Or.inl ⟨front, [], by simp⟩
      | cons c' more =>
        obtain ⟨rfl, -⟩ := List.cons.inj hmore
        exact absurd (List.mem_append_right _ List.mem_cons_self) hc
  · cases middle with
    | nil =>
      cases pattern with
      | nil => exact Or.inl (List.nil_infix)
      | cons c' pattern =>
        obtain ⟨rfl, -⟩ := List.cons.inj hmiddle
        exact absurd List.mem_cons_self hc
    | cons c' middle =>
      obtain ⟨-, rfl⟩ := List.cons.inj hmiddle
      exact Or.inr ⟨middle, back, List.append_assoc _ _ _⟩

/-- Two quoted texts that begin alike are the same up to the closing quote. -/
lemma prefix_quoted {q : α} {key body tail rest : List α} (hkey : q ∉ key) (hbody : q ∉ body)
    (h : key ++ q :: tail <+: body ++ q :: rest) : key = body ∧ tail <+: rest := by
  induction key generalizing body with
  | nil =>
    cases body with
    | nil => exact ⟨rfl, (List.cons_prefix_cons.mp h).2⟩
    | cons b body =>
      obtain ⟨rfl, -⟩ := List.cons_prefix_cons.mp h
      exact absurd List.mem_cons_self hbody
  | cons k key ih =>
    cases body with
    | nil =>
      obtain ⟨rfl, -⟩ := List.cons_prefix_cons.mp h
      exact absurd List.mem_cons_self hkey
    | cons b body =>
      obtain ⟨rfl, hrest⟩ := List.cons_prefix_cons.mp h
      obtain ⟨rfl, htail⟩ := ih (fun hq => hkey (List.mem_cons_of_mem _ hq))
        (fun hq => hbody (List.mem_cons_of_mem _ hq)) hrest
      exact ⟨rfl, htail⟩

/-- Texts with the same first separator agree before and after it. -/
lemma eq_of_first_separator {q : α} {a a' rest rest' : List α} (ha : q ∉ a) (ha' : q ∉ a')
    (h : a ++ q :: rest = a' ++ q :: rest') : a = a' ∧ rest = rest' := by
  have hpre : a ++ q :: rest <+: a' ++ q :: rest' := h ▸ List.prefix_rfl
  obtain ⟨rfl, -⟩ := prefix_quoted ha ha' hpre
  exact ⟨rfl, (List.cons.inj (List.append_cancel_left h)).2⟩

/-- Texts with the same last separator agree before and after it. -/
lemma eq_of_last_separator {q : α} {a a' rest rest' : List α} (hrest : q ∉ rest)
    (hrest' : q ∉ rest') (h : a ++ q :: rest = a' ++ q :: rest') : a = a' ∧ rest = rest' := by
  have hreverse : rest.reverse ++ q :: a.reverse = rest'.reverse ++ q :: a'.reverse := by
    simpa using congrArg List.reverse h
  obtain ⟨hafter, hbefore⟩ := eq_of_first_separator (by simpa using hrest) (by simpa using hrest')
    hreverse
  exact ⟨List.reverse_injective hbefore, List.reverse_injective hafter⟩

/-- A quoted piece, when the pattern has other letters between the quotes or goes on differently,
and does not begin at the closing quote. -/
lemma avoids_quoted {q : α} {key body tail rest : List α} (hkey : q ∉ key) (hbody : q ∉ body)
    (hopen : key = body → ¬ tail <+: rest) (hclose : ¬ key ++ q :: tail <+: rest) :
    Avoids (q :: (key ++ q :: tail)) (q :: (body ++ [q])) rest := by
  refine ⟨?_, avoids_append.mpr ⟨avoids_of_not_mem hbody _, ?_, trivial⟩⟩
  · rw [List.cons_append, List.append_assoc, List.cons_prefix_cons]
    rintro ⟨-, hprefix⟩
    obtain ⟨heq, htail⟩ := prefix_quoted hkey hbody hprefix
    exact hopen heq htail
  · rw [List.cons_append, List.cons_prefix_cons]
    rintro ⟨-, hprefix⟩
    exact hclose hprefix

/-! ## Items between separators -/

/-- A list of items in one text is its first item with what follows it. -/
lemma intercalate_map_append {β : Type*} {separator close : α} {render : β → List α}
    (tail : List β → List α) (hnil : tail [] = [close])
    (hcons : ∀ x xs, tail (x :: xs) = separator :: (render x ++ tail xs)) (x : β) (xs : List β) :
    [separator].intercalate ((x :: xs).map render) ++ [close] = render x ++ tail xs := by
  induction xs generalizing x with
  | nil => simp [hnil]
  | cons x' xs ih =>
    rw [List.map_cons, List.map_cons, List.intercalate_cons_cons, List.append_assoc,
      List.append_assoc, ← List.map_cons, ih x', hcons]
    rfl

/-! ## The first occurrence -/

variable [DecidableEq α]

/-- The text before the first occurrence of the pattern and the text after it. -/
def find (pattern : List α) : List α → Option (List α × List α)
  | [] => if pattern = [] then some ([], []) else none
  | c :: text =>
    if pattern.isPrefixOf (c :: text) then some ([], (c :: text).drop pattern.length)
    else (find pattern text).map fun found => (c :: found.1, found.2)

/-- An occurrence at the start of a text. -/
lemma find_append_self (pattern rest : List α) :
    find pattern (pattern ++ rest) = some ([], rest) := by
  cases pattern with
  | nil =>
    cases rest with
    | nil => simp [find]
    | cons c rest => simp [find]
  | cons c pattern => simp [find]

/-- A piece in which no occurrence begins is skipped. -/
lemma find_append_of_avoids {pattern piece rest : List α} (h : Avoids pattern piece rest) :
    find pattern (piece ++ rest) =
      (find pattern rest).map fun found => (piece ++ found.1, found.2) := by
  induction piece with
  | nil => simp
  | cons c piece ih =>
    have hnot : ¬ pattern.isPrefixOf (c :: (piece ++ rest)) = true :=
      fun hprefix => h.1 (List.isPrefixOf_iff_prefix.mp hprefix)
    rw [List.cons_append, find, if_neg hnot, ih h.2, Option.map_map]
    rfl

/-- The first occurrence, after a piece in which none begins. -/
lemma find_of_avoids {pattern piece rest : List α} (h : Avoids pattern piece (pattern ++ rest)) :
    find pattern (piece ++ (pattern ++ rest)) = some (piece, rest) := by
  rw [find_append_of_avoids h, find_append_self, Option.map_some, List.append_nil]

/-- The first letter is skipped when no occurrence begins with it. -/
lemma find_cons_of_not_prefix {pattern text : List α} {c : α} (h : ¬ pattern <+: c :: text) :
    find pattern (c :: text) = (find pattern text).map fun found => (c :: found.1, found.2) :=
  find_append_of_avoids (show Avoids pattern [c] text from ⟨h, trivial⟩)

/-- A single letter after a piece without it. -/
lemma find_letter {c : α} {piece : List α} (h : c ∉ piece) (rest : List α) :
    find [c] (piece ++ c :: rest) = some (piece, rest) :=
  find_of_avoids (avoids_of_not_mem h _)

/-- A letter that is not in the text. -/
lemma find_letter_eq_none {c : α} {text : List α} (h : c ∉ text) : find [c] text = none := by
  have havoids : Avoids [c] text [] := avoids_of_not_mem h []
  rw [← List.append_nil text, find_append_of_avoids havoids]
  rfl

/-- What is found, with the pattern put back. -/
lemma eq_append_of_find {pattern text : List α} {found : List α × List α}
    (h : find pattern text = some found) : text = found.1 ++ (pattern ++ found.2) := by
  induction text generalizing found with
  | nil =>
    rw [find] at h
    split at h
    · next hnil =>
      obtain rfl := Option.some.inj h
      rw [hnil]
      rfl
    · cases h
  | cons c text ih =>
    rw [find] at h
    split at h
    · next hbegins =>
      obtain rfl := Option.some.inj h
      exact (List.prefix_iff_eq_append.mp (List.isPrefixOf_iff_prefix.mp hbegins)).symm
    · obtain ⟨found', hfound', rfl⟩ := Option.map_eq_some_iff.mp h
      rw [List.cons_append, ← ih hfound']

/-- A pattern that occurs is found. -/
lemma exists_find (pattern before behind : List α) :
    ∃ found, find pattern (before ++ (pattern ++ behind)) = some found := by
  induction before with
  | nil => exact ⟨_, find_append_self pattern behind⟩
  | cons c before ih =>
    obtain ⟨found, hfound⟩ := ih
    rw [List.cons_append, find]
    split
    · exact ⟨_, rfl⟩
    · exact ⟨_, by rw [hfound, Option.map_some]⟩

/-- A pattern occurs between two parts of a text, and nowhere before. -/
structure FirstOccurrence (pattern text before behind : List α) : Prop where
  split : text = before ++ (pattern ++ behind)
  first : ∀ before' behind', text = before' ++ (pattern ++ behind') →
    before.length ≤ before'.length

/-- What is found is the first occurrence. -/
lemma find_eq_some_iff {pattern text before behind : List α} :
    find pattern text = some (before, behind) ↔ FirstOccurrence pattern text before behind := by
  have hfirst : ∀ {before behind : List α}, find pattern text = some (before, behind) →
      FirstOccurrence pattern text before behind := by
    intro before behind h
    refine ⟨eq_append_of_find h, ?_⟩
    induction text generalizing before with
    | nil =>
      intro before' behind' _
      obtain ⟨rfl, -⟩ : before = [] ∧ _ := List.append_eq_nil_iff.mp (eq_append_of_find h).symm
      exact Nat.zero_le _
    | cons c text ih =>
      intro before' behind' hsplit
      rw [find] at h
      split at h
      · obtain ⟨rfl, -⟩ := Prod.mk.inj (Option.some.inj h)
        exact Nat.zero_le _
      · next hnot =>
        obtain ⟨found, hfound, hpair⟩ := Option.map_eq_some_iff.mp h
        obtain ⟨rfl, rfl⟩ := Prod.mk.inj hpair
        cases before' with
        | nil =>
          refine absurd (List.isPrefixOf_iff_prefix.mpr ?_) hnot
          rw [hsplit]
          exact List.prefix_append _ _
        | cons c' before' =>
          exact Nat.succ_le_succ (ih hfound before' behind' (List.cons.inj hsplit).2)
  refine ⟨hfirst, fun h => ?_⟩
  obtain ⟨found, hfind⟩ := exists_find pattern before behind
  rw [← h.split] at hfind
  have hfound := hfirst hfind
  have hlength := le_antisymm (h.first _ _ hfound.split) (hfound.first _ _ h.split)
  obtain ⟨hbefore, hrest⟩ := List.append_inj (h.split.symm.trans hfound.split) hlength
  rw [hfind, hbefore, List.append_cancel_left hrest]

/-- A pattern that the text does not contain is not found. -/
lemma find_eq_none_of_not_infix {pattern text : List α} (h : ¬ pattern <:+: text) :
    find pattern text = none := by
  cases hfind : find pattern text with
  | none => rfl
  | some found =>
    refine absurd ⟨found.1, found.2, ?_⟩ h
    rw [List.append_assoc, ← eq_append_of_find hfind]

/-- A pattern is not found in a shorter text. -/
lemma find_eq_none_of_length_lt {pattern text : List α} (h : text.length < pattern.length) :
    find pattern text = none := by
  cases hfind : find pattern text with
  | none => rfl
  | some found =>
    have hlength := congrArg List.length (eq_append_of_find hfind)
    rw [List.length_append, List.length_append] at hlength
    omega

/-- What is found is shorter than the text. -/
lemma length_lt_of_find {pattern text : List α} {found : List α × List α} (hpattern : pattern ≠ [])
    (h : find pattern text = some found) : found.2.length < text.length := by
  have hpos := List.length_pos_iff.mpr hpattern
  have hlength := congrArg List.length (eq_append_of_find h)
  rw [List.length_append, List.length_append] at hlength
  omega

end TextSearch
