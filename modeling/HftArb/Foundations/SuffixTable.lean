import Mathlib.Data.List.Infix
import Mathlib.Tactic

/-!
# The first entry of a table that ends a text

A text is split before a suffix that is looked up in a table, and the first entry that fits is
taken.  Of two entries that end the same text one is a suffix of the other, so that only an entry
with a longer one behind it, of which it is a suffix, can hide the longest.
`firstMatch_longest_iff` says for which texts the first entry is the longest: those that do not end
in a hidden one.
-/

namespace SuffixTable

variable {α : Type*}

/-- The text ends in the suffix and is longer. -/
def ProperSuffix (suffix text : List α) : Prop := suffix <:+ text ∧ suffix.length < text.length

/-- The suffix is the longest of the table. -/
structure LongestMatch (table : List (List α)) (text suffix : List α) : Prop where
  mem : suffix ∈ table
  properSuffix : ProperSuffix suffix text
  longest : ∀ s ∈ table, ProperSuffix s text → s.length ≤ suffix.length

/-- A suffix that is hidden by an entry before it: some first part of the table has an entry that
ends it and none that it ends. -/
def Hidden (table : List (List α)) (suffix : List α) : Prop :=
  ∃ front back, table = front ++ back ∧ (∃ s ∈ front, s <:+ suffix) ∧
    ∀ s ∈ front, ¬ suffix <:+ s

/-- A suffix of a proper suffix is proper. -/
lemma ProperSuffix.of_suffix {s suffix text : List α} (h : ProperSuffix suffix text)
    (hs : s <:+ suffix) : ProperSuffix s text :=
  ⟨hs.trans h.1, lt_of_le_of_lt hs.length_le h.2⟩

/-- There is one longest suffix. -/
lemma LongestMatch.unique {table : List (List α)} {text s s' : List α}
    (h : LongestMatch table text s) (h' : LongestMatch table text s') : s = s' := by
  have hlength := le_antisymm (h'.longest s h.mem h.properSuffix)
    (h.longest s' h'.mem h'.properSuffix)
  exact (List.suffix_of_suffix_length_le h.properSuffix.1 h'.properSuffix.1
    hlength.le).eq_of_length hlength

variable [DecidableEq α]

instance (suffix text : List α) : Decidable (ProperSuffix suffix text) :=
  inferInstanceAs (Decidable (_ ∧ _))

/-- The first entry of the table that properly ends the text. -/
def firstMatch (table : List (List α)) (text : List α) : Option (List α) :=
  table.find? fun suffix => decide (ProperSuffix suffix text)

lemma firstMatch_append (front back : List (List α)) (text : List α) :
    firstMatch (front ++ back) text = (firstMatch front text).or (firstMatch back text) :=
  List.find?_append

/-- Some entry of the table ends the text. -/
lemma exists_firstMatch {table : List (List α)} {text : List α}
    (h : ∃ suffix ∈ table, ProperSuffix suffix text) :
    ∃ suffix ∈ table, firstMatch table text = some suffix := by
  obtain ⟨suffix, hmem, hproper⟩ := h
  cases hfirst : firstMatch table text with
  | none =>
    have hnone := List.find?_eq_none.mp hfirst suffix hmem
    simp [hproper] at hnone
  | some s => exact ⟨s, List.mem_of_find?_eq_some hfirst, rfl⟩

/-- A text that ends in a hidden suffix is split before a shorter one. -/
lemma firstMatch_of_hidden {table : List (List α)} {suffix text : List α}
    (hhidden : Hidden table suffix) (hproper : ProperSuffix suffix text) :
    ∃ s, firstMatch table text = some s ∧ s.length < suffix.length := by
  obtain ⟨front, back, rfl, ⟨s, hs, hends⟩, hnot⟩ := hhidden
  obtain ⟨first, hmem, hfirst⟩ := exists_firstMatch ⟨s, hs, hproper.of_suffix hends⟩
  refine ⟨first, by rw [firstMatch_append, hfirst, Option.some_or], ?_⟩
  have hfits : ProperSuffix first text := by
    simpa using List.find?_some hfirst
  by_contra hlong
  exact hnot first hmem (List.suffix_of_suffix_length_le hproper.1 hfits.1 (not_lt.mp hlong))

/-- When no entry before another one hides it, but for those that do not end the text, the first
entry that ends the text is the longest. -/
lemma firstMatch_longest {table exceptions : List (List α)} {text suffix : List α}
    (hordered : table.Pairwise fun s s' => s <:+ s' → s'.length ≤ s.length ∨ s' ∈ exceptions)
    (hexceptions : ∀ s ∈ exceptions, ¬ ProperSuffix s text)
    (h : firstMatch table text = some suffix) : LongestMatch table text suffix := by
  obtain ⟨hproper, front, back, rfl, hfront⟩ := List.find?_eq_some_iff_append.mp h
  have hproper : ProperSuffix suffix text := of_decide_eq_true hproper
  refine ⟨List.mem_append_right _ List.mem_cons_self, hproper, ?_⟩
  intro s hs hfits
  rcases List.mem_append.mp hs with hs | hs
  · have hmiss := hfront s hs
    simp [hfits] at hmiss
  rcases List.mem_cons.mp hs with rfl | hs
  · exact le_rfl
  -- a longer entry behind the first one would be hidden by it
  by_contra hlong
  have hends : suffix <:+ s :=
    List.suffix_of_suffix_length_le hproper.1 hfits.1 (not_le.mp hlong).le
  have hpair := (List.pairwise_cons.mp (List.pairwise_append.mp hordered).2.1).1 s hs hends
  rcases hpair with hle | hmem
  · exact hlong hle
  · exact hexceptions s hmem hfits

/-- The first entry that ends the text is the longest exactly when the text does not end in a hidden
one. -/
theorem firstMatch_longest_iff {table exceptions : List (List α)} {text : List α}
    (hordered : table.Pairwise fun s s' => s <:+ s' → s'.length ≤ s.length ∨ s' ∈ exceptions)
    (hhidden : ∀ s ∈ exceptions, s ∈ table ∧ Hidden table s)
    (hsome : ∃ suffix ∈ table, ProperSuffix suffix text) :
    (∃ suffix, firstMatch table text = some suffix ∧ LongestMatch table text suffix) ↔
      ∀ s ∈ exceptions, ¬ ProperSuffix s text := by
  constructor
  · rintro ⟨suffix, hfirst, hlongest⟩ s hs hproper
    obtain ⟨hmem, hhid⟩ := hhidden s hs
    obtain ⟨first, hfirst', hshort⟩ := firstMatch_of_hidden hhid hproper
    obtain rfl : first = suffix := Option.some.inj (hfirst'.symm.trans hfirst)
    exact absurd (hlongest.longest s hmem hproper) (not_le.mpr hshort)
  · intro hexceptions
    obtain ⟨suffix, -, hfirst⟩ := exists_firstMatch hsome
    exact ⟨suffix, hfirst, firstMatch_longest hordered hexceptions hfirst⟩

end SuffixTable
