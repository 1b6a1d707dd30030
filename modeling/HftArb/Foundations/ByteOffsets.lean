import HftArb.Foundations.TextSearch

/-!
# Texts addressed by byte offsets

A text of characters is cut at offsets counted in bytes of its UTF-8 encoding.  A cut inside a
character, or behind the end, is none.  Offsets that come from a search are the byte lengths of what
precedes the place found, and there the cuts succeed: `sliceFrom_append`, `slice_append`.
-/

namespace ByteOffsets

open TextSearch

/-- The length of a text in bytes. -/
def byteLen (text : List Char) : ℕ := (text.map Char.utf8Size).sum

@[simp] lemma byteLen_nil : byteLen [] = 0 := rfl

@[simp] lemma byteLen_cons (c : Char) (text : List Char) :
    byteLen (c :: text) = c.utf8Size + byteLen text := rfl

@[simp] lemma byteLen_append (text text' : List Char) :
    byteLen (text ++ text') = byteLen text + byteLen text' := by
  rw [byteLen, List.map_append, List.sum_append]
  rfl

lemma byteLen_pos {text : List Char} (h : text ≠ []) : 0 < byteLen text := by
  cases text with
  | nil => exact absurd rfl h
  | cons c text =>
    have hpos := c.utf8Size_pos
    rw [byteLen_cons]
    omega

/-! ## Cuts -/

/-- The text from an offset on. -/
def sliceFrom : List Char → ℕ → Option (List Char)
  | [], i => if i = 0 then some [] else none
  | c :: text, i =>
    if i = 0 then some (c :: text)
    else if c.utf8Size ≤ i then sliceFrom text (i - c.utf8Size) else none

/-- The text up to an offset. -/
def sliceTo : List Char → ℕ → Option (List Char)
  | [], i => if i = 0 then some [] else none
  | c :: text, i =>
    if i = 0 then some []
    else if c.utf8Size ≤ i then (sliceTo text (i - c.utf8Size)).map (c :: ·) else none

/-- The text between two offsets. -/
def slice (text : List Char) (i j : ℕ) : Option (List Char) :=
  if i ≤ j then (sliceFrom text i).bind fun rest => sliceTo rest (j - i) else none

lemma sliceFrom_append (text text' : List Char) :
    sliceFrom (text ++ text') (byteLen text) = some text' := by
  induction text with
  | nil => cases text' <;> rfl
  | cons c text ih =>
    have hpos := c.utf8Size_pos
    rw [List.cons_append, sliceFrom, byteLen_cons, if_neg (by omega), if_pos (by omega),
      Nat.add_sub_cancel_left, ih]

lemma sliceTo_append (text text' : List Char) :
    sliceTo (text ++ text') (byteLen text) = some text := by
  induction text with
  | nil => cases text' <;> rfl
  | cons c text ih =>
    have hpos := c.utf8Size_pos
    rw [List.cons_append, sliceTo, byteLen_cons, if_neg (by omega), if_pos (by omega),
      Nat.add_sub_cancel_left, ih, Option.map_some]

/-- A cut succeeds when some piece at the start has the length, and gives this piece. -/
lemma sliceTo_eq_some_iff {text front : List Char} {i : ℕ} :
    sliceTo text i = some front ↔ front <+: text ∧ byteLen front = i := by
  constructor
  · intro h
    induction text generalizing i front with
    | nil =>
      rw [sliceTo] at h
      split_ifs at h with hi
      obtain rfl := Option.some.inj h
      exact ⟨List.prefix_rfl, hi.symm⟩
    | cons c text ih =>
      rw [sliceTo] at h
      split_ifs at h with hi hle
      · obtain rfl := Option.some.inj h
        exact ⟨List.nil_prefix, hi.symm⟩
      · obtain ⟨rest, hrest, rfl⟩ := Option.map_eq_some_iff.mp h
        obtain ⟨hbegins, hlen⟩ := ih hrest
        refine ⟨List.cons_prefix_cons.mpr ⟨rfl, hbegins⟩, ?_⟩
        rw [byteLen_cons, hlen]
        omega
  · rintro ⟨⟨rest, rfl⟩, rfl⟩
    exact sliceTo_append front rest

/-- A text has at least as many bytes as characters. -/
lemma length_le_byteLen (text : List Char) : text.length ≤ byteLen text := by
  induction text with
  | nil => exact le_rfl
  | cons c text ih =>
    have hpos := c.utf8Size_pos
    rw [List.length_cons, byteLen_cons]
    omega

/-- A text of characters of one byte has as many bytes as characters. -/
lemma byteLen_eq_length {text : List Char} (h : ∀ c ∈ text, c.val ≤ 127) :
    byteLen text = text.length := by
  induction text with
  | nil => rfl
  | cons c text ih =>
    obtain ⟨hc, htext⟩ := List.forall_mem_cons.mp h
    rw [byteLen_cons, List.length_cons, ih htext, Char.utf8Size_eq_one_iff.mpr hc, add_comm]

/-- An offset at which a text may be cut. -/
def isCharBoundary (text : List Char) (i : ℕ) : Bool := (sliceTo text i).isSome

/-- The last offset up to a given one at which a text may be cut. -/
def floorCharBoundary (text : List Char) : ℕ → ℕ
  | 0 => 0
  | i + 1 => if isCharBoundary text (i + 1) then i + 1 else floorCharBoundary text i

lemma isCharBoundary_zero (text : List Char) : isCharBoundary text 0 = true := by
  cases text <;> rfl

/-- What is cut off at the last offset is a piece at the start, and no longer one fits. -/
lemma exists_sliceTo_floorCharBoundary (text : List Char) (i : ℕ) :
    ∃ front, sliceTo text (floorCharBoundary text i) = some front ∧ front <+: text ∧
      byteLen front ≤ i ∧
      ∀ longer, longer <+: text → byteLen longer ≤ i → longer <+: front := by
  induction i with
  | zero =>
    obtain ⟨front, hfront⟩ := Option.isSome_iff_exists.mp (isCharBoundary_zero text)
    obtain ⟨hbegins, hlen⟩ := sliceTo_eq_some_iff.mp hfront
    refine ⟨front, hfront, hbegins, hlen.le, fun longer hlonger hle => ?_⟩
    cases longer with
    | nil => exact List.nil_prefix
    | cons c longer => exact absurd hle (not_le.mpr (byteLen_pos (List.cons_ne_nil _ _)))
  | succ i ih =>
    rw [floorCharBoundary]
    split_ifs with hboundary
    · obtain ⟨front, hfront⟩ := Option.isSome_iff_exists.mp hboundary
      obtain ⟨hbegins, hlen⟩ := sliceTo_eq_some_iff.mp hfront
      refine ⟨front, hfront, hbegins, hlen.le, fun longer hlonger hle => ?_⟩
      rcases List.prefix_or_prefix_of_prefix hlonger hbegins with h | ⟨rest, rfl⟩
      · exact h
      · -- the longer piece has no room for more than the cut
        rw [byteLen_append, hlen] at hle
        cases rest with
        | nil => rw [List.append_nil]
        | cons c rest =>
          exact absurd (byteLen_pos (List.cons_ne_nil c rest)) (by omega)
    · obtain ⟨front, hfront, hbegins, hle, hmax⟩ := ih
      refine ⟨front, hfront, hbegins, by omega, fun longer hlonger hlen => hmax longer hlonger ?_⟩
      rcases hlen.lt_or_eq with hlt | heq
      · omega
      · refine absurd ?_ hboundary
        rw [isCharBoundary, sliceTo_eq_some_iff.mpr ⟨hlonger, heq⟩]
        rfl

/-- The middle one of three pieces. -/
lemma slice_append (text piece rest : List Char) :
    slice (text ++ (piece ++ rest)) (byteLen text) (byteLen text + byteLen piece) = some piece := by
  rw [slice, if_pos (Nat.le_add_right _ _), sliceFrom_append, Option.bind_some,
    Nat.add_sub_cancel_left, sliceTo_append]

/-! ## Searches -/

/-- The offset of the first occurrence of a pattern. -/
def offset (pattern text : List Char) : Option ℕ :=
  (find pattern text).map fun found => byteLen found.1

/-- The offset of the first character with a property. -/
def offsetWhere (p : Char → Bool) : List Char → Option ℕ
  | [] => none
  | c :: text => if p c = true then some 0 else (offsetWhere p text).map (c.utf8Size + ·)

lemma offset_append_self (pattern rest : List Char) :
    offset pattern (pattern ++ rest) = some 0 := by
  rw [offset, find_append_self]
  rfl

/-- A piece in which no occurrence begins moves the offset. -/
lemma offset_append_of_avoids {pattern piece rest : List Char} (h : Avoids pattern piece rest) :
    offset pattern (piece ++ rest) = (offset pattern rest).map (byteLen piece + ·) := by
  rw [offset, find_append_of_avoids h, Option.map_map, offset, Option.map_map]
  congr 1
  funext found
  exact byteLen_append piece found.1

lemma offset_eq_none {pattern text : List Char} (h : ¬ pattern <:+: text) :
    offset pattern text = none := by
  rw [offset, find_eq_none_of_not_infix h, Option.map_none]

/-- The first character with a property is behind a piece without one. -/
lemma offsetWhere_append {p : Char → Bool} {piece rest : List Char}
    (hpiece : ∀ c ∈ piece, p c = false) (hrest : ∀ c, rest.head? = some c → p c = true) :
    (offsetWhere p (piece ++ rest)).getD (byteLen (piece ++ rest)) = byteLen piece := by
  induction piece with
  | nil =>
    cases rest with
    | nil => rfl
    | cons c rest =>
      rw [List.nil_append, offsetWhere, if_pos (hrest c rfl)]
      rfl
  | cons c piece ih =>
    obtain ⟨hc, hpiece⟩ := List.forall_mem_cons.mp hpiece
    have htail := ih hpiece
    rw [List.cons_append, offsetWhere, hc, if_neg Bool.false_ne_true, byteLen_cons, byteLen_cons]
    cases hfound : offsetWhere p (piece ++ rest) with
    | none =>
      rw [hfound, Option.getD_none] at htail
      rw [Option.map_none, Option.getD_none, htail]
    | some i =>
      rw [hfound, Option.getD_some] at htail
      rw [Option.map_some, Option.getD_some, htail]

end ByteOffsets
