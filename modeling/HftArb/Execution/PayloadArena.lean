import HftArb.Foundations.BoundedAppend

/-!
# The payload buffers

A request is written into a buffer of 1024 bytes.  An append that does not fit leaves the buffer
alone, but `append_param` makes up to four of them: a parameter whose pieces do not all fit leaves
those behind that were written before the first failure (`appendParam_iff`).
-/

namespace HftArb

open BoundedAppend

/-- `PAYLOAD_BUFFER_SIZE`. -/
def payloadBufferSize : ℕ := 1024

/-- A buffer: its bytes, of which the first `len` are written. -/
structure PayloadBuffer where
  data : List UInt8
  len : ℕ
  length_data : data.length = payloadBufferSize
  len_le : len ≤ payloadBufferSize

namespace PayloadBuffer

/-- The bytes `d` over those of `data` from a position on. -/
def overwrite (data : List UInt8) (start : ℕ) (d : List UInt8) : List UInt8 :=
  data.take start ++ d ++ data.drop (start + d.length)

lemma length_overwrite {data d : List UInt8} {start n : ℕ} (hdata : data.length = n)
    (hfits : start + d.length ≤ n) : (overwrite data start d).length = n := by
  simp only [overwrite, List.length_append, List.length_take, List.length_drop]
  omega

/-- A new buffer. -/
def new : PayloadBuffer where
  data := List.replicate payloadBufferSize 0
  len := 0
  length_data := List.length_replicate
  len_le := Nat.zero_le _

/-- `is_empty`. -/
def isEmpty (b : PayloadBuffer) : Bool := b.len = 0

/-- `append`. -/
def append (b : PayloadBuffer) (d : List UInt8) : PayloadBuffer × Bool :=
  if h : payloadBufferSize < b.len + d.length then (b, false)
  else
    ({ data := overwrite b.data b.len d
       len := b.len + d.length
       length_data := length_overwrite b.length_data (not_lt.mp h)
       len_le := not_lt.mp h }, true)

/-- `append_param`. -/
def appendParam (b : PayloadBuffer) (key value : List UInt8) : PayloadBuffer × Bool :=
  let needAmp := !b.isEmpty
  let amp := if needAmp then b.append [38] else (b, true)
  if needAmp = true ∧ amp.2 = false then amp
  else
    let afterKey := amp.1.append key
    if afterKey.2 = true then
      let afterEq := afterKey.1.append [61]
      if afterEq.2 = true then afterEq.1.append value else afterEq
    else afterKey

/-- `as_bytes`: the written bytes. -/
def content (b : PayloadBuffer) : List UInt8 := b.data.take b.len

lemma length_content (b : PayloadBuffer) : b.content.length = b.len := by
  rw [content, List.length_take, b.length_data, min_eq_left b.len_le]

lemma isEmpty_iff (b : PayloadBuffer) : b.isEmpty = true ↔ b.content = [] := by
  rw [isEmpty, decide_eq_true_iff, ← length_content, List.length_eq_zero_iff]

/-- An append writes all of its bytes or leaves the buffer alone. -/
lemma append_bounded : Bounded append content payloadBufferSize where
  of_le b d hfits := by
    rw [length_content] at hfits
    have htake : (b.data.take b.len).length = b.len := b.length_content
    rw [append, dif_neg (not_lt.mpr hfits)]
    refine ⟨?_, rfl⟩
    simp only [content, overwrite]
    rw [List.take_left' (by rw [List.length_append, htake])]
  of_lt b d hlt := by
    rw [length_content] at hlt
    rw [append, dif_pos hlt]

/-- What a parameter appends, piece by piece. -/
def pieces (b : PayloadBuffer) (key value : List UInt8) : List (List UInt8) :=
  if b.content = [] then [key, [61], value] else [[38], key, [61], value]

lemma appendParam_eq (b : PayloadBuffer) (key value : List UInt8) :
    b.appendParam key value = appendAll append b (b.pieces key value) := by
  unfold appendParam pieces
  by_cases hempty : b.content = []
  · rw [(isEmpty_iff b).mpr hempty, if_pos hempty, appendAll_cons, appendAll_cons,
      appendAll_singleton]
    rfl
  · have hamp : b.isEmpty = false := by
      rw [← Bool.not_eq_true, isEmpty_iff]
      exact hempty
    rw [hamp, if_neg hempty, appendAll_cons, appendAll_cons, appendAll_cons, appendAll_singleton]
    by_cases hfirst : (b.append [38]).2 = true
    · simp [hfirst]
    · simp [Bool.not_eq_true _ ▸ hfirst]

/-- A parameter behind the content, with its separator. -/
def parameter (b : PayloadBuffer) (key value : List UInt8) : List UInt8 :=
  (if b.content = [] then [] else [38]) ++ key ++ [61] ++ value

lemma flatten_pieces (b : PayloadBuffer) (key value : List UInt8) :
    (b.pieces key value).flatten = b.parameter key value := by
  unfold pieces parameter
  split_ifs <;> simp

/-- The content with the parameter fits into the buffer. -/
def Fits (b : PayloadBuffer) (key value : List UInt8) : Prop :=
  (b.content ++ b.parameter key value).length ≤ payloadBufferSize

/-- Nothing is written when the first piece does not fit; an empty key is followed by a piece that
fits. -/
lemma flatten_fitting_pieces_eq_nil_iff (b : PayloadBuffer) (key value : List UInt8) :
    (fitting (payloadBufferSize - b.content.length) (b.pieces key value)).flatten = [] ↔
      (b.content ≠ [] ∧ b.content.length = payloadBufferSize) ∨
        b.content = [] ∧ payloadBufferSize < key.length := by
  have hle : b.content.length ≤ payloadBufferSize := b.length_content ▸ b.len_le
  unfold pieces
  by_cases hempty : b.content = []
  · have hpositive : ¬ payloadBufferSize < 1 := by decide
    rw [if_pos hempty, flatten_fitting_cons_eq_nil_iff, flatten_fitting_cons_eq_nil_iff, hempty]
    simp [hpositive]
  · rw [if_neg hempty, flatten_fitting_cons_eq_nil_iff]
    simp only [List.length_singleton, List.cons_ne_nil, false_and, or_false, ne_eq, hempty,
      not_false_eq_true, true_and]
    omega

/-- A parameter is appended or leaves the content alone exactly when it fits, or its first piece
does not: the separator behind a full content, or the key in an empty buffer. -/
theorem appendParam_iff (b : PayloadBuffer) (key value : List UInt8) :
    (((b.appendParam key value).2 = true ↔ b.Fits key value) ∧
      ((b.appendParam key value).2 = true →
        (b.appendParam key value).1.content = b.content ++ b.parameter key value) ∧
      ((b.appendParam key value).2 = false →
        (b.appendParam key value).1.content = b.content ∧
          (b.appendParam key value).1.len = b.len)) ↔
    b.Fits key value ∨ (b.content ≠ [] ∧ b.content.length = payloadBufferSize) ∨
      b.content = [] ∧ payloadBufferSize < key.length := by
  have hle : b.content.length ≤ payloadBufferSize := b.length_content ▸ b.len_le
  obtain ⟨hcontent, hsnd⟩ := appendAll_spec append_bounded hle (b.pieces key value)
  rw [← appendParam_eq] at hcontent hsnd
  rw [flatten_pieces, ← List.length_append, ← Fits] at hsnd
  by_cases hfits : b.Fits key value
  · have hall : (b.appendParam key value).1.content = b.content ++ b.parameter key value := by
      rw [Fits, List.length_append, ← flatten_pieces] at hfits
      rw [hcontent, fitting_eq_self (by omega), flatten_pieces]
    refine iff_of_true ⟨hsnd, fun _ => hall, fun hfalse => ?_⟩ (Or.inl hfits)
    rw [hsnd.mpr hfits] at hfalse
    cases hfalse
  · have hfalse : (b.appendParam key value).2 = false := by
      rw [← Bool.not_eq_true, hsnd]
      exact hfits
    rw [← length_content, ← length_content, hcontent, ← flatten_fitting_pieces_eq_nil_iff, hfalse]
    constructor
    · rintro ⟨-, -, hsame⟩
      exact Or.inr (List.append_right_eq_self.mp (hsame rfl).1)
    · rintro (h | hnil)
      · exact absurd h hfits
      · rw [hnil, List.append_nil]
        exact ⟨iff_of_false Bool.false_ne_true hfits, nofun, fun _ => ⟨rfl, rfl⟩⟩

/-- A value that does not fit leaves the key behind. -/
theorem key_left_behind :
    (new.appendParam [97] (List.replicate 1023 98)).2 = false ∧
      (new.appendParam [97] (List.replicate 1023 98)).1.content = [97, 61] := by
  decide +kernel

end PayloadBuffer

end HftArb
