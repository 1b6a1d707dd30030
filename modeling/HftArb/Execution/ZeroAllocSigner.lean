import HftArb.Execution.PayloadArena

/-!
# The zero-allocation signer

A request is signed in two ways: `compile_and_sign_payload` joins the parameters itself and writes
the signed text into a buffer of 4096 bytes, `generate_signed_query` extends a text that was joined
before.  The first rejects a pre-image above 4020 bytes; the signature and its name take 75 bytes
behind it, so that what is accepted always fits (`compileAndSignPayload_agrees`).
-/

namespace HftArb

open PayloadBuffer (overwrite length_overwrite)

namespace ZeroAllocationSigner

/-- The bytes of a text of ASCII characters. -/
def ascii (s : String) : List UInt8 := s.toList.map fun c => UInt8.ofNat c.toNat

/-- `MAX_PAYLOAD_LEN`. -/
def maxPayloadLen : ℕ := 4096

/-- `SIGNATURE_OVERHEAD`. -/
def signatureOverhead : ℕ := 76

/-- `MAX_PREIMAGE_LEN`. -/
def maxPreimageLen : ℕ := maxPayloadLen - signatureOverhead

/-! ## The destination buffer -/

/-- The destination of a signed request. -/
structure Buffer where
  data : List UInt8
  length_data : data.length = maxPayloadLen

/-- A cursor over a buffer. -/
structure Cursor where
  buffer : Buffer
  position : ℕ
  position_le : position ≤ maxPayloadLen

namespace Cursor

/-- `Cursor::new`. -/
def new (buffer : Buffer) : Cursor where
  buffer := buffer
  position := 0
  position_le := Nat.zero_le _

lemma room (c : Cursor) (d : List UInt8) :
    c.position + (d.take (maxPayloadLen - c.position)).length ≤ maxPayloadLen := by
  have hle := c.position_le
  rw [List.length_take]
  omega

/-- `write_all`: what there is room for is written, also when the rest is then refused. -/
def writeAll (c : Cursor) (d : List UInt8) : Cursor × Bool :=
  ({ buffer :=
      { data := overwrite c.buffer.data c.position (d.take (maxPayloadLen - c.position))
        length_data := length_overwrite c.buffer.length_data (c.room d) }
     position := c.position + (d.take (maxPayloadLen - c.position)).length
     position_le := c.room d },
    decide (d.length ≤ maxPayloadLen - c.position))

end Cursor

/-- A text written at the start of a buffer in which it fits. -/
lemma writeAll_new (buffer : Buffer) {d : List UInt8} (hfits : d.length ≤ maxPayloadLen) :
    ((Cursor.new buffer).writeAll d).2 = true ∧
      ((Cursor.new buffer).writeAll d).1.position = d.length ∧
      ((Cursor.new buffer).writeAll d).1.buffer.data = d ++ buffer.data.drop d.length := by
  have htake : d.take (maxPayloadLen - 0) = d := List.take_of_length_le hfits
  refine ⟨decide_eq_true hfits, ?_, ?_⟩
  · simp only [Cursor.writeAll, Cursor.new, htake, Nat.zero_add]
  · simp only [Cursor.writeAll, Cursor.new, htake, overwrite, List.take_zero, List.nil_append,
      Nat.zero_add]

/-! ## Signatures -/

/-- The sixteen digits of `hex::encode`. -/
def hexDigit (n : ℕ) : UInt8 := UInt8.ofNat (if n < 10 then 48 + n else 87 + n)

/-- `hex::encode`. -/
def hexEncode (d : List UInt8) : List UInt8 :=
  d.flatMap fun b => [hexDigit (b.toNat / 16), hexDigit (b.toNat % 16)]

lemma length_hexEncode (d : List UInt8) : (hexEncode d).length = 2 * d.length := by
  induction d with
  | nil => rfl
  | cons b d ih =>
    rw [hexEncode, List.flatMap_cons, List.length_append, ← hexEncode, ih, List.length_cons,
      List.length_cons, List.length_cons, List.length_nil]
    omega

/-- The tag of HMAC-SHA256. -/
abbrev Tag := {d : List UInt8 // d.length = 32}

end ZeroAllocationSigner

/-- `ZeroAllocationSigner`. -/
structure ZeroAllocationSigner where
  secretKey : List UInt8

namespace ZeroAllocationSigner

section Signing

variable (hmac : List UInt8 → List UInt8 → Tag)

/-- The decimal text of a time. -/
def decimalText (timestamp : UInt64) : List UInt8 :=
  (Nat.toDigits 10 timestamp.toNat).map fun c => UInt8.ofNat c.toNat

/-- `sign_raw`. -/
def signRaw (s : ZeroAllocationSigner) (message : List UInt8) : List UInt8 :=
  hexEncode (hmac s.secretKey message).val

/-- `generate_signed_query`. -/
def generateSignedQuery (s : ZeroAllocationSigner) (basePayload : List UInt8)
    (timestamp : UInt64) : List UInt8 :=
  let preimage :=
    if basePayload = [] then ascii "timestamp=" ++ decimalText timestamp
    else basePayload ++ ascii "&timestamp=" ++ decimalText timestamp
  preimage ++ ascii "&signature=" ++ s.signRaw hmac preimage

/-- The parameters from the `i`-th on, pushed behind what is written. -/
def writeParams : ℕ → List UInt8 → List (List UInt8 × List UInt8) → List UInt8
  | _, preimage, [] => preimage
  | i, preimage, (key, value) :: params =>
    let separated := if 0 < i then preimage ++ ascii "&" else preimage
    writeParams (i + 1) (separated ++ key ++ ascii "=" ++ value) params

/-- The text that `compile_and_sign_payload` signs. -/
def compilePreimage (params : List (List UInt8 × List UInt8)) (timestamp : UInt64) : List UInt8 :=
  let written := writeParams 0 [] params
  let separated := if params ≠ [] then written ++ ascii "&" else written
  separated ++ ascii "timestamp=" ++ decimalText timestamp

/-- `compile_and_sign_payload`, with the buffer that it leaves. -/
def compileAndSignPayload (s : ZeroAllocationSigner) (params : List (List UInt8 × List UInt8))
    (timestamp : UInt64) (destinationBuffer : Buffer) : Except String ℕ × Buffer :=
  let cursor := Cursor.new destinationBuffer
  let preimage := compilePreimage params timestamp
  let tag := hmac s.secretKey preimage
  if maxPreimageLen < preimage.length then
    (.error "Preimage too large for output buffer", destinationBuffer)
  else
    let output := preimage ++ ascii "&signature=" ++ hexEncode tag.val
    let written := cursor.writeAll output
    if written.2 = true then (.ok written.1.position, written.1.buffer)
    else (.error "Buffer overflow", written.1.buffer)

/-! ## The two paths sign the same text -/

/-- A parameter of the query. -/
def parameter (p : List UInt8 × List UInt8) : List UInt8 := p.1 ++ ascii "=" ++ p.2

/-- The parameters joined by `&`. -/
def joinParams (params : List (List UInt8 × List UInt8)) : List UInt8 :=
  (ascii "&").intercalate (params.map parameter)

/-- The pre-image: the parameters and the time, joined by `&`. -/
def preimage (params : List (List UInt8 × List UInt8)) (timestamp : UInt64) : List UInt8 :=
  (ascii "&").intercalate (params.map parameter ++ [ascii "timestamp=" ++ decimalText timestamp])

/-- A parameter that is not the first is pushed with its separator. -/
lemma writeParams_succ (i : ℕ) (written : List UInt8) (params : List (List UInt8 × List UInt8)) :
    writeParams (i + 1) written params =
      written ++ params.flatMap fun p => ascii "&" ++ parameter p := by
  induction params generalizing i written with
  | nil => rw [writeParams, List.flatMap_nil, List.append_nil]
  | cons p params ih =>
    rw [writeParams, if_pos (Nat.succ_pos i), ih, List.flatMap_cons, parameter]
    simp only [List.append_assoc]

/-- A first item and the rest, each behind a separator. -/
lemma intercalate_cons (separator item : List UInt8) (items : List (List UInt8)) :
    separator.intercalate (item :: items) = item ++ items.flatMap fun d => separator ++ d := by
  induction items generalizing item with
  | nil => simp
  | cons item' items ih =>
    rw [List.intercalate_cons_cons, ih, List.flatMap_cons, List.append_assoc, List.append_assoc]

lemma writeParams_zero (params : List (List UInt8 × List UInt8)) :
    writeParams 0 [] params = joinParams params := by
  cases params with
  | nil => rfl
  | cons p params =>
    rw [writeParams, if_neg (lt_irrefl 0), writeParams_succ, joinParams, List.map_cons,
      intercalate_cons, List.flatMap_map, parameter, List.nil_append]

/-- Every parameter has its equality sign. -/
lemma joinParams_eq_nil_iff (params : List (List UInt8 × List UInt8)) :
    joinParams params = [] ↔ params = [] := by
  cases params with
  | nil => exact iff_of_true rfl rfl
  | cons p params =>
    refine iff_of_false (fun hnil => ?_) (List.cons_ne_nil _ _)
    rw [joinParams, List.map_cons, intercalate_cons, parameter] at hnil
    simp [ascii] at hnil

/-- The loop signs the pre-image. -/
lemma compilePreimage_eq (params : List (List UInt8 × List UInt8)) (timestamp : UInt64) :
    compilePreimage params timestamp = preimage params timestamp := by
  rw [compilePreimage, writeParams_zero, preimage]
  cases params with
  | nil => simp [joinParams]
  | cons p params =>
    rw [if_pos (List.cons_ne_nil _ _), joinParams, List.map_cons, List.cons_append,
      intercalate_cons, intercalate_cons, List.flatMap_append]
    simp only [List.flatMap_cons, List.flatMap_nil, List.append_nil, List.append_assoc]

/-- The text that was joined before is extended to the pre-image. -/
lemma generateSignedQuery_joinParams (s : ZeroAllocationSigner)
    (params : List (List UInt8 × List UInt8)) (timestamp : UInt64) :
    s.generateSignedQuery hmac (joinParams params) timestamp =
      preimage params timestamp ++ ascii "&signature=" ++
        hexEncode (hmac s.secretKey (preimage params timestamp)).val := by
  have hsplit : ascii "&timestamp=" = ascii "&" ++ ascii "timestamp=" := by decide
  have hsame : (if joinParams params = [] then ascii "timestamp=" ++ decimalText timestamp
      else joinParams params ++ ascii "&timestamp=" ++ decimalText timestamp) =
        preimage params timestamp := by
    rw [← compilePreimage_eq, compilePreimage, writeParams_zero]
    by_cases hnil : params = []
    · subst hnil
      rfl
    · rw [if_neg ((joinParams_eq_nil_iff params).not.mpr hnil), if_pos hnil, hsplit]
      simp only [List.append_assoc]
  rw [generateSignedQuery, hsame, signRaw]

/-- The name and the digits of a signature take 75 bytes. -/
lemma length_signed (text : List UInt8) (tag : Tag) :
    (text ++ ascii "&signature=" ++ hexEncode tag.val).length = text.length + 75 := by
  have hname : (ascii "&signature=").length = 11 := by decide
  rw [List.length_append, List.length_append, length_hexEncode, tag.2, hname]

/-- What is accepted is signed as the other path signs it, and all that is accepted fits. -/
theorem compileAndSignPayload_agrees (s : ZeroAllocationSigner)
    (params : List (List UInt8 × List UInt8)) (timestamp : UInt64) (buffer : Buffer) :
    ((∃ n, (s.compileAndSignPayload hmac params timestamp buffer).1 = .ok n) ↔
        (preimage params timestamp).length ≤ 4020) ∧
      (∀ n, (s.compileAndSignPayload hmac params timestamp buffer).1 = .ok n →
        (s.compileAndSignPayload hmac params timestamp buffer).2.data.take n =
            s.generateSignedQuery hmac (joinParams params) timestamp ∧
          n = (s.generateSignedQuery hmac (joinParams params) timestamp).length) ∧
      (s.compileAndSignPayload hmac params timestamp buffer).1 ≠ .error "Buffer overflow" := by
  have hlength := length_signed (preimage params timestamp)
    (hmac s.secretKey (preimage params timestamp))
  rw [generateSignedQuery_joinParams]
  rw [compileAndSignPayload, compilePreimage_eq]
  by_cases hlarge : maxPreimageLen < (preimage params timestamp).length
  · have hover : ¬ (preimage params timestamp).length ≤ 4020 := not_le.mpr hlarge
    simp [hlarge, hover]
  · have hle : (preimage params timestamp).length ≤ 4020 := not_lt.mp hlarge
    have hfits : (preimage params timestamp ++ ascii "&signature=" ++
        hexEncode (hmac s.secretKey (preimage params timestamp)).val).length ≤ maxPayloadLen := by
      rw [hlength, maxPayloadLen]
      omega
    obtain ⟨hok, hposition, hdata⟩ := writeAll_new buffer hfits
    simp only [hlarge, if_false, hok, if_true, hposition, hdata]
    refine ⟨iff_of_true ⟨_, rfl⟩ hle, fun n hn => ?_, nofun⟩
    obtain rfl := Except.ok.inj hn
    exact ⟨List.take_left, rfl⟩

end Signing

end ZeroAllocationSigner

end HftArb
