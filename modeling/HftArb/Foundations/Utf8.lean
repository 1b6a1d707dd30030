import Mathlib.Tactic

/-!
# UTF-8 texts as lists of bytes

`Valid` says that bytes are the UTF-8 encoding of some characters, as the conversion of bytes to a
string checks it.  Texts can be joined, and bytes below 128 are characters of their own.
-/

namespace Utf8

/-- The bytes encode some characters. -/
def Valid (bytes : List UInt8) : Prop := bytes.toByteArray.IsValidUTF8

instance (bytes : List UInt8) : Decidable (Valid bytes) :=
  inferInstanceAs (Decidable bytes.toByteArray.IsValidUTF8)

lemma valid_nil : Valid [] := ByteArray.isValidUTF8_empty

lemma Valid.append {bytes bytes' : List UInt8} (h : Valid bytes) (h' : Valid bytes') :
    Valid (bytes ++ bytes') := by
  rw [Valid, List.toByteArray_append]
  exact ByteArray.IsValidUTF8.append h h'

/-- A byte below 128 is a character. -/
lemma valid_singleton {c : UInt8} (h : c < 128) : Valid [c] := by
  have hall : ∀ i : Fin 128, Valid [UInt8.ofNat i] := by decide +kernel
  have hc := hall ⟨c.toNat, UInt8.lt_iff_toNat_lt.mp h⟩
  rwa [UInt8.ofNat_toNat] at hc

/-- Bytes below 128 are a text. -/
lemma valid_of_ascii {bytes : List UInt8} (h : ∀ c ∈ bytes, c < 128) : Valid bytes := by
  induction bytes with
  | nil => exact valid_nil
  | cons c bytes ih =>
    obtain ⟨hc, hbytes⟩ := List.forall_mem_cons.mp h
    exact (valid_singleton hc).append (ih hbytes)

end Utf8
