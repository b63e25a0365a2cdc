/-
# Text written as bytes

Text is written as the core library writes it.  What was read as text may be written in other bytes
than it was read from, since a replacement character stands for bytes that are not its own; but
ASCII is written as it was read.

* `encode_ofList`: a text is written character by character;
* `encode_decode`: ASCII is written as it was read.
-/
import LexicalAnalysis.Text.Utf8.Segments

namespace LexicalAnalysis.Utf8

/-- The bytes that a text is written with. -/
def encode (text : String) : List UInt8 := text.toUTF8.data.toList

/-- **A text is written character by character.** -/
theorem encode_ofList (cs : List Char) :
    encode (String.ofList cs) = cs.flatMap String.utf8EncodeChar := by
  unfold encode
  rw [String.toUTF8, String.toByteArray_ofList, List.utf8Encode, List.toList_data_toByteArray]

/-- An ASCII byte is read as a character of its own number, which is written as that byte. -/
theorem utf8EncodeChar_ofNat :
    ∀ b : UInt8, b < 0x80 → String.utf8EncodeChar (Char.ofNat b.toNat) = [b] :=
  forall_byte (by decide +kernel)

/-- ASCII is read character by character. -/
theorem chars_of_lt {bytes : List UInt8} (h : ∀ b ∈ bytes, b < 0x80) :
    chars bytes = bytes.map fun b => Char.ofNat b.toNat := by
  induction bytes with
  | nil => rfl
  | cons b bytes ih =>
    obtain ⟨hb, hbytes⟩ := List.forall_mem_cons.mp h
    rw [chars_cons_of_lt hb, ih hbytes, List.map_cons]

/-- **ASCII is written as it was read.** -/
theorem encode_decode {bytes : List UInt8} (h : ∀ b ∈ bytes, b < 0x80) :
    encode (decode bytes) = bytes := by
  rw [decode, encode_ofList, chars_of_lt h, List.flatMap_map]
  induction bytes with
  | nil => rfl
  | cons b bytes ih =>
    obtain ⟨hb, hbytes⟩ := List.forall_mem_cons.mp h
    rw [List.flatMap_cons, utf8EncodeChar_ofNat b hb, ih hbytes, List.singleton_append]

end LexicalAnalysis.Utf8
