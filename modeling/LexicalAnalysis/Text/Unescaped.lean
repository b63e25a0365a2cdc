/-
# What is shown in ASCII, read back

Bytes that are shown in ASCII can be read back if there is no backslash among them.  Then every
backslash that is shown starts the number of a byte, which is three more characters, and any other
character is a byte of its own.  A backslash among the bytes is shown as itself, and what follows it
may make a number of it.

* `unescape`: the bytes that a text shows;
* `unescape_escapeByte_append`: a byte is read back, whatever follows it;
* `unescape_escape`: and so are any bytes without a backslash;
* `escape_inj`: so no two of them are shown alike.
-/
import LexicalAnalysis.Text.Unquoted

namespace LexicalAnalysis.Text

/-- The byte of the character that numbers start with. -/
def backslash : UInt8 := 0x5C

/-- The byte whose number has these two hexadecimal digits. -/
def numberedByte (high low : Char) : UInt8 := UInt8.ofNat (readHex [high.toLower, low.toLower])

/-- The bytes that a text shows. -/
def unescape : List Char → List UInt8
  | '\\' :: 'x' :: high :: low :: cs => numberedByte high low :: unescape cs
  | c :: cs => c.toUInt8 :: unescape cs
  | [] => []

/-- A character that starts no number is a byte of its own. -/
theorem unescape_cons {c : Char} (h : c ≠ '\\') (cs : List Char) :
    unescape (c :: cs) = c.toUInt8 :: unescape cs := by
  rw [unescape]
  rintro _ _ _ rfl
  exact absurd rfl h

theorem toUInt8_ofNat : ∀ b : UInt8, (Char.ofNat b.toNat).toUInt8 = b :=
  forall_byte (by decide +kernel)

theorem numberedByte_upperHexDigit :
    ∀ b : UInt8, numberedByte (upperHexDigit (b.toNat / 16)) (upperHexDigit (b.toNat % 16)) = b :=
  forall_byte (by decide +kernel)

/-- **A byte is read back**, whatever follows it, unless it is a backslash. -/
theorem unescape_escapeByte_append {b : UInt8} (hb : b ≠ backslash) (cs : List Char) :
    unescape (escapeByte b ++ cs) = b :: unescape cs := by
  unfold escapeByte
  split
  · have hchar : Char.ofNat b.toNat ≠ '\\' := by
      intro h
      refine hb ?_
      rw [← toUInt8_ofNat b, h]
      rfl
    rw [List.singleton_append, unescape_cons hchar, toUInt8_ofNat]
  · simp only [List.cons_append, List.nil_append, unescape, numberedByte_upperHexDigit]

/-- **Bytes are read back from what is shown for them**, if there is no backslash among them. -/
theorem unescape_escape {bytes : List UInt8} (h : backslash ∉ bytes) :
    unescape (escape bytes).toList = bytes := by
  rw [escape, String.toList_ofList]
  induction bytes with
  | nil => rfl
  | cons b bytes ih =>
    obtain ⟨hb, hbytes⟩ := List.ne_and_not_mem_of_not_mem_cons h
    rw [List.flatMap_cons, unescape_escapeByte_append (Ne.symm hb), ih hbytes]

/-- **No two lists of bytes are shown alike**, if neither has a backslash. -/
theorem escape_inj {xs ys : List UInt8} (hx : backslash ∉ xs) (hy : backslash ∉ ys)
    (h : escape xs = escape ys) : xs = ys := by
  rw [← unescape_escape hx, h, unescape_escape hy]

-- with a backslash there is another list that is shown as a control character is
example : escape (ascii ['\\', 'x', '0', '0']) = escape [0x00] := by decide

end LexicalAnalysis.Text
