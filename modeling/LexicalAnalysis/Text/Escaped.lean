/-
# Bytes shown in ASCII

Bytes that cannot be trusted to be text are shown one by one: a printable ASCII byte as its
character, any other byte as `\x` and two upper-case hexadecimal digits.  The backslash stands
for itself, so what is shown tells the bytes apart only where they hold none.

`mem_escape`: nothing but printable ASCII is shown.
-/
import LexicalAnalysis.Byte

namespace LexicalAnalysis.Text

/-- The bytes that are shown as their character: the space to the tilde. -/
def printableAscii : ByteRange := ⟨0x20, 0x7E⟩

/-- An upper-case hexadecimal digit. -/
def upperHexDigit (n : Nat) : Char := (Nat.digitChar n).toUpper

/-- What is shown for one byte. -/
def escapeByte (b : UInt8) : List Char :=
  if printableAscii.holds b then [Char.ofNat b.toNat]
  else ['\\', 'x', upperHexDigit (b.toNat / 16), upperHexDigit (b.toNat % 16)]

/-- What is shown for a list of bytes. -/
def escape (bytes : List UInt8) : String := String.ofList (bytes.flatMap escapeByte)

theorem all_escapeByte :
    ∀ b : UInt8, ((escapeByte b).all fun c => 0x20 ≤ c.toNat && c.toNat ≤ 0x7E) = true :=
  forall_byte (by decide +kernel)

/-- Nothing but printable ASCII is shown. -/
theorem mem_escape {bytes : List UInt8} {c : Char} (h : c ∈ (escape bytes).toList) :
    0x20 ≤ c.toNat ∧ c.toNat ≤ 0x7E := by
  simp only [escape, String.toList_ofList, List.mem_flatMap] at h
  obtain ⟨b, -, hc⟩ := h
  simpa using List.all_eq_true.mp (all_escapeByte b) c hc

end LexicalAnalysis.Text
