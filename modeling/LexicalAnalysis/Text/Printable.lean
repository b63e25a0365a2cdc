/-
# Printable characters

A character prints if it is assigned and leaves a mark on the page by itself, or is the space.

`isPrintable_iff_of_lt`: among the first 128 characters the printable ones are those from the
space to the tilde.
-/
import LexicalAnalysis.Text.Unassigned

namespace LexicalAnalysis.Text

/-- The assigned characters that leave no mark: controls, separators other than the space, format
characters, private use, and the letters of Hangul that only fill an empty place. -/
def invisible : List CharRange :=
  [⟨0x0, 0x1F⟩, ⟨0x7F, 0xA0⟩, ⟨0xAD, 0xAD⟩, ⟨0x600, 0x605⟩, ⟨0x61C, 0x61C⟩, ⟨0x6DD, 0x6DD⟩,
   ⟨0x70F, 0x70F⟩, ⟨0x890, 0x891⟩, ⟨0x8E2, 0x8E2⟩, ⟨0x115F, 0x1160⟩, ⟨0x1680, 0x1680⟩,
   ⟨0x180E, 0x180E⟩, ⟨0x2000, 0x200F⟩, ⟨0x2028, 0x202F⟩, ⟨0x205F, 0x2064⟩, ⟨0x2066, 0x206F⟩,
   ⟨0x3000, 0x3000⟩, ⟨0x3164, 0x3164⟩, ⟨0xE000, 0xF8FF⟩, ⟨0xFEFF, 0xFEFF⟩, ⟨0xFFA0, 0xFFA0⟩,
   ⟨0xFFF9, 0xFFFB⟩, ⟨0x110BD, 0x110BD⟩, ⟨0x110CD, 0x110CD⟩, ⟨0x13430, 0x1343F⟩,
   ⟨0x1BCA0, 0x1BCA3⟩, ⟨0x1D173, 0x1D17A⟩, ⟨0xE0001, 0xE0001⟩, ⟨0xE0020, 0xE007F⟩,
   ⟨0xF0000, 0xFFFFD⟩, ⟨0x100000, 0x10FFFD⟩]

def isInvisible (c : Char) : Bool := CharRange.covers invisible c

def isPrintable (c : Char) : Bool := !isInvisible c && !isUnassigned c

/-- Among the first 128 characters the printable ones are those from the space to the tilde. -/
theorem isPrintable_iff_of_lt {c : Char} (h : c.toNat < 0x80) :
    isPrintable c = true ↔ 0x20 ≤ c.toNat ∧ c.toNat ≤ 0x7E := by
  have hu : isUnassigned c = false := by
    rw [isUnassigned, unassigned]
    exact CharRange.covers_eq_false_of_lt (by simp only; omega)
  simp only [isPrintable, hu, isInvisible, invisible, CharRange.covers, Bool.not_false,
    Bool.and_true, Bool.not_eq_true', Bool.and_eq_false_iff, Bool.or_eq_false_iff,
    decide_eq_false_iff_not]
  omega

end LexicalAnalysis.Text
