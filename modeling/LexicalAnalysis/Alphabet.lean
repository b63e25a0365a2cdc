/-
# The lexical alphabet

Every decision of the scanner rests on the class of a byte: whether it separates lexemes,
stands in a word or in a number, or is part of a symbol.  Bytes of no class stand in no legal
lexeme.

* `isBlank`, `isLetter`, `isDigit`, `isWordByte`, `isSymbolByte`: the classes;
* `isAlphabetic`: the bytes that are of some class.

The lemmas say which classes have no byte in common.  They are why a first byte decides what
is read.
-/
import LexicalAnalysis.Byte

namespace LexicalAnalysis

/-! ## 1. The classes -/

/-- The byte that ends a line, and belongs to the line it ends. -/
def newline : UInt8 := 0x0A

/-- The five blanks: space, tab, carriage return, newline and form feed.  The vertical tab is
not one of them. -/
def isBlank (b : UInt8) : Bool :=
  b == 0x20 || b == 0x09 || b == 0x0D || b == newline || b == 0x0C

/-- What a word may start with: a letter of either case, or the underscore. -/
def isLetter (b : UInt8) : Bool :=
  ByteRange.holds ⟨0x61, 0x7A⟩ b || ByteRange.holds ⟨0x41, 0x5A⟩ b || b == 0x5F

/-- The ten decimal digits. -/
def isDigit (b : UInt8) : Bool := ByteRange.holds ⟨0x30, 0x39⟩ b

/-- What a word may go on with. -/
def isWordByte (b : UInt8) : Bool := isLetter b || isDigit b

/-- What operators and delimiters are written with. -/
def isSymbolByte (b : UInt8) : Bool :=
  (ascii ['=', '!', '<', '>', '+', '-', '*', '/', ';', ',', '(', ')', '{', '}']).contains b

/-- The lexical alphabet. -/
def isAlphabetic (b : UInt8) : Bool := isWordByte b || isBlank b || isSymbolByte b

/-! ## 2. Classes that share no byte -/

/-- No word starts with a digit. -/
theorem isDigit_eq_false_of_isLetter : ∀ b : UInt8, isLetter b = true → isDigit b = false :=
  forall_byte (by decide +kernel)

theorem isBlank_eq_false_of_isWordByte : ∀ b : UInt8, isWordByte b = true → isBlank b = false :=
  forall_byte (by decide +kernel)

end LexicalAnalysis
