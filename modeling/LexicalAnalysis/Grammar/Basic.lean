/-
# The grammar of lexemes

What the lexemes of each kind are, and when one runs on into the byte after it.  Neither is said
in terms of the scanner.

* `Lexeme.Legal`: whether a run of bytes is a lexeme of its kind;
* `Lexeme.joins`: whether a lexeme that touches a byte would not end there;
* `isStray`, `strays`: the bytes that can be no part of a legal lexeme, found by looking at each
  byte and the next one alone.
-/
import LexicalAnalysis.Lexeme

namespace LexicalAnalysis

/-! ## 1. Lexemes -/

/-- The exclamation mark, which is half an operator. -/
def exclamation : UInt8 := 0x21

/-- The equals sign, which completes an operator. -/
def equals : UInt8 := 0x3D

/-- A letter, and then letters and digits. -/
def IsWord : List UInt8 → Prop
  | [] => False
  | b :: bs => isLetter b = true ∧ ∀ c ∈ bs, isWordByte c = true

/-- A run of digits. -/
def IsNumber (bytes : List UInt8) : Prop := bytes ≠ [] ∧ ∀ b ∈ bytes, isDigit b = true

namespace Lexeme

/-- Whether the bytes are a lexeme of the kind.  The end of a source has none. -/
def Legal (x : Lexeme) : Prop :=
  match x.kind with
  | .illegal => ∃ b, x.bytes = [b] ∧ (b = exclamation ∨ isAlphabetic b = false)
  | .endOfFile => False
  | .integerLiteral => IsNumber x.bytes
  | .identifier => IsWord x.bytes ∧ ∀ k : Keyword, k.lexeme ≠ x.bytes
  | .keyword k => x.bytes = k.lexeme
  | .operator o => x.bytes = o.lexeme
  | .delimiter d => x.bytes = d.lexeme

/-- The symbols of one byte that an equals sign turns into another symbol. -/
def isExtensible (bytes : List UInt8) : Bool :=
  bytes == ascii ['='] || bytes == ascii ['!'] || bytes == ascii ['<'] || bytes == ascii ['>']

/-- Whether a lexeme goes on in a byte that touches it. -/
def joins (x : Lexeme) (b : UInt8) : Bool :=
  match x.kind with
  | .keyword _ | .identifier => isWordByte b
  | .integerLiteral => isDigit b
  | _ => isExtensible x.bytes && b == equals

end Lexeme

/-! ## 2. Stray bytes -/

/-- Whether a byte is no part of a legal lexeme, given the byte after it. -/
def isStray (b : UInt8) (next? : Option UInt8) : Bool :=
  !isAlphabetic b || (b == exclamation && next? != some equals)

/-- The offsets of the stray bytes, when the first byte has the given one. -/
def straysFrom (offset : Nat) : List UInt8 → List Nat
  | [] => []
  | b :: bs =>
    if isStray b bs.head? then offset :: straysFrom (offset + 1) bs
    else straysFrom (offset + 1) bs

/-- The offsets of the stray bytes of a source. -/
def strays (source : List UInt8) : List Nat := straysFrom 0 source

end LexicalAnalysis
