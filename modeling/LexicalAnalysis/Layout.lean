/-
# Sources laid out

Writing is the other direction of scanning: lexemes are set one behind the other, each after a
gap of blanks.  A gap may be left out between two lexemes that do not run into each other.

* `Layout.bytes`: the source that a layout writes;
* `Layout.tokens`: the tokens that were put there, each where it was put;
* `Layout.Lawful`: the layouts whose lexemes can be told apart again.
-/
import LexicalAnalysis.Grammar.Basic
import LexicalAnalysis.Token

namespace LexicalAnalysis

/-- A lexeme and the gap before it. -/
structure Piece where
  gap : List UInt8
  lexeme : Lexeme

/-- What a piece writes. -/
def Piece.bytes (p : Piece) : List UInt8 := p.gap ++ p.lexeme.bytes

/-- Whether bytes separate and do nothing else. -/
def IsGap (bytes : List UInt8) : Prop := ∀ b ∈ bytes, isBlank b = true

/-- Lexemes with gaps before, between and after them. -/
structure Layout where
  pieces : List Piece
  /-- The gap after the last lexeme. -/
  tail : List UInt8

namespace Layout

/-- The source that a layout writes. -/
def bytes (l : Layout) : List UInt8 := l.pieces.flatMap Piece.bytes ++ l.tail

/-- The tokens of some pieces that stand behind a text. -/
def tokensAfter (read : List UInt8) : List Piece → List Token
  | [] => []
  | p :: ps => ⟨p.lexeme, .after (read ++ p.gap)⟩ :: tokensAfter (read ++ p.bytes) ps

/-- The tokens that a layout holds, with the end token. -/
def tokens (l : Layout) : List Token :=
  tokensAfter [] l.pieces ++ [⟨⟨.endOfFile, []⟩, .after l.bytes⟩]

/-- Whether the second piece keeps clear of the first. -/
def Clear (p q : Piece) : Prop :=
  q.gap = [] → ∀ b, q.lexeme.bytes.head? = some b → p.lexeme.joins b = false

/-- Whether every piece keeps clear of the one before it. -/
def AllClear : List Piece → Prop
  | p :: q :: ps => Clear p q ∧ AllClear (q :: ps)
  | _ => True

/-- Whether the gaps are blank, the lexemes are lexemes of their kinds, and none runs into the
next. -/
structure Lawful (l : Layout) : Prop where
  gap_blank : ∀ p ∈ l.pieces, IsGap p.gap
  lexeme_legal : ∀ p ∈ l.pieces, p.lexeme.Legal
  tail_blank : IsGap l.tail
  all_clear : AllClear l.pieces

end Layout

end LexicalAnalysis
