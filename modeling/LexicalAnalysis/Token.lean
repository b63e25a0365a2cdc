/-
# Tokens

A token is a lexeme and the place where it was found.
-/
import LexicalAnalysis.Lexeme
import LexicalAnalysis.Position
import LexicalAnalysis.Text.Quoted
import LexicalAnalysis.Text.Utf8.Basic

namespace LexicalAnalysis

/-- A lexeme in its place. -/
structure Token extends Lexeme where
  /-- The place of its first byte. -/
  position : Position
  deriving DecidableEq

namespace Token

/-- The lexeme read as text. -/
def text (t : Token) : String := Utf8.decode t.bytes

def isEndOfFile (t : Token) : Bool := t.kind == .endOfFile

def isIllegal (t : Token) : Bool := t.kind == .illegal

/-- A token in messages: its kind, its quoted text and its place.  The end of the source has no
text to show. -/
def display (t : Token) : String :=
  if t.isEndOfFile then t.kind.name ++ " @ " ++ t.position.display
  else t.kind.name ++ "(" ++ Text.quote t.text ++ ") @ " ++ t.position.display

end Token

end LexicalAnalysis
