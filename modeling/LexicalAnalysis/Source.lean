/-
# Sources

A source is what messages name and the scanner reads: a name and some bytes.
-/
import LexicalAnalysis.TokenStream

namespace LexicalAnalysis

/-- A named text. -/
structure Source where
  name : String
  bytes : List UInt8
  deriving DecidableEq

namespace Source

/-- The name of a source that was given none. -/
def defaultName : String := "shell"

/-- The source of some bytes, with a name if there is one. -/
def ofBytes (bytes : List UInt8) (name? : Option String) : Source :=
  ⟨name?.getD defaultName, bytes⟩

/-- The stream of its tokens. -/
def stream (s : Source) : TokenStream := .ofBytes s.bytes

/-- Its tokens. -/
def tokens (s : Source) : List Token := tokenize s.bytes

end Source

end LexicalAnalysis
