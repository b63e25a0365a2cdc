/-
# A diagnostic shown in its source

Under its header a diagnostic shows the line that it is about, cut at both ends, and below the
line a caret.  The dashes before the caret count characters, and where a character starts at the
offset the caret stands under it, also if some in front take several bytes.

    Error: UnrecognisedToken (unexpected character '#' at line 7, column 9)
    -> shell
      |
    7 | x = # + 1;
      | ----^

* `Snippet.ofLine`: what is shown for an offset in a line;
* `Snippet.at?`: the same for an offset in a source.  There is none for an offset past its end,
  and then the header stands alone;
* `Diagnostic.render`: all of it as text;
* `Diagnostic.print?`: the text as it is printed.  The row of the caret is set in a field, and no
  field is wider than `widestField`.
-/
import LexicalAnalysis.Diagnostic
import LexicalAnalysis.Line.Basic
import LexicalAnalysis.Text.WhiteSpace

namespace LexicalAnalysis

/-- The widest field that a text can be set in. -/
def widestField : Nat := 0xFFFF

/-- A line and a place in it, as they are shown. -/
structure Snippet where
  /-- The number of the line. -/
  number : Nat
  /-- The line without the blanks around it. -/
  shown : List Char
  /-- How many characters stand before the place. -/
  dashes : Nat

namespace Snippet

/-- What a line is indented with. -/
def isIndent (c : Char) : Bool := c == ' ' || c == '\t'

/-- How many characters a text is indented by. -/
def indent (cs : List Char) : Nat := (cs.takeWhile isIndent).length

/-- Where the dashes start: after the indentation, or at the place itself if it is inside the
indentation. -/
def dashStart (line : Line) (offset : Nat) : Nat :=
  line.start + min (indent line.text.toList) (line.indexOf offset)

/-- What is shown for an offset of a source, given its line. -/
def ofLine (source : List UInt8) (offset : Nat) (line : Line) : Snippet where
  number := line.number
  shown := Text.trimEnd (line.text.toList.dropWhile isIndent)
  dashes := (Utf8.decode (source.extract (dashStart line offset) offset)).length

/-- What is shown for an offset of a source. -/
def at? (source : List UInt8) (offset : Nat) : Option Snippet :=
  (Line.find? source offset).map (ofLine source offset)

/-- The bar before a row that has no number, set under the one that has. -/
def gutter (s : Snippet) : List Char := List.replicate (s.number.repr.length + 1) ' ' ++ ['|']

/-- How wide the field of the dashes and the caret is. -/
def caretWidth (s : Snippet) : Nat := s.dashes + 1

/-- The three rows of a snippet.  The last one is not ended. -/
def render (s : Snippet) : String :=
  String.ofList
    (s.gutter ++ ['\n'] ++
      (s.number.repr.toList ++ [' ', '|', ' '] ++ s.shown ++ ['\n']) ++
      (s.gutter ++ [' '] ++ List.replicate s.dashes '-' ++ ['^']))

end Snippet

namespace Diagnostic

/-- What a diagnostic says before the snippet. -/
def header (d : Diagnostic) : String :=
  "Error: " ++ d.cause.name ++ " (" ++ d.tip ++ ")\n-> " ++ d.file ++ "\n"

/-- The text of a diagnostic shown in its source, however wide that is. -/
def render (d : Diagnostic) (source : List UInt8) : String :=
  match Snippet.at? source d.position.offset with
  | none => d.header
  | some s => d.header ++ s.render

/-- A diagnostic printed in its source.  If the caret needs a wider field than there is, nothing is
printed at all.  The field of the bar only grows with the digits of a line number. -/
def print? (d : Diagnostic) (source : List UInt8) : Option String :=
  match Snippet.at? source d.position.offset with
  | none => some d.header
  | some s => if s.caretWidth ≤ widestField then some (d.header ++ s.render) else none

end Diagnostic

end LexicalAnalysis
