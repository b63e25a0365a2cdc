/-
# Showing a diagnostic by offsets

A snippet can be put together from offsets: how far into its line the offset of the diagnostic is,
where the line starts, how wide its indentation is and where the dashes start.  Each is a difference
or a sum of others, and two of them cut a text.  Any of these can go wrong, so this computation is
traced.

* `Line.findTraced?`: the line of an offset, and how far into it the offset is;
* `Snippet.unindent`: a text without its indentation, and the width of that;
* `Diagnostic.renderTraced`: the text of a diagnostic, with all that is reached for on the way.
-/
import LexicalAnalysis.Snippet
import LexicalAnalysis.Text.Utf8.Encode
import LexicalAnalysis.Traced

namespace LexicalAnalysis

/-- The line of an offset, and how far into it the offset is. -/
def Line.findTraced? (src : List UInt8) (offset : Nat) : Traced (Option (Line × Nat)) :=
  match find? src offset with
  | none => pure none
  | some line => do
    let place ← Traced.sub offset line.start
    return some (line, place)

namespace Snippet

/-- A text without its indentation, and the width of that: by how many bytes the text is longer.
What is left is the part of the text behind so many bytes. -/
def unindent (text : String) : Traced (List Char × Nat) := do
  let kept := text.toList.dropWhile isIndent
  let width ← Traced.sub (Utf8.encode text).length (Utf8.encode (String.ofList kept)).length
  let _ ← Traced.part (Utf8.encode text) width (Utf8.encode text).length
  return (kept, width)

end Snippet

/-- A diagnostic shown in its source, as it is put together from offsets. -/
def Diagnostic.renderTraced (d : Diagnostic) (src : List UInt8) : Traced String := do
  match ← Line.findTraced? src d.position.offset with
  | none => return d.header
  | some (line, place) =>
    let (kept, width) ← Snippet.unindent line.text
    let start ← Traced.sub d.position.offset place
    let before ← Traced.part src (start + min width place) d.position.offset
    let dashes := (Utf8.decode before).length
    return d.header ++ Snippet.render ⟨line.number, Text.trimEnd kept, dashes⟩

end LexicalAnalysis
