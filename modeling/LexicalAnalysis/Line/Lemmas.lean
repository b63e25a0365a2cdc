/-
# Which offsets have a line

* `flatten_splitLines`: the lines of a source are the source, cut into pieces;
* `Line.find?_eq_none_iff`: an offset has a line exactly if it is inside the source.
-/
import LexicalAnalysis.Line.Basic
import Mathlib.Data.List.SplitBy

namespace LexicalAnalysis

theorem flatten_splitLines (bytes : List UInt8) : (splitLines bytes).flatten = bytes :=
  List.flatten_splitBy _ _

namespace Line

theorem toList_text (line : Line) : line.text.toList = Utf8.chars line.bytes :=
  String.toList_ofList

/-- There is a line for every offset inside the source, and for no other. -/
theorem find?_eq_none_iff {source : List UInt8} {offset : Nat} :
    find? source offset = none ↔ source.length ≤ offset := by
  rw [find?, findFrom?_eq_none_iff (Nat.zero_le _), flatten_splitLines, Nat.zero_add]

theorem lt_length_of_find? {source : List UInt8} {offset : Nat} {line : Line}
    (h : find? source offset = some line) : offset < source.length := by
  by_contra hge
  rw [find?_eq_none_iff.mpr (Nat.le_of_not_lt hge)] at h
  cases h

end Line

end LexicalAnalysis
