/-
# Lines of a source

A source is cut into lines after each newline, so a newline belongs to the line it ends, and no
line is empty.  `Line.find?` walks the lines, and returns the one that holds an offset.

* `Line.find?_bounds`: the line that is found holds the offset.
-/
import LexicalAnalysis.Alphabet
import LexicalAnalysis.Text.Utf8.Basic

namespace LexicalAnalysis

/-- A text cut after each newline. -/
def splitLines (bytes : List UInt8) : List (List UInt8) := bytes.splitBy fun b _ => b != newline

/-- A line of a source. -/
structure Line where
  /-- Its number, from 1. -/
  number : Nat
  /-- The offset of its first byte. -/
  start : Nat
  /-- All of it, with the newline that ends it if there is one. -/
  bytes : List UInt8
  deriving DecidableEq

namespace Line

/-- The line read as text. -/
def text (line : Line) : String := Utf8.decode line.bytes

/-- How far into the line an offset is. -/
def indexOf (line : Line) (offset : Nat) : Nat := offset - line.start

/-- Looks for the line that holds an offset among the given ones, the first of which has the
given number and start. -/
def findFrom? (offset : Nat) (number start : Nat) : List (List UInt8) → Option Line
  | [] => none
  | bytes :: more =>
    if offset < start + bytes.length then some ⟨number, start, bytes⟩
    else findFrom? offset (number + 1) (start + bytes.length) more

/-- The line of a source that holds an offset, unless the source ends before it. -/
def find? (source : List UInt8) (offset : Nat) : Option Line :=
  findFrom? offset 1 0 (splitLines source)

theorem findFrom?_bounds {lines : List (List UInt8)} {offset number start : Nat} {line : Line}
    (hs : start ≤ offset) (h : findFrom? offset number start lines = some line) :
    line.start ≤ offset ∧ offset < line.start + line.bytes.length := by
  induction lines generalizing number start with
  | nil => cases h
  | cons bytes more ih =>
    simp only [findFrom?] at h
    split at h
    · next hlt => cases h; exact ⟨hs, hlt⟩
    · next hge => exact ih (by omega) h

/-- The line that is found holds the offset. -/
theorem find?_bounds {source : List UInt8} {offset : Nat} {line : Line}
    (h : find? source offset = some line) :
    line.start ≤ offset ∧ offset < line.start + line.bytes.length :=
  findFrom?_bounds (Nat.zero_le _) h

theorem findFrom?_eq_none_iff {lines : List (List UInt8)} {offset number start : Nat}
    (hs : start ≤ offset) :
    findFrom? offset number start lines = none ↔ start + lines.flatten.length ≤ offset := by
  induction lines generalizing number start with
  | nil => simpa [findFrom?] using hs
  | cons bytes more ih =>
    simp only [findFrom?, List.flatten_cons, List.length_append]
    split
    · simp only [reduceCtorEq, false_iff]; omega
    · rw [ih (by omega)]; omega

end Line

end LexicalAnalysis
