/-
# Places in a source

A position counts the bytes before a place and names the place as people do, by line and
column, both from 1.  The offset is unbounded; line and column are 32-bit words, and what
moves them wraps around.  A column counts bytes.

Two definitions give the position of a place:

* `overBlank` and `overLexeme` move a position forward piece by piece, as a scanner does;
* `after` reads the position off the text before the place, by counting newlines.

`overBlanks_after` says that they agree on any text of blanks.
-/
import LexicalAnalysis.Alphabet

namespace LexicalAnalysis

/-- A place in a source. -/
structure Position where
  /-- How many bytes are before it. -/
  offset : Nat
  /-- The number of its line, from 1. -/
  line : UInt32
  /-- Its place in the line in bytes, from 1. -/
  column : UInt32
  deriving DecidableEq

namespace Position

/-- Where every source starts. -/
def start : Position := ⟨0, 1, 1⟩

/-! ## 1. Moving forward -/

/-- The position after one blank.  A newline starts the next line; every other blank is one
column wide, the tab too. -/
def overBlank (p : Position) (b : UInt8) : Position :=
  if b == newline then ⟨p.offset + 1, p.line + 1, 1⟩ else ⟨p.offset + 1, p.line, p.column + 1⟩

/-- The position after a gap. -/
def overBlanks (p : Position) (gap : List UInt8) : Position := gap.foldl overBlank p

/-- The position after `n` bytes that do not end a line. -/
def overLexeme (p : Position) (n : Nat) : Position :=
  ⟨p.offset + n, p.line, p.column + UInt32.ofNat n⟩

@[simp] theorem overBlanks_nil (p : Position) : p.overBlanks [] = p := rfl

@[simp] theorem overBlanks_cons (p : Position) (b : UInt8) (gap : List UInt8) :
    p.overBlanks (b :: gap) = (p.overBlank b).overBlanks gap := rfl

theorem overBlanks_append (p : Position) (g h : List UInt8) :
    p.overBlanks (g ++ h) = (p.overBlanks g).overBlanks h := List.foldl_append

@[simp] theorem overBlank_offset (p : Position) (b : UInt8) :
    (p.overBlank b).offset = p.offset + 1 := by
  simp only [overBlank]; split <;> rfl

@[simp] theorem overBlanks_offset (gap : List UInt8) (p : Position) :
    (p.overBlanks gap).offset = p.offset + gap.length := by
  induction gap generalizing p with
  | nil => rfl
  | cons b gap ih => simp only [overBlanks_cons, ih, overBlank_offset, List.length_cons]; omega

@[simp] theorem overLexeme_offset (p : Position) (n : Nat) :
    (p.overLexeme n).offset = p.offset + n := rfl

/-! ## 2. The position after a text -/

/-- The part of a text after its last newline, or all of it if it has none. -/
def lastLine (read : List UInt8) : List UInt8 :=
  (read.reverse.takeWhile fun b => b != newline).reverse

/-- The position reached by reading a text from the start of a source. -/
def after (read : List UInt8) : Position where
  offset := read.length
  line := UInt32.ofNat (1 + read.count newline)
  column := UInt32.ofNat (1 + (lastLine read).length)

theorem after_nil : after [] = start := rfl

@[simp] theorem lastLine_append_newline (read : List UInt8) :
    lastLine (read ++ [newline]) = [] := by
  simp [lastLine]

theorem lastLine_append_singleton {read : List UInt8} {b : UInt8} (hb : b ≠ newline) :
    lastLine (read ++ [b]) = lastLine read ++ [b] := by
  simp [lastLine, hb]

/-- One blank more, read either way. -/
theorem overBlank_after (read : List UInt8) (b : UInt8) :
    (after read).overBlank b = after (read ++ [b]) := by
  by_cases hb : b = newline
  · subst hb
    simp only [overBlank, after, beq_self_eq_true, if_true, List.length_append,
      List.length_singleton, List.count_append, List.count_singleton_self,
      lastLine_append_newline, List.length_nil, Position.mk.injEq, true_and]
    refine ⟨?_, rfl⟩
    rw [← Nat.add_assoc, UInt32.ofNat_add _ 1]
    rfl
  · simp only [overBlank, after, beq_iff_eq, hb, if_false, List.length_append,
      List.length_singleton, List.count_append, List.count_singleton, lastLine_append_singleton hb,
      Nat.add_zero, Position.mk.injEq, true_and]
    rw [← Nat.add_assoc, UInt32.ofNat_add _ 1]
    exact rfl

/-- **Moving over blanks counts them.** -/
theorem overBlanks_after (gap read : List UInt8) :
    (after read).overBlanks gap = after (read ++ gap) := by
  induction gap generalizing read with
  | nil => simp
  | cons b gap ih => rw [overBlanks_cons, overBlank_after, ih, List.append_assoc]; rfl

/-! ## 3. Order and printing -/

/-- Positions are in the order of their offsets, then lines, then columns. -/
instance : Ord Position where
  compare p q :=
    (compare p.offset q.offset).then
      ((compare p.line.toNat q.line.toNat).then (compare p.column.toNat q.column.toNat))

/-- Sorts positions, keeping the order of equal ones. -/
def sort (ps : List Position) : List Position := ps.mergeSort fun p q => (compare p q).isLE

/-- A position in messages: line and column. -/
def display (p : Position) : String := p.line.toNat.repr ++ ":" ++ p.column.toNat.repr

end Position

end LexicalAnalysis
