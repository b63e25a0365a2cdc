/-
# Positions over whole lexemes

`Position.overBlanks_after` settles the gaps of a source.  Here are the lexemes: a text with no
newline moves the column by its length and leaves the line alone, so that moving over it in one
step is the same as counting it.

* `Position.lastLine_append`, `Position.lastLine_append_of_mem`: the last line of two texts is that
  of the second one, behind that of the first if it ends no line;
* `Position.overLexeme_after`: moving over a lexeme counts it;
* `Fits`: the sources whose lines and columns are what is counted, for any place;
* `Position.line_lt_or_column_eq`: in these a later place is further down or to the right.
-/
import LexicalAnalysis.Position
import Mathlib.Data.List.Induction
import Mathlib.Data.List.TakeWhile

namespace LexicalAnalysis

/-- What ends a run of elements hides all that comes after it. -/
theorem takeWhile_append_cons {α : Type} {p : α → Bool} {x : α} (h : p x = false)
    (front back : List α) : (front ++ x :: back).takeWhile p = front.takeWhile p := by
  rw [List.takeWhile_append, List.takeWhile_cons_of_neg (by simp [h]), List.append_nil]
  split
  · next hlen => rw [(List.takeWhile_prefix p).eq_of_length hlen]
  · rfl

namespace Position

/-! ## 1. Last lines -/

theorem lastLine_of_not_mem {read : List UInt8} (h : newline ∉ read) :
    lastLine read = read := by
  have hall : ∀ b ∈ read.reverse, (b != newline) = true := by
    intro b hb
    have hne : b ≠ newline := fun e => h (e ▸ List.mem_reverse.mp hb)
    simpa using hne
  rw [lastLine, List.takeWhile_eq_self_iff.mpr hall, List.reverse_reverse]

theorem lastLine_append_newline_cons (front more : List UInt8) :
    lastLine (front ++ newline :: more) = lastLine more := by
  have hsplit : (front ++ newline :: more).reverse =
      more.reverse ++ newline :: front.reverse := by simp
  rw [lastLine, lastLine, hsplit, takeWhile_append_cons (by simp)]

theorem lastLine_append_of_mem {read bytes : List UInt8} (h : newline ∈ bytes) :
    lastLine (read ++ bytes) = lastLine bytes := by
  obtain ⟨front, more, rfl, -⟩ := List.eq_append_cons_of_mem h
  rw [← List.append_assoc, lastLine_append_newline_cons, lastLine_append_newline_cons]

theorem lastLine_append {read bytes : List UInt8} (h : newline ∉ bytes) :
    lastLine (read ++ bytes) = lastLine read ++ bytes := by
  induction bytes generalizing read with
  | nil => simp
  | cons b bs ih =>
    obtain ⟨hb, hbs⟩ : newline ≠ b ∧ newline ∉ bs := by simpa using h
    have hcons : ∀ pre : List UInt8, pre ++ b :: bs = pre ++ [b] ++ bs := fun pre => by simp
    rw [hcons, ih hbs, lastLine_append_singleton (Ne.symm hb), hcons]

/-- The last line of a text is what follows its last newline, and all of it if it has none. -/
theorem exists_eq_append_lastLine (read : List UInt8) :
    ∃ front, read = front ++ lastLine read ∧ newline ∉ lastLine read ∧
      (front = [] ∨ ∃ lines, front = lines ++ [newline]) := by
  induction read using List.reverseRecOn with
  | nil => exact ⟨[], rfl, by simp [lastLine], .inl rfl⟩
  | append_singleton read b ih =>
    by_cases hb : b = newline
    · subst hb
      exact ⟨read ++ [newline], by simp, by simp, .inr ⟨read, rfl⟩⟩
    · obtain ⟨front, hread, hnot, hfront⟩ := ih
      refine ⟨front, ?_, ?_, hfront⟩
      · rw [lastLine_append_singleton hb, ← List.append_assoc, ← hread]
      · rw [lastLine_append_singleton hb]
        simp [hnot, Ne.symm hb]

theorem length_lastLine_le (read : List UInt8) : (lastLine read).length ≤ read.length := by
  have h := (List.takeWhile_sublist (l := read.reverse) fun b => b != newline).length_le
  simpa [lastLine] using h

/-! ## 2. Over a lexeme -/

@[simp] theorem overLexeme_zero (p : Position) : p.overLexeme 0 = p := by
  obtain ⟨offset, line, column⟩ := p
  simp [overLexeme]

/-- **Moving over a text that ends no line counts it.** -/
theorem overLexeme_after {read bytes : List UInt8} (h : newline ∉ bytes) :
    (after read).overLexeme bytes.length = after (read ++ bytes) := by
  have hcount : bytes.count newline = 0 := List.count_eq_zero.mpr h
  simp only [overLexeme, after, List.length_append, List.count_append, hcount, Nat.add_zero,
    lastLine_append h, Position.mk.injEq, true_and]
  rw [← Nat.add_assoc, UInt32.ofNat_add (1 + _)]

@[simp] theorem after_offset (read : List UInt8) : (after read).offset = read.length := rfl

end Position

/-! ## 3. Words that are large enough

Line and column are words, so they are what `after` counts only as long as a word holds it. -/

/-- A source of at most `2 ^ 32 - 2` bytes.  Words can count the columns and lines of all of its
places. -/
def Fits (src : List UInt8) : Prop := src.length + 2 ≤ UInt32.size

instance decidableFits (src : List UInt8) : Decidable (Fits src) :=
  inferInstanceAs (Decidable (src.length + 2 ≤ UInt32.size))

/-- A part of a source that fits does so too. -/
theorem Fits.of_length_le {read src : List UInt8} (h : Fits src) (hle : read.length ≤ src.length) :
    Fits read :=
  Nat.le_trans (Nat.add_le_add_right hle 2) h

namespace Position

theorem after_line_toNat {read : List UInt8} (h : Fits read) :
    (after read).line.toNat = 1 + read.count newline := by
  have hle : read.count newline ≤ read.length := List.count_le_length
  simp only [Fits] at h
  exact UInt32.toNat_ofNat_of_lt' (by omega)

theorem after_column_toNat {read : List UInt8} (h : Fits read) :
    (after read).column.toNat = 1 + (lastLine read).length := by
  have hle := length_lastLine_le read
  simp only [Fits] at h
  exact UInt32.toNat_ofNat_of_lt' (by omega)

/-- **Reading on goes down a line or to the right**, and there by as much as is read. -/
theorem line_lt_or_column_eq {read bytes : List UInt8} (h : Fits (read ++ bytes)) :
    (after read).line < (after (read ++ bytes)).line ∨
      (after read).line = (after (read ++ bytes)).line ∧
        (after (read ++ bytes)).column.toNat = (after read).column.toNat + bytes.length := by
  have hread : Fits read := h.of_length_le (List.prefix_append read bytes).length_le
  by_cases hn : newline ∈ bytes
  · left
    have hpos : 0 < bytes.count newline := List.count_pos_iff.mpr hn
    rw [UInt32.lt_iff_toNat_lt, after_line_toNat hread, after_line_toNat h, List.count_append]
    omega
  · right
    constructor
    · rw [← UInt32.toNat_inj, after_line_toNat hread, after_line_toNat h, List.count_append,
        List.count_eq_zero.mpr hn, Nat.add_zero]
    · rw [after_column_toNat hread, after_column_toNat h, lastLine_append hn, List.length_append,
        Nat.add_assoc]

end Position

end LexicalAnalysis
