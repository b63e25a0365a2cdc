/-
# The line of an offset

The line finder walks the lines of a source, adding up their lengths.  A scanner knows no lines: it
counts newlines.  Both see the same, since what the finder walks over up to an offset is the text in
front of it, and the newlines in that text are where it was cut.

* `splitLines_append`: the lines of a text are the first one and those of what follows it;
* `lines_induction`: so what holds of the first line and of what follows it holds of a text;
* `Line.find?_append`: the line of an offset, read off the text in front of the offset and the text
  behind it;
* `Line.exists_cut_of_lt`, `Line.exists_cut_of_find?`: so an offset cuts its line into a part of the
  first and a part of the second.
-/
import LexicalAnalysis.Line.Lemmas
import LexicalAnalysis.Proofs.Position
import Mathlib.Data.List.TakeWhile

namespace LexicalAnalysis

/-! ## 1. The first line -/

/-- The line that a text starts with, and the newline that ends it if there is one. -/
def firstLine : List UInt8 → List UInt8
  | [] => []
  | b :: bs => if b = newline then [b] else b :: firstLine bs

/-- What follows the first line of a text. -/
def laterLines : List UInt8 → List UInt8
  | [] => []
  | b :: bs => if b = newline then bs else laterLines bs

theorem firstLine_append_laterLines (bytes : List UInt8) :
    firstLine bytes ++ laterLines bytes = bytes := by
  induction bytes with
  | nil => rfl
  | cons b bs ih =>
    simp only [firstLine, laterLines]
    split
    · rfl
    · rw [List.cons_append, ih]

theorem length_firstLine_pos {bytes : List UInt8} (h : bytes ≠ []) :
    0 < (firstLine bytes).length := by
  cases bytes with
  | nil => exact absurd rfl h
  | cons b bs =>
    simp only [firstLine]
    split <;> simp

theorem head?_firstLine (bytes : List UInt8) : (firstLine bytes).head? = bytes.head? := by
  cases bytes with
  | nil => rfl
  | cons b bs =>
    simp only [firstLine]
    split <;> rfl

/-- Only a newline ends a line before the text does. -/
theorem getLast?_firstLine {bytes : List UInt8} (h : laterLines bytes ≠ []) :
    (firstLine bytes).getLast? = some newline := by
  induction bytes with
  | nil => exact absurd rfl h
  | cons b bs ih =>
    simp only [firstLine, laterLines] at h ⊢
    split
    · next hb => simp [hb]
    · next hb =>
      rw [if_neg hb] at h
      rw [List.getLast?_cons, ih h]
      rfl

/-- A newline stands at the end of a line only. -/
theorem isChain_append_firstLine {front : List UInt8} (h : newline ∉ front)
    (bytes : List UInt8) :
    (front ++ firstLine bytes).IsChain fun b _ => (b != newline) = true := by
  induction front with
  | cons b front ih =>
    obtain ⟨hb, hfront⟩ : newline ≠ b ∧ newline ∉ front := by simpa using h
    exact List.isChain_cons.mpr ⟨fun _ _ => by simpa using Ne.symm hb, ih hfront⟩
  | nil =>
    induction bytes with
    | nil => exact List.isChain_nil
    | cons b bs ih =>
      rw [List.nil_append] at ih ⊢
      simp only [firstLine]
      split
      · exact List.isChain_singleton _
      · next hb => exact List.isChain_cons.mpr ⟨fun _ _ => by simpa using hb, ih⟩

/-- **The lines of a text are the first one and those of what follows it.** -/
theorem splitLines_append {front bytes : List UInt8} (hf : newline ∉ front) (hb : bytes ≠ []) :
    splitLines (front ++ bytes) = (front ++ firstLine bytes) :: splitLines (laterLines bytes) := by
  have hne : front ++ firstLine bytes ≠ [] :=
    List.append_ne_nil_of_right_ne_nil _ (List.ne_nil_of_length_pos (length_firstLine_pos hb))
  have hcut : ∀ x ∈ (front ++ firstLine bytes).getLast?, ∀ y ∈ (laterLines bytes).head?,
      (x != newline) = false := by
    intro x hx y hy
    have hlater : laterLines bytes ≠ [] := by
      intro hnil
      rw [hnil] at hy
      cases hy
    rw [List.getLast?_append, getLast?_firstLine hlater] at hx
    obtain rfl : newline = x := by simpa using hx
    simp
  calc splitLines (front ++ bytes)
      = splitLines ((front ++ firstLine bytes) ++ laterLines bytes) := by
        rw [List.append_assoc, firstLine_append_laterLines]
    _ = splitLines (front ++ firstLine bytes) ++ splitLines (laterLines bytes) :=
        List.splitBy_append hcut
    _ = (front ++ firstLine bytes) :: splitLines (laterLines bytes) := by
        rw [splitLines, List.splitBy_of_isChain hne (isChain_append_firstLine hf bytes)]
        rfl

/-- The line in front of the first newline is the first line. -/
theorem splitLines_append_newline_cons {body : List UInt8} (h : newline ∉ body)
    (rest : List UInt8) :
    splitLines (body ++ newline :: rest) = (body ++ [newline]) :: splitLines rest := by
  rw [splitLines_append h (List.cons_ne_nil _ _)]
  simp [firstLine, laterLines]

theorem splitLines_of_not_mem {body : List UInt8} (h : newline ∉ body) (hne : body ≠ []) :
    splitLines body = [body] := by
  have hchain := isChain_append_firstLine h []
  rw [firstLine, List.append_nil] at hchain
  exact List.splitBy_of_isChain hne hchain

/-- **Induction over the lines of a text.**  A text has no newline, or it is a line that a newline
ends and some text behind it. -/
@[elab_as_elim]
theorem lines_induction {motive : List UInt8 → Prop}
    (last : ∀ body, newline ∉ body → motive body)
    (line : ∀ body rest, newline ∉ body → motive rest → motive (body ++ newline :: rest))
    (bytes : List UInt8) : motive bytes := by
  by_cases hn : newline ∈ bytes
  · obtain ⟨body, rest, hbytes, hbody⟩ := List.eq_append_cons_of_mem hn
    have hlt : rest.length < bytes.length := by
      rw [hbytes, List.length_append, List.length_cons]
      omega
    rw [hbytes]
    exact line body rest hbody (lines_induction last line rest)
  · exact last bytes hn
termination_by bytes.length

/-! ## 2. The line that is found -/

namespace Line

theorem findFrom?_splitLines (read : List UInt8) {bytes : List UInt8} (hb : bytes ≠ [])
    (number start : Nat) :
    findFrom? (start + read.length) number start (splitLines (read ++ bytes)) =
      some ⟨number + read.count newline, start + (read.length - (Position.lastLine read).length),
        Position.lastLine read ++ firstLine bytes⟩ := by
  induction read using lines_induction generalizing number start with
  | last read hn =>
    have hpos := length_firstLine_pos hb
    have hhere : start + read.length < start + (read ++ firstLine bytes).length := by
      rw [List.length_append]
      omega
    rw [splitLines_append hn hb, findFrom?, if_pos hhere, List.count_eq_zero.mpr hn,
      Position.lastLine_of_not_mem hn, Nat.sub_self]
    rfl
  | line body rest hbody ih =>
    -- the walk steps over the first line, and the rest of the text is as much shorter
    have hline : splitLines (body ++ newline :: rest ++ bytes) =
        (body ++ [newline]) :: splitLines (rest ++ bytes) := by
      rw [List.append_assoc, List.cons_append, splitLines_append_newline_cons hbody]
    have hover : ¬ start + (body ++ newline :: rest).length <
        start + (body ++ [newline]).length := by
      simp only [List.length_append, List.length_cons, List.length_nil]
      omega
    have hoffset : start + (body ++ newline :: rest).length =
        start + (body ++ [newline]).length + rest.length := by
      simp only [List.length_append, List.length_cons, List.length_nil]
      omega
    have hle := Position.length_lastLine_le rest
    rw [hline, findFrom?, if_neg hover, hoffset, ih,
      Position.lastLine_append_newline_cons, List.count_append, List.count_cons_self,
      List.count_eq_zero.mpr hbody]
    simp only [List.length_append, List.length_cons, List.length_nil, Option.some.injEq,
      Line.mk.injEq, and_true]
    omega

/-- **The line of an offset**, read off the text in front of it and the text behind it. -/
theorem find?_append (read : List UInt8) {bytes : List UInt8} (hb : bytes ≠ []) :
    find? (read ++ bytes) read.length =
      some ⟨1 + read.count newline, read.length - (Position.lastLine read).length,
        Position.lastLine read ++ firstLine bytes⟩ := by
  have h := findFrom?_splitLines read hb 1 0
  rw [Nat.zero_add, Nat.zero_add] at h
  exact h

/-- Every offset inside a source has that line. -/
theorem find?_of_lt {src : List UInt8} {offset : Nat} (h : offset < src.length) :
    find? src offset =
      some ⟨1 + (src.take offset).count newline,
        offset - (Position.lastLine (src.take offset)).length,
        Position.lastLine (src.take offset) ++ firstLine (src.drop offset)⟩ := by
  have hlen : (src.take offset).length = offset := List.length_take_of_le (Nat.le_of_lt h)
  have hne : src.drop offset ≠ [] := by
    intro hnil
    have hle := List.drop_eq_nil_iff.mp hnil
    omega
  have hfind := find?_append (src.take offset) hne
  rwa [List.take_append_drop, hlen] at hfind

/-- **An offset cuts its source in three**: what is in front of its line, the line up to the offset,
and what is behind the offset.  The line is the second part and the first line of the third. -/
theorem exists_cut_of_lt {src : List UInt8} {offset : Nat} (h : offset < src.length) :
    ∃ front here bytes, src = front ++ here ++ bytes ∧ offset = (front ++ here).length ∧
      (front = [] ∨ ∃ lines, front = lines ++ [newline]) ∧ newline ∉ here ∧
      find? src offset =
        some ⟨1 + (front ++ here).count newline, front.length, here ++ firstLine bytes⟩ := by
  obtain ⟨front, hread, hhere, hfront⟩ := Position.exists_eq_append_lastLine (src.take offset)
  have hlen : offset = (front ++ Position.lastLine (src.take offset)).length := by
    rw [← hread, List.length_take_of_le (Nat.le_of_lt h)]
  have hstart : offset - (Position.lastLine (src.take offset)).length = front.length := by
    rw [List.length_append] at hlen
    omega
  refine ⟨front, _, src.drop offset, ?_, hlen, hfront, hhere, ?_⟩
  · rw [← hread, List.take_append_drop]
  · rw [find?_of_lt h, hstart, ← hread]

/-- **The line of an offset is cut in two by it**: what the source has between the start of the line
and the offset, and the line that starts at the offset. -/
theorem exists_cut_of_find? {src : List UInt8} {offset : Nat} {line : Line}
    (h : find? src offset = some line) :
    ∃ before here, src.take offset = before ++ here ∧ line.start = before.length ∧
      line.indexOf offset = here.length ∧ line.bytes = here ++ firstLine (src.drop offset) := by
  obtain ⟨before, here, bytes, rfl, rfl, -, -, hfind⟩ := exists_cut_of_lt (lt_length_of_find? h)
  obtain rfl := Option.some.inj (hfind.symm.trans h)
  refine ⟨before, here, List.take_left, rfl, ?_, ?_⟩
  · rw [indexOf, List.length_append, Nat.add_sub_cancel_left]
  · rw [List.drop_left]

/-- The byte of the line at the offset is that of the source. -/
theorem getElem?_bytes_of_find? {src : List UInt8} {offset : Nat} {line : Line}
    (h : find? src offset = some line) : line.bytes[line.indexOf offset]? = src[offset]? := by
  obtain ⟨before, here, -, -, hindex, hbytes⟩ := exists_cut_of_find? h
  rw [hindex, hbytes, List.getElem?_append_right (Nat.le_refl _), Nat.sub_self,
    ← List.head?_eq_getElem?, head?_firstLine, List.head?_drop]

end Line

end LexicalAnalysis
