/-
# Where the line of an offset starts and ends

The line finder adds up the lengths of lines until it is past the offset.  What it finds can be
said without any walk: the line starts behind the nearest newline in front of the offset and ends
behind the first one from the offset on, and its number counts the newlines in front.  A newline is
the last byte of the line that it ends.

* `lineEnd`: where a line ends, seen from an offset in it;
* `Line.Holds`: the line of an offset, in terms of the source;
* `Line.Holds.unique`: there is only one;
* `line_of_offset`: the line finder finds it, for every offset of the source and for no other.
-/
import LexicalAnalysis.Proofs.Line

namespace LexicalAnalysis

/-! ## 1. Ends of lines -/

/-- Where the line of an offset ends: behind the first newline from the offset on, or with the
source. -/
def lineEnd (src : List UInt8) (offset : Nat) : Nat :=
  match (src.drop offset).idxOf? newline with
  | some k => offset + k + 1
  | none => src.length

theorem length_firstLine (bytes : List UInt8) :
    (firstLine bytes).length =
      match bytes.idxOf? newline with
      | some k => k + 1
      | none => bytes.length := by
  induction bytes with
  | nil => rfl
  | cons b bytes ih =>
    rw [firstLine, List.idxOf?_cons]
    by_cases hb : b = newline
    · simp [hb]
    · rw [if_neg hb, if_neg (by simpa using hb), List.length_cons, ih]
      cases bytes.idxOf? newline <;> rfl

/-- The line of an offset ends where the first line of what is behind the offset does. -/
theorem lineEnd_append (read bytes : List UInt8) :
    lineEnd (read ++ bytes) read.length = read.length + (firstLine bytes).length := by
  unfold lineEnd
  rw [List.drop_left, length_firstLine]
  cases bytes.idxOf? newline with
  | some k => exact Nat.add_assoc _ _ _
  | none => exact List.length_append

theorem lineEnd_of_newline {src : List UInt8} {offset : Nat} (h : src[offset]? = some newline) :
    lineEnd src offset = offset + 1 := by
  obtain ⟨hlt, hget⟩ := List.getElem?_eq_some_iff.mp h
  unfold lineEnd
  rw [List.drop_eq_getElem_cons hlt, hget, List.idxOf?_cons, if_pos (beq_self_eq_true _)]

theorem take_append_extract {i j : Nat} (h : i ≤ j) (src : List UInt8) :
    src.take i ++ src.extract i j = src.take j := by
  rw [List.extract_eq_take_drop, ← List.take_add, Nat.add_sub_cancel' h]

/-! ## 2. The line of an offset -/

namespace Line

/-- **The line that holds an offset.**  It is as far in front of the offset as `indexOf` says,
starts with the source or behind a newline, has no other newline up to the offset, and goes on up
to where it ends.  Its number is one more than the newlines in front of the offset. -/
structure Holds (line : Line) (src : List UInt8) (offset : Nat) : Prop where
  start_add_indexOf : line.start + line.indexOf offset = offset
  at_start : line.start = 0 ∨ src[line.start - 1]? = some newline
  newline_not_mem : newline ∉ src.extract line.start offset
  number_eq : line.number = 1 + (src.take offset).count newline
  bytes_eq : line.bytes = src.extract line.start (lineEnd src offset)

/-- What is between the line's start and the offset is what the source has there. -/
theorem holds_append {front here : List UInt8}
    (hfront : front = [] ∨ ∃ lines, front = lines ++ [newline]) (hhere : newline ∉ here)
    (bytes : List UInt8) :
    Holds ⟨1 + (front ++ here).count newline, front.length, here ++ firstLine bytes⟩
      (front ++ here ++ bytes) (front ++ here).length where
  start_add_indexOf := by
    simp only [indexOf, List.length_append]
    omega
  at_start := by
    rcases hfront with rfl | ⟨lines, rfl⟩
    · exact .inl rfl
    · right
      simp
  newline_not_mem := by
    have hextract : (front ++ here ++ bytes).extract front.length (front ++ here).length =
        here := by
      simp [List.extract_eq_take_drop, List.append_assoc]
    rw [hextract]
    exact hhere
  number_eq := by rw [List.take_left]
  bytes_eq := by
    have hcut : front ++ here ++ bytes =
        front ++ ((here ++ firstLine bytes) ++ laterLines bytes) := by
      rw [List.append_assoc here, firstLine_append_laterLines, List.append_assoc]
    have hlen : (front ++ here).length + (firstLine bytes).length - front.length =
        (here ++ firstLine bytes).length := by
      simp only [List.length_append]
      omega
    rw [lineEnd_append, hcut, List.extract_eq_take_drop, List.drop_left, hlen, List.take_left]

/-- **The line finder finds a line that holds the offset.** -/
theorem exists_holds {src : List UInt8} {offset : Nat} (h : offset < src.length) :
    ∃ line, find? src offset = some line ∧ line.Holds src offset := by
  obtain ⟨front, here, bytes, rfl, rfl, hfront, hhere, hfind⟩ := exists_cut_of_lt h
  exact ⟨_, hfind, holds_append hfront hhere bytes⟩

/-- Of two lines that hold an offset none starts behind the other: it would have to start behind a
newline that is not there. -/
theorem Holds.start_le {src : List UInt8} {offset : Nat} {line line' : Line}
    (h : line.Holds src offset) (h' : line'.Holds src offset) : line'.start ≤ line.start := by
  by_contra hlt
  have hle : line'.start ≤ offset := Nat.le.intro h'.start_add_indexOf
  rcases h'.at_start with hzero | hbyte
  · omega
  · refine h.newline_not_mem ?_
    rw [List.extract_eq_take_drop, List.mem_iff_getElem?]
    refine ⟨line'.start - 1 - line.start, ?_⟩
    rw [List.getElem?_take_of_lt (by omega), List.getElem?_drop]
    have hindex : line.start + (line'.start - 1 - line.start) = line'.start - 1 := by omega
    rw [hindex, hbyte]

/-- **Only one line holds an offset.** -/
theorem Holds.unique {src : List UInt8} {offset : Nat} {line line' : Line}
    (h : line.Holds src offset) (h' : line'.Holds src offset) : line' = line := by
  have hstart : line'.start = line.start := Nat.le_antisymm (h.start_le h') (h'.start_le h)
  have hnumber : line'.number = line.number := h'.number_eq.trans h.number_eq.symm
  have hbytes : line'.bytes = line.bytes := by rw [h'.bytes_eq, h.bytes_eq, hstart]
  obtain ⟨number, start, bytes⟩ := line
  obtain ⟨number', start', bytes'⟩ := line'
  simp only at hstart hnumber hbytes
  rw [hstart, hnumber, hbytes]

theorem holds_of_find? {src : List UInt8} {offset : Nat} {line : Line}
    (h : find? src offset = some line) : line.Holds src offset := by
  obtain ⟨line', hfind, hholds⟩ := exists_holds (lt_length_of_find? h)
  obtain rfl : line' = line := Option.some.inj (hfind.symm.trans h)
  exact hholds

/-- A newline is the last byte of its line. -/
theorem Holds.indexOf_newline {src : List UInt8} {offset : Nat} {line : Line}
    (h : line.Holds src offset) (hn : src[offset]? = some newline) :
    line.indexOf offset + 1 = line.bytes.length := by
  obtain ⟨hlt, -⟩ := List.getElem?_eq_some_iff.mp hn
  have hstart := h.start_add_indexOf
  rw [h.bytes_eq, lineEnd_of_newline hn, List.extract_eq_take_drop, List.length_take,
    List.length_drop]
  omega

/-- Two offsets are in lines of one number if there is no newline from the first one up to the
other. -/
theorem Holds.number_eq_iff {src : List UInt8} {i j : Nat} {line line' : Line} (hij : i ≤ j)
    (h : line.Holds src i) (h' : line'.Holds src j) :
    line.number = line'.number ↔ newline ∉ src.extract i j := by
  rw [h.number_eq, h'.number_eq, ← take_append_extract hij, List.count_append,
    ← List.count_eq_zero]
  omega

end Line

/-- **The line finder undoes the cutting into lines.**  It finds nothing behind the end of a source.
Before that it finds the one line that holds the offset, whose text is read from where the line
starts up to where it ends; and if the byte there is a newline, then it is the last one of the line.
Two offsets are in lines of one number exactly if no newline is between them, the first offset
counted and the second one not. -/
theorem line_of_offset (src : List UInt8) :
    (∀ offset, Line.find? src offset = none ↔ src.length ≤ offset) ∧
      (∀ offset, offset < src.length → ∃ line, Line.find? src offset = some line ∧
        line.Holds src offset ∧ (∀ line' : Line, line'.Holds src offset → line' = line) ∧
        line.text = Utf8.decode (src.extract line.start (lineEnd src offset)) ∧
        (src[offset]? = some newline → line.indexOf offset + 1 = line.bytes.length)) ∧
      ∀ i j line line', i ≤ j → Line.find? src i = some line → Line.find? src j = some line' →
        (line.number = line'.number ↔ newline ∉ src.extract i j) := by
  refine ⟨fun offset => Line.find?_eq_none_iff, ?_, ?_⟩
  · intro offset hlt
    obtain ⟨line, hfind, hholds⟩ := Line.exists_holds hlt
    refine ⟨line, hfind, hholds, fun line' h' => hholds.unique h', ?_, hholds.indexOf_newline⟩
    rw [Line.text, hholds.bytes_eq]
  · intro i j line line' hij hi hj
    exact Line.Holds.number_eq_iff hij (Line.holds_of_find? hi) (Line.holds_of_find? hj)

/-- A newline that is all of its line, the second one. -/
theorem line_of_offset_empty_line :
    let src := ascii ['a', '\n', '\n', '\n', 'b']
    2 < src.length ∧ Line.find? src 2 = some ⟨2, 2, [newline]⟩ ∧
      (⟨2, 2, [newline]⟩ : Line).Holds src 2 ∧
      (1 = 2 ↔ newline ∉ src.extract 1 2) := by
  obtain ⟨-, hholds, hnumber⟩ := line_of_offset (ascii ['a', '\n', '\n', '\n', 'b'])
  obtain ⟨line, hfind, hline, -⟩ := hholds 2 (by decide)
  obtain rfl : line = ⟨2, 2, [newline]⟩ := Option.some.inj (hfind.symm.trans (by rfl))
  exact ⟨by decide, hfind, hline,
    hnumber 1 2 ⟨1, 0, ascii ['a', '\n']⟩ _ (by decide) (by rfl) hfind⟩

end LexicalAnalysis
