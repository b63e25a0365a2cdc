/-
# A diagnostic keeps to its source

What is shown of a source is found with offsets alone: that of the diagnostic, which may be any
number, that of the line, and the width of the indentation, which is measured in the text of the
line and then used as a distance in its bytes.  None of them leads out of the source, or out of the
line, since the indentation is written with the bytes that it was read from, and is not followed
past the offset.

* `Snippet.exists_encode_eq`: a text is written as its indentation and then what is left without it;
* `Line.Measured`: the offsets that a diagnostic is shown with, in order;
* `rendering_in_range`: showing it is safe, and reaches for nothing if the offset has no line.
-/
import LexicalAnalysis.Excerpt
import LexicalAnalysis.Proofs.Alignment

namespace LexicalAnalysis

/-! ## 1. The width of an indentation -/

namespace Snippet

/-- Indentation is written with one byte for each character. -/
theorem length_flatMap_of_isIndent {cs : List Char} (h : ∀ c ∈ cs, isIndent c = true) :
    (cs.flatMap String.utf8EncodeChar).length = cs.length := by
  induction cs with
  | nil => rfl
  | cons c cs ih =>
    obtain ⟨hc, hcs⟩ := List.forall_mem_cons.mp h
    have hone : (String.utf8EncodeChar c).length = 1 := by
      have hchar : c = ' ' ∨ c = '\t' := by simpa [isIndent] using hc
      rcases hchar with rfl | rfl <;> rfl
    rw [List.flatMap_cons, List.length_append, hone, ih hcs, List.length_cons, Nat.add_comm]

/-- **A text is written as its indentation and then what is left without it**, and the indentation
is as long in bytes as it is in characters. -/
theorem exists_encode_eq (text : String) :
    ∃ front, front.length = indent text.toList ∧ Utf8.encode text =
      front ++ Utf8.encode (String.ofList (text.toList.dropWhile isIndent)) := by
  refine ⟨(text.toList.takeWhile isIndent).flatMap String.utf8EncodeChar, ?_, ?_⟩
  · exact length_flatMap_of_isIndent (List.all_eq_true.mp List.all_takeWhile)
  · rw [Utf8.encode_ofList, ← List.flatMap_append, List.takeWhile_append_dropWhile,
      ← Utf8.encode_ofList, String.ofList_toList]

/-- So the width that is measured in a text counts the characters that it is indented by. -/
theorem length_encode_sub (text : String) :
    (Utf8.encode text).length -
        (Utf8.encode (String.ofList (text.toList.dropWhile isIndent))).length =
      indent text.toList := by
  obtain ⟨front, hfront, htext⟩ := exists_encode_eq text
  rw [htext, List.length_append, hfront, Nat.add_sub_cancel]

end Snippet

/-! ## 2. The offsets of a line -/

/-- **The offsets that a line is shown with.**  The indentation is as wide in the text of the line
as it is in its bytes, and the text behind it starts with a character of its own.  The offset less
its index is where the line starts; the dashes start from there on and not behind the offset, which
is in the source; and what they stand for is in the line, with no newline in it. -/
structure Line.Measured (line : Line) (src : List UInt8) (offset : Nat) : Prop where
  width_eq : (Utf8.encode line.text).length -
      (Utf8.encode (String.ofList (line.text.toList.dropWhile Snippet.isIndent))).length =
    line.indentWidth
  kept_eq : (Utf8.encode line.text).extract line.indentWidth (Utf8.encode line.text).length =
    Utf8.encode (String.ofList (line.text.toList.dropWhile Snippet.isIndent))
  indexOf_le : line.indexOf offset ≤ offset
  sub_indexOf : offset - line.indexOf offset = line.start
  start_le : line.start ≤ Snippet.dashStart line offset
  dashStart_le : Snippet.dashStart line offset ≤ offset
  offset_lt : offset < line.start + line.bytes.length
  le_length : line.start + line.bytes.length ≤ src.length
  newline_not_mem : newline ∉ src.extract (Snippet.dashStart line offset) offset

theorem Line.measured_of_find? {src : List UInt8} {offset : Nat} {line : Line}
    (h : find? src offset = some line) : line.Measured src offset := by
  have hholds := holds_of_find? h
  have hstart := hholds.start_add_indexOf
  obtain ⟨-, hlt⟩ := find?_bounds h
  have hle := lt_length_of_find? h
  obtain ⟨front, hfront, htext⟩ := Snippet.exists_encode_eq line.text
  rw [line.indent_text] at hfront
  have hstop : Snippet.dashStart line offset ≤ offset := by
    unfold Snippet.dashStart
    omega
  have hbegin : line.start ≤ Snippet.dashStart line offset := Nat.le_add_right _ _
  refine ⟨?_, ?_, Nat.sub_le _ _, by omega, hbegin, hstop, hlt, ?_, ?_⟩
  · rw [Snippet.length_encode_sub, line.indent_text]
  · rw [List.extract_eq_take_drop, ← List.length_drop, List.take_length, htext, ← hfront,
      List.drop_left]
  · have hlen := congrArg List.length hholds.bytes_eq
    rw [List.extract_eq_take_drop, List.length_take, List.length_drop] at hlen
    omega
  · -- the dashes stand for the end of what the line has in front of the offset
    have hend : src.extract (Snippet.dashStart line offset) offset =
        (src.extract line.start offset).drop (Snippet.dashStart line offset - line.start) := by
      rw [List.extract_eq_take_drop, List.extract_eq_take_drop, List.drop_take, List.drop_drop,
        Nat.add_sub_cancel' hbegin, Nat.sub_sub, Nat.add_sub_cancel' hbegin]
    rw [hend]
    exact fun hmem => hholds.newline_not_mem (List.mem_of_mem_drop hmem)

/-! ## 3. What is reached for -/

namespace Snippet

theorem dashStart_eq (line : Line) (offset : Nat) :
    dashStart line offset = line.start + min line.indentWidth (line.indexOf offset) := by
  rw [dashStart, line.indent_text]

/-- What is reached for to show a line: three differences, the part of its text behind the
indentation, and the part of the source that the dashes stand for. -/
def reaches (src : List UInt8) (offset : Nat) (line : Line) : List Access :=
  let text := Utf8.encode line.text
  let kept := Utf8.encode (String.ofList (line.text.toList.dropWhile isIndent))
  [.difference offset line.start, .difference text.length kept.length,
    .part text.length line.indentWidth text.length, .difference offset (line.indexOf offset),
    .part src.length (dashStart line offset) offset]

/-- **All of it is there.** -/
theorem inRange_of_mem_reaches {src : List UInt8} {offset : Nat} {line : Line}
    (h : Line.find? src offset = some line) : ∀ a ∈ reaches src offset line, a.InRange := by
  have hm := Line.measured_of_find? h
  obtain ⟨hle, -⟩ := Line.find?_bounds h
  obtain ⟨front, hfront, htext⟩ := exists_encode_eq line.text
  rw [line.indent_text] at hfront
  have hlen := congrArg List.length htext
  rw [List.length_append] at hlen
  intro a ha
  simp only [reaches, List.mem_cons, List.not_mem_nil, or_false] at ha
  rcases ha with rfl | rfl | rfl | rfl | rfl
  · exact hle
  · exact Nat.le.intro ((Nat.add_comm _ _).trans hlen.symm)
  · exact ⟨by omega, Nat.le_refl _⟩
  · exact hm.indexOf_le
  · exact ⟨hm.dashStart_le, Nat.le_of_lt (Line.lt_length_of_find? h)⟩

end Snippet

namespace Diagnostic

variable {d : Diagnostic} {src : List UInt8}

/-- **A line is shown by its offsets as it is without them**, and this is all that is reached
for. -/
theorem renderTraced_of_find? {line : Line} (h : Line.find? src d.position.offset = some line) :
    (d.renderTraced src).value = d.render src ∧
      (d.renderTraced src).accesses = Snippet.reaches src d.position.offset line := by
  have hm := Line.measured_of_find? h
  have hindex : d.position.offset - line.start = line.indexOf d.position.offset := rfl
  unfold renderTraced Line.findTraced? Snippet.unindent Traced.sub Traced.part
  simp only [h, Traced.bind_value, Traced.pure_value, Traced.once_value, Traced.bind_accesses,
    Traced.once_accesses, Traced.pure_accesses, List.append_nil, List.cons_append, List.nil_append,
    hindex, hm.width_eq, hm.sub_indexOf, ← Snippet.dashStart_eq]
  constructor
  · rw [render, Snippet.at?_of_find? h]
    rfl
  · rfl

/-- Behind the source there is nothing to reach for. -/
theorem renderTraced_of_le (h : src.length ≤ d.position.offset) :
    d.renderTraced src = ⟨d.header, []⟩ := by
  unfold renderTraced Line.findTraced?
  rw [Line.find?_eq_none_iff.mpr h]
  rfl

end Diagnostic

/-! ## 4. Any diagnostic -/

/-- **Showing a diagnostic never leaves its source**, whatever its position says.  Done step by
step it gives the same text, with every difference and every part in range.  If the offset is in the
source then these are the offsets of the line that holds it; if not, the header stands alone, and
nothing is reached for. -/
theorem rendering_in_range (src : List UInt8) (d : Diagnostic) :
    (d.renderTraced src).value = d.render src ∧
      (∀ a ∈ (d.renderTraced src).accesses, a.InRange) ∧
      (d.position.offset < src.length → ∃ line, Line.find? src d.position.offset = some line ∧
        line.Holds src d.position.offset ∧ line.Measured src d.position.offset ∧
        (d.renderTraced src).accesses = Snippet.reaches src d.position.offset line) ∧
      (src.length ≤ d.position.offset →
        d.render src = d.header ∧ (d.renderTraced src).accesses = []) := by
  rcases Nat.lt_or_ge d.position.offset src.length with hlt | hge
  · obtain ⟨line, hfind, hholds⟩ := Line.exists_holds hlt
    obtain ⟨hvalue, haccesses⟩ := Diagnostic.renderTraced_of_find? hfind
    refine ⟨hvalue, ?_, ?_, ?_⟩
    · rw [haccesses]
      exact Snippet.inRange_of_mem_reaches hfind
    · intro _
      exact ⟨line, hfind, hholds, Line.measured_of_find? hfind, haccesses⟩
    · intro hge
      exact absurd hlt (Nat.not_lt.mpr hge)
  · have hheader : d.render src = d.header := by
      rw [Diagnostic.render, Snippet.at?_eq_none hge]
    rw [Diagnostic.renderTraced_of_le hge]
    refine ⟨hheader.symm, ?_, ?_, ?_⟩
    · intro a ha
      cases ha
    · intro hlt
      exact absurd hlt (Nat.not_lt.mpr hge)
    · intro _
      exact ⟨hheader, rfl⟩

/-- An offset in a character that breaks off, behind a tab: the text of the line is longer than its
bytes, and the indentation is not.  And the last offset of 64 bits. -/
theorem rendering_in_range_broken :
    let src : List UInt8 := [0x0A, 0x09, 0xE2, 0x82, 0x40]
    let d (offset : Nat) : Diagnostic := ⟨.unrecognised "@", ⟨offset, 7, 9⟩, "shell"⟩
    3 < src.length ∧ src.length ≤ 0xFFFFFFFFFFFFFFFF ∧
      ((d 3).renderTraced src).accesses =
        [.difference 3 1, .difference 5 4, .part 5 1 5, .difference 3 2, .part 5 2 3] ∧
      ((d 0xFFFFFFFFFFFFFFFF).renderTraced src).accesses = [] := by
  intro src d
  obtain ⟨-, -, hinside, -⟩ := rendering_in_range src (d 3)
  obtain ⟨-, -, -, hbehind⟩ := rendering_in_range src (d 0xFFFFFFFFFFFFFFFF)
  obtain ⟨line, hline, -, -, haccesses⟩ := hinside (by decide)
  obtain rfl : line = ⟨2, 1, [0x09, 0xE2, 0x82, 0x40]⟩ :=
    Option.some.inj (hline.symm.trans (by rfl))
  exact ⟨by decide, by decide, haccesses.trans (by decide +kernel), (hbehind (by decide)).2⟩

end LexicalAnalysis
