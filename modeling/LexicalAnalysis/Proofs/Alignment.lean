/-
# The caret over any line

A diagnostic need not come from the scanner: whatever its position says, it is shown at the offset,
and its caret is to be right there too.  It is right where a character starts.  The line is cut at
its indentation and at the offset, both times between two characters, so that what is shown is the
text of the two parts one behind the other, and the dashes count the characters of the first part.

* `Line.indentWidth`: the bytes that a line is indented with;
* `Snippet.dashes_ofLine`: the dashes, from the bytes of the line alone;
* `Snippet.Aligned`: the caret is under the character that starts at a place of the line;
* `caret_at_character_start`: so it is for every offset at which a character can start, and in the
  indentation it stands in front of all that is shown.
-/
import LexicalAnalysis.Proofs.LineBounds
import LexicalAnalysis.Proofs.Snippet

namespace LexicalAnalysis

/-! ## 1. A line cut twice -/

/-- How many bytes a line is indented by: the spaces and tabs that it starts with. -/
def Line.indentWidth (line : Line) : Nat := (line.bytes.takeWhile Snippet.isIndentByte).length

theorem Line.indent_text (line : Line) : Snippet.indent line.text.toList = line.indentWidth := by
  rw [Line.toList_text, Snippet.indent_chars, Line.indentWidth]

/-- What is behind the indentation, cut at a place. -/
theorem Line.dropWhile_bytes (line : Line) {p : Nat} (h : line.indentWidth ≤ p) :
    line.bytes.dropWhile Snippet.isIndentByte =
      line.bytes.extract line.indentWidth p ++ line.bytes.drop p := by
  have hp : line.indentWidth + (p - line.indentWidth) = p := Nat.add_sub_cancel' h
  calc line.bytes.dropWhile Snippet.isIndentByte
      = line.bytes.drop line.indentWidth := (Lexeme.drop_length_takeWhile _ _).symm
    _ = (line.bytes.drop line.indentWidth).take (p - line.indentWidth) ++
          (line.bytes.drop line.indentWidth).drop (p - line.indentWidth) :=
        (List.take_append_drop _ _).symm
    _ = line.bytes.extract line.indentWidth p ++ line.bytes.drop p := by
        rw [List.drop_drop, hp, List.extract_eq_take_drop]

/-- **A line without its indentation is the text of its two parts**, if no character goes on from
the first one into the second one. -/
theorem Line.dropWhile_text (line : Line) {p : Nat} (h : line.indentWidth ≤ p)
    (hstart : ∀ b, line.bytes[p]? = some b → Utf8.startsCharacter b = true) :
    line.text.toList.dropWhile Snippet.isIndent =
      Utf8.chars (line.bytes.extract line.indentWidth p) ++ Utf8.chars (line.bytes.drop p) := by
  rw [Line.toList_text, Snippet.dropWhile_chars, line.dropWhile_bytes h]
  refine Utf8.chars_append ?_
  intro b hb
  rw [List.head?_drop] at hb
  exact hstart b hb

namespace Snippet

/-! ## 2. The dashes -/

/-- **The dashes stand for the characters from the indentation on**, or from the place on if it is
inside the indentation. -/
theorem dashes_ofLine {src : List UInt8} {offset : Nat} {line : Line}
    (h : Line.find? src offset = some line) :
    (ofLine src offset line).dashes =
      (Utf8.chars (line.bytes.extract (min line.indentWidth (line.indexOf offset))
        (line.indexOf offset))).length := by
  unfold ofLine dashStart
  rw [Line.extract_of_find? h, line.indent_text, Utf8.decode, String.length_ofList,
    List.extract_eq_take_drop, List.drop_take]

/-- **The caret stands under the character that starts at a place of a line.**  The line without its
indentation is the text up to the place and the text from it on; there are as many dashes as
characters in the first; and the character above the caret is the first one of the second, unless
that is white space throughout and is cut off. -/
structure Aligned (s : Snippet) (line : Line) (p : Nat) : Prop where
  text_eq : line.text.toList.dropWhile isIndent =
    Utf8.chars (line.bytes.extract line.indentWidth p) ++ Utf8.chars (line.bytes.drop p)
  dashes_eq : s.dashes = (Utf8.chars (line.bytes.extract line.indentWidth p)).length
  shown_eq : (∃ c ∈ Utf8.chars (line.bytes.drop p), Text.isWhiteSpace c = false) →
    ∃ c more, Utf8.chars (line.bytes.drop p) = c :: more ∧ s.shown[s.dashes]? = some c

/-- **Where a character can start, behind the indentation.** -/
theorem aligned_ofLine {src : List UInt8} {offset : Nat} {line : Line}
    (h : Line.find? src offset = some line) (hindent : line.indentWidth ≤ line.indexOf offset)
    (hstart : ∀ b, line.bytes[line.indexOf offset]? = some b → Utf8.startsCharacter b = true) :
    (ofLine src offset line).Aligned line (line.indexOf offset) := by
  have htext := line.dropWhile_text hindent hstart
  have hdashes := dashes_ofLine h
  rw [Nat.min_eq_left hindent] at hdashes
  refine ⟨htext, hdashes, ?_⟩
  intro hblack
  cases hrest : Utf8.chars (line.bytes.drop (line.indexOf offset)) with
  | nil =>
    obtain ⟨c, hc, -⟩ := hblack
    rw [hrest] at hc
    cases hc
  | cons c more =>
    refine ⟨c, more, rfl, ?_⟩
    rw [hrest] at hblack htext
    rw [hdashes, ofLine, htext]
    exact Text.getElem?_trimEnd hblack

/-- **Inside the indentation** there are no dashes. -/
theorem dashes_eq_zero {src : List UInt8} {offset : Nat} {line : Line}
    (h : Line.find? src offset = some line) (hindent : line.indexOf offset < line.indentWidth) :
    (ofLine src offset line).dashes = 0 := by
  rw [dashes_ofLine h, Nat.min_eq_right (Nat.le_of_lt hindent), List.extract_eq_take_drop,
    Nat.sub_self, List.take_zero]
  rfl

end Snippet

/-! ## 3. Any diagnostic -/

/-- **The caret of any diagnostic is right where a character starts.**  If the offset is in the
source then the line that holds it is shown.  In front of the caret there are no dashes if the
offset is in the indentation; and behind the indentation, if the byte there is none that continues
a character, the caret stands under the character that starts with it. -/
theorem caret_at_character_start (src : List UInt8) (d : Diagnostic)
    (hoffset : d.position.offset < src.length) :
    ∃ line s, Line.find? src d.position.offset = some line ∧
      line.Holds src d.position.offset ∧ d.Shows src s ∧
      (line.indexOf d.position.offset < line.indentWidth → s.dashes = 0) ∧
      (line.indentWidth ≤ line.indexOf d.position.offset →
        (∀ b, line.bytes[line.indexOf d.position.offset]? = some b →
          Utf8.startsCharacter b = true) →
        s.Aligned line (line.indexOf d.position.offset)) := by
  obtain ⟨line, hfind, hholds⟩ := Line.exists_holds hoffset
  refine ⟨line, Snippet.ofLine src d.position.offset line, hfind, hholds,
    Diagnostic.shows_of_find? hfind, ?_, ?_⟩
  · intro hindent
    exact Snippet.dashes_eq_zero hfind hindent
  · intro hindent hstart
    exact Snippet.aligned_ofLine hfind hindent hstart

/-- A mark behind a tab and two bytes of a character of three, in a diagnostic that names another
place; and the same diagnostic set on the tab. -/
theorem caret_at_character_start_broken :
    let src : List UInt8 := [0x0A, 0x09, 0xE2, 0x82, 0x40]
    let line : Line := ⟨2, 1, [0x09, 0xE2, 0x82, 0x40]⟩
    let d : Diagnostic := ⟨.unrecognised "@", ⟨4, 7, 9⟩, "shell"⟩
    let e : Diagnostic := ⟨.unrecognised "@", ⟨1, 7, 9⟩, "shell"⟩
    4 < src.length ∧ 1 < src.length ∧ line.indentWidth = 1 ∧
      (∃ s, d.Shows src s ∧ s.Aligned line 3 ∧ s.dashes = 1 ∧ s.shown[s.dashes]? = some '@') ∧
      ∃ s, e.Shows src s ∧ s.dashes = 0 := by
  obtain ⟨line, s, hline, -, hshows, -, haligned⟩ :=
    caret_at_character_start [0x0A, 0x09, 0xE2, 0x82, 0x40]
      ⟨.unrecognised "@", ⟨4, 7, 9⟩, "shell"⟩ (by decide)
  obtain rfl : line = ⟨2, 1, [0x09, 0xE2, 0x82, 0x40]⟩ := Option.some.inj (hline.symm.trans rfl)
  have hcaret := haligned (by decide) fun b hb => by
    obtain rfl : 0x40 = b := Option.some.inj hb
    decide
  obtain ⟨c, more, hrest, hshown⟩ := hcaret.shown_eq ⟨'@', by decide⟩
  obtain ⟨rfl, -⟩ := List.cons.inj (show ['@'] = c :: more from hrest)
  obtain ⟨line', s', hline', -, hshows', hnone, -⟩ :=
    caret_at_character_start [0x0A, 0x09, 0xE2, 0x82, 0x40]
      ⟨.unrecognised "@", ⟨1, 7, 9⟩, "shell"⟩ (by decide)
  obtain rfl : line' = ⟨2, 1, [0x09, 0xE2, 0x82, 0x40]⟩ :=
    Option.some.inj (hline'.symm.trans rfl)
  exact ⟨by decide, by decide, by decide,
    ⟨s, hshows, hcaret, hcaret.dashes_eq.trans (by decide), hshown⟩, s', hshows',
    hnone (by decide)⟩

end LexicalAnalysis
