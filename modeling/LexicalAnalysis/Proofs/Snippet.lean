/-
# What is shown at an offset

An offset cuts its source in two, and its snippet can be read off the two parts: the number counts
the newlines in front, the line is the last line in front and the first one behind, and the dashes
stand for what that last line holds behind its indentation.  What is behind the offset has no say
in the dashes.

* `Snippet.indent_chars`, `Snippet.dropWhile_chars`: the indentation of a text is that of its bytes,
  and so is what follows it;
* `Snippet.at?_append`: the snippet of an offset, read off the text on both sides of it;
* `Snippet.render_injective`: what is printed tells which snippet it is.
-/
import LexicalAnalysis.Proofs.Caret
import LexicalAnalysis.Text.Delimited

namespace LexicalAnalysis

/-! ## 1. Indentation, in bytes -/

namespace Snippet

/-- The bytes that a line is indented with. -/
def isIndentByte (b : UInt8) : Bool := b == 0x20 || b == 0x09

theorem isIndent_of_isIndentByte {b : UInt8} (h : isIndentByte b = true) :
    b < 0x80 ∧ isIndent (Char.ofNat b.toNat) = true := by
  have hb : b = 0x20 ∨ b = 0x09 := by simpa [isIndentByte] using h
  rcases hb with rfl | rfl <;> decide

/-- A text that starts with another byte starts with no indentation. -/
theorem isIndent_eq_false_of_chars {b : UInt8} {bytes : List UInt8} (hb : isIndentByte b = false)
    {c : Char} (hc : (Utf8.chars (b :: bytes)).head? = some c) : isIndent c = false := by
  obtain ⟨s, segs, hsegs, rfl⟩ : ∃ s segs, Utf8.segments (b :: bytes) = s :: segs ∧ s.char = c := by
    rw [Utf8.chars, List.head?_map, Option.map_eq_some_iff] at hc
    obtain ⟨s, hs, hchar⟩ := hc
    obtain ⟨segs, hsegs⟩ := List.head?_eq_some_iff.mp hs
    exact ⟨s, segs, hsegs, hchar⟩
  by_contra hs
  rw [Bool.not_eq_false] at hs
  have hbytes := Utf8.joined_segments (b :: bytes)
  have hmem : s ∈ Utf8.segments (b :: bytes) := by simp [hsegs]
  rw [hsegs, Utf8.joined_cons] at hbytes
  rcases bytes_of_isIndent hmem hs with hone | hone <;>
    · rw [hone] at hbytes
      rw [← (List.cons.inj hbytes).1] at hb
      exact absurd hb (by decide)

/-- **The indentation of a text is that of its bytes**, and so is what follows it. -/
theorem takeWhile_dropWhile_chars (bytes : List UInt8) :
    ((Utf8.chars bytes).takeWhile isIndent).length = (bytes.takeWhile isIndentByte).length ∧
      (Utf8.chars bytes).dropWhile isIndent = Utf8.chars (bytes.dropWhile isIndentByte) := by
  induction bytes with
  | nil => exact ⟨rfl, rfl⟩
  | cons b bytes ih =>
    cases hb : isIndentByte b with
    | true =>
      obtain ⟨hlt, hc⟩ := isIndent_of_isIndentByte hb
      rw [Utf8.chars_cons_of_lt hlt, List.takeWhile_cons_of_pos hc, List.dropWhile_cons_of_pos hc,
        List.takeWhile_cons_of_pos hb, List.dropWhile_cons_of_pos hb, List.length_cons,
        List.length_cons, ih.1]
      exact ⟨rfl, ih.2⟩
    | false =>
      rw [List.takeWhile_cons_of_neg (by simp [hb]), List.dropWhile_cons_of_neg (by simp [hb])]
      have hhead : ∀ c, (Utf8.chars (b :: bytes)).head? = some c → isIndent c = false :=
        fun c => isIndent_eq_false_of_chars hb
      cases hchars : Utf8.chars (b :: bytes) with
      | nil => exact ⟨rfl, rfl⟩
      | cons c cs =>
        have hc : isIndent c = false := hhead c (by rw [hchars]; rfl)
        simp [hc]

theorem indent_chars (bytes : List UInt8) :
    indent (Utf8.chars bytes) = (bytes.takeWhile isIndentByte).length :=
  (takeWhile_dropWhile_chars bytes).1

theorem dropWhile_chars (bytes : List UInt8) :
    (Utf8.chars bytes).dropWhile isIndent = Utf8.chars (bytes.dropWhile isIndentByte) :=
  (takeWhile_dropWhile_chars bytes).2

/-! ## 2. The snippet of an offset -/

theorem drop_min_length_takeWhile (p : UInt8 → Bool) (front back : List UInt8) :
    front.drop (min ((front ++ back).takeWhile p).length front.length) = front.dropWhile p := by
  have hle := (List.takeWhile_prefix p (l := front)).length_le
  rw [List.takeWhile_append]
  split
  · next hall =>
    rw [List.length_append, Nat.min_eq_right (Nat.le_add_right _ _),
      ← Lexeme.drop_length_takeWhile p front, hall]
  · rw [Nat.min_eq_left hle, Lexeme.drop_length_takeWhile]

/-- **The snippet of an offset, read off the text in front of it and the text behind it.** -/
theorem at?_append (read : List UInt8) {bytes : List UInt8} (hb : bytes ≠ []) :
    at? (read ++ bytes) read.length =
      some ⟨1 + read.count newline,
        Text.trimEnd
          ((Utf8.chars (Position.lastLine read ++ firstLine bytes)).dropWhile isIndent),
        (Utf8.chars ((Position.lastLine read).dropWhile isIndentByte)).length⟩ := by
  have hle := Position.length_lastLine_le read
  have hline := Line.find?_append read hb
  have hindex : read.length - (read.length - (Position.lastLine read).length) =
      (Position.lastLine read).length := by omega
  rw [at?_of_find? hline, ofLine, dashStart, Line.extract_of_find? hline, Line.toList_text,
    indent_chars, Line.indexOf, hindex, List.take_left, drop_min_length_takeWhile, Utf8.decode,
    String.length_ofList]

/-- There is none behind the source. -/
theorem at?_eq_none {src : List UInt8} {offset : Nat} (h : src.length ≤ offset) :
    at? src offset = none := by
  rw [at?, Line.find?_eq_none_iff.mpr h, Option.map_none]

/-! ## 3. Reading a snippet -/

theorem toList_render (s : Snippet) :
    s.render.toList =
      List.replicate (s.number.repr.length + 1) ' ' ++ '|' :: ('\n' :: (s.number.repr.toList ++
        ' ' :: ('|' :: ' ' :: (s.shown ++ ('\n' :: (s.gutter ++
          (' ' :: (List.replicate s.dashes '-' ++ ['^'])))))))) := by
  simp [render, gutter]

/-- **What is printed tells which snippet it is.**  From the front, the number stands between the
bar's spaces and a space; from the end, the dashes stand between the caret and a space. -/
theorem render_injective {s t : Snippet} (h : s.render = t.render) : s = t := by
  have hchars := congrArg String.toList h
  rw [toList_render, toList_render] at hchars
  have hspaces : ∀ n : Nat, ∀ c ∈ List.replicate n ' ', (c == ' ') = true := by
    intro n c hc
    simp [List.eq_of_mem_replicate hc]
  obtain ⟨-, -, hrows⟩ := Text.append_cons_inj (hspaces _) (hspaces _) (by decide) (by decide)
    hchars
  obtain ⟨hnumber, -, hrest⟩ :=
    Text.repr_append_cons_inj (by decide) (by decide) (List.cons.inj hrows).2
  have hshown := (List.cons.inj (List.cons.inj hrest).2).2
  have hgutter : s.gutter = t.gutter := by rw [gutter, gutter, hnumber]
  have hends := congrArg List.reverse hshown
  simp only [hgutter, List.reverse_append, List.reverse_cons, List.reverse_nil, List.append_assoc,
    List.reverse_replicate, List.cons_append, List.nil_append] at hends
  have hdashes : ∀ n : Nat, ∀ c ∈ List.replicate n '-', (c == '-') = true := by
    intro n c hc
    simp [List.eq_of_mem_replicate hc]
  obtain ⟨hcount, -, hfront⟩ := Text.append_cons_inj (hdashes _) (hdashes _) (by decide) (by decide)
    (List.cons.inj hends).2
  have hcount' := congrArg List.length hcount
  have hshown' := List.reverse_inj.mp (List.cons.inj (List.append_cancel_left hfront)).2
  simp only [List.length_replicate] at hcount'
  obtain ⟨number, shown, dashes⟩ := s
  obtain ⟨number', shown', dashes'⟩ := t
  simp only at hnumber hshown' hcount'
  rw [hnumber, hshown', hcount']

end Snippet

end LexicalAnalysis
