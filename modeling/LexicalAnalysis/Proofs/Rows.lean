/-
# The rows of a snippet

Below its header a diagnostic has three rows: the bar alone, the line behind its number, and the
caret.  How they are set follows from the number of the line alone, which is as wide as it has
digits; what the middle one shows follows from the text of the line alone, which is cut at both
ends.

* `Snippet.Cut`: what is left of a text that is cut at both ends;
* `Snippet.cut_iff`: there is one way to cut a text, also where the two cuts meet;
* `Snippet.Rows`: how three rows are set;
* `three_rows`: so every diagnostic that has a line is shown.
-/
import LexicalAnalysis.Proofs.LineBounds
import LexicalAnalysis.Proofs.LineEndings
import LexicalAnalysis.Proofs.Tiling
import Mathlib.Data.List.DropRight
import Mathlib.Data.Nat.Digits.Lemmas

namespace LexicalAnalysis

/-! ## 1. A text cut at both ends -/

namespace Text

/-- What is left does not end with white space. -/
theorem getLast?_trimEnd {cs : List Char} {c : Char} (h : (trimEnd cs).getLast? = some c) :
    isWhiteSpace c = false := by
  rw [trimEnd, List.getLast?_reverse] at h
  exact Lexeme.of_head?_dropWhile h

/-- A text that does not end with white space is left as it is. -/
theorem trimEnd_of_getLast? {cs : List Char}
    (h : ∀ c, cs.getLast? = some c → isWhiteSpace c = false) : trimEnd cs = cs := by
  refine List.rdropWhile_eq_self_iff.mpr ?_
  intro hne
  rw [Bool.not_eq_true]
  exact h _ (List.getLast?_eq_some_getLast hne)

theorem mem_of_mem_trimEnd {cs : List Char} {c : Char} (h : c ∈ trimEnd cs) : c ∈ cs := by
  obtain ⟨cut, hcs, -⟩ := exists_eq_trimEnd_append cs
  rw [hcs]
  exact List.mem_append_left _ h

end Text

namespace Snippet

/-- **What is left of a text that is cut at both ends.**  In front of it there are spaces and tabs,
and behind it white space; it does not start with the one, nor end with the other. -/
structure Cut (text shown : List Char) : Prop where
  ends : ∃ front back, text = front ++ shown ++ back ∧ (∀ c ∈ front, c = ' ' ∨ c = '\t') ∧
    ∀ c ∈ back, Text.isWhiteSpace c = true
  start : ∀ c, shown.head? = some c → c ≠ ' ' ∧ c ≠ '\t'
  stop : ∀ c, shown.getLast? = some c → Text.isWhiteSpace c = false

theorem isIndent_iff {c : Char} : isIndent c = true ↔ c = ' ' ∨ c = '\t' := by simp [isIndent]

theorem isIndent_eq_false_iff {c : Char} : isIndent c = false ↔ c ≠ ' ' ∧ c ≠ '\t' := by
  simp [isIndent]

/-- The text without its indentation and then without the white space at its end is cut. -/
theorem cut_trimEnd (text : List Char) : Cut text (Text.trimEnd (text.dropWhile isIndent)) := by
  obtain ⟨back, hback, hwhite⟩ := Text.exists_eq_trimEnd_append (text.dropWhile isIndent)
  refine ⟨⟨text.takeWhile isIndent, back, ?_, ?_, hwhite⟩, ?_, fun c => Text.getLast?_trimEnd⟩
  · rw [List.append_assoc, ← hback, List.takeWhile_append_dropWhile]
  · intro c hc
    exact isIndent_iff.mp (List.all_eq_true.mp List.all_takeWhile c hc)
  · intro c hc
    have hhead : (text.dropWhile isIndent).head? = some c := by
      rw [hback, List.head?_append, hc]
      rfl
    exact isIndent_eq_false_iff.mp (Lexeme.of_head?_dropWhile hhead)

/-- **There is one way to cut a text.**  What is left starts where the indentation ends.  If nothing
is left then the two cuts may meet anywhere in the white space that the text is. -/
theorem Cut.eq_trimEnd {text shown : List Char} (h : Cut text shown) :
    shown = Text.trimEnd (text.dropWhile isIndent) := by
  obtain ⟨front, back, rfl, hfront, hback⟩ := h.ends
  have hindent : ∀ c ∈ front, isIndent c = true := fun c hc => isIndent_iff.mpr (hfront c hc)
  rw [List.append_assoc, List.dropWhile_append_of_pos hindent]
  cases shown with
  | nil =>
    have hwhite : ∀ c ∈ back.dropWhile isIndent, Text.isWhiteSpace c = true :=
      fun c hc => hback c ((List.dropWhile_sublist _).subset hc)
    have hempty : Text.trimEnd ([] ++ back.dropWhile isIndent) = [] := Text.trimEnd_append hwhite
    exact hempty.symm
  | cons c more =>
    have hc : isIndent c = false := isIndent_eq_false_iff.mpr (h.start c rfl)
    rw [List.cons_append, List.dropWhile_cons_of_neg (by simp [hc]), ← List.cons_append,
      Text.trimEnd_append hback, Text.trimEnd_of_getLast? h.stop]

theorem cut_iff {text shown : List Char} :
    Cut text shown ↔ shown = Text.trimEnd (text.dropWhile isIndent) :=
  ⟨Cut.eq_trimEnd, fun h => h ▸ cut_trimEnd text⟩

end Snippet

/-! ## 2. The text of a line -/

/-- A newline is at the end of a line, if there is one. -/
theorem exists_eq_firstLine (bytes : List UInt8) :
    ∃ body, newline ∉ body ∧ (firstLine bytes = body ∨ firstLine bytes = body ++ [newline]) := by
  induction bytes with
  | nil => exact ⟨[], List.not_mem_nil, .inl rfl⟩
  | cons b bytes ih =>
    rw [firstLine]
    split
    · next hb => exact ⟨[], List.not_mem_nil, .inr (by rw [hb]; rfl)⟩
    · next hb =>
      obtain ⟨body, hbody, hline⟩ := ih
      refine ⟨b :: body, by simp [hbody, Ne.symm hb], ?_⟩
      exact hline.imp (congrArg (b :: ·)) (congrArg (b :: ·))

theorem Line.exists_body_of_find? {src : List UInt8} {offset : Nat} {line : Line}
    (h : find? src offset = some line) :
    ∃ body, newline ∉ body ∧ (line.bytes = body ∨ line.bytes = body ++ [newline]) := by
  obtain ⟨before, here, bytes, -, -, -, hhere, hfind⟩ := exists_cut_of_lt (lt_length_of_find? h)
  obtain rfl := Option.some.inj (hfind.symm.trans h)
  obtain ⟨body, hbody, hline⟩ := exists_eq_firstLine bytes
  refine ⟨here ++ body, by simp [hhere, hbody], ?_⟩
  rcases hline with hline | hline
  · exact .inl (by rw [hline])
  · exact .inr (by rw [hline, List.append_assoc])

/-- **No newline is shown**: it would be the end of its line, and white space there is cut off. -/
theorem Snippet.newline_not_mem_trimEnd {src : List UInt8} {offset : Nat} {line : Line}
    (h : Line.find? src offset = some line) :
    '\n' ∉ Text.trimEnd (line.text.toList.dropWhile isIndent) := by
  obtain ⟨body, hbody, hline⟩ := Line.exists_body_of_find? h
  have hshown : Text.trimEnd (line.text.toList.dropWhile isIndent) =
      Text.trimEnd ((Utf8.chars body).dropWhile isIndent) := by
    rw [Line.toList_text]
    rcases hline with hline | hline
    · rw [hline]
    · rw [hline, (Utf8.chars_append_ending body).1,
        trimEnd_dropWhile_append (by decide) (by decide)]
  intro hmem
  rw [hshown] at hmem
  exact Utf8.newline_not_mem_chars hbody
    ((List.dropWhile_sublist _).subset (Text.mem_of_mem_trimEnd hmem))

/-! ## 3. Three rows -/

/-- A number is printed with its digits, and zero with one digit that it does not have. -/
theorem length_repr {n : Nat} (h : 0 < n) : n.repr.length = (Nat.digits 10 n).length := by
  have hdigits : 0 < (Nat.digits 10 n).length :=
    List.length_pos_iff.mpr (Nat.digits_ne_nil_iff_ne_zero.mpr (Nat.ne_of_gt h))
  refine Nat.le_antisymm ?_ ?_
  · rw [Nat.length_repr_le_iff hdigits, ← Nat.digits_length_le_iff (by decide)]
  · rw [Nat.digits_length_le_iff (by decide), ← Nat.length_repr_le_iff Nat.length_repr_pos]

namespace Snippet

/-- **How the rows of a snippet are set**, if its number has so many digits.  No row has a newline,
and each has its bar at the same place: behind as many spaces as it takes, or behind the number. -/
structure Rows (s : Snippet) (digits : Nat) (bar line caret : List Char) : Prop where
  bar_eq : bar = List.replicate (digits + 1) ' ' ++ ['|']
  line_eq : line = s.number.repr.toList ++ [' ', '|', ' '] ++ s.shown
  caret_eq : caret =
    List.replicate (digits + 1) ' ' ++ ['|', ' '] ++ List.replicate s.dashes '-' ++ ['^']
  aligned : ∀ row ∈ [bar, line, caret], row[digits + 1]? = some '|'
  newline_not_mem : ∀ row ∈ [bar, line, caret], '\n' ∉ row

/-- The bar is one character behind a number, however many digits that has. -/
theorem getElem?_repr_append (n : Nat) (more : List Char) :
    (n.repr.toList ++ [' ', '|', ' '] ++ more)[n.repr.length + 1]? = some '|' := by
  rw [← String.length_toList, List.append_assoc, List.getElem?_append_right (by omega),
    Nat.add_sub_cancel_left]
  rfl

/-- **A snippet is set in three rows**, if it shows no newline. -/
theorem exists_rows {s : Snippet} (hnumber : 0 < s.number) (hshown : '\n' ∉ s.shown) :
    ∃ bar line caret, s.Rows (Nat.digits 10 s.number).length bar line caret ∧
      s.render.toList = bar ++ '\n' :: (line ++ '\n' :: caret) := by
  have hdigits : '\n' ∉ s.number.repr.toList := fun hmem =>
    absurd (Text.isDigit_of_mem_repr hmem) (by decide)
  rw [← length_repr hnumber]
  refine ⟨_, _, _, ⟨rfl, rfl, rfl, ?_, ?_⟩, ?_⟩
  · intro row hrow
    simp only [List.mem_cons, List.not_mem_nil, or_false] at hrow
    rcases hrow with rfl | rfl | rfl
    · simp
    · exact getElem?_repr_append _ _
    · simp
  · intro row hrow
    simp only [List.mem_cons, List.not_mem_nil, or_false] at hrow
    rcases hrow with rfl | rfl | rfl
    · simp
    · rw [List.mem_append, List.mem_append]
      rintro ((hmem | hmem) | hmem)
      · exact hdigits hmem
      · exact absurd hmem (by decide)
      · exact hshown hmem
    · simp
  · rw [toList_render, gutter]
    simp only [List.append_assoc, List.cons_append, List.nil_append]

end Snippet

/-! ## 4. Any diagnostic -/

/-- A header is two lines, each with its newline. -/
theorem Diagnostic.header_eq (d : Diagnostic) :
    d.header =
      ("Error: " ++ d.cause.name ++ " (" ++ d.tip ++ ")\n") ++ ("-> " ++ d.file ++ "\n") := by
  simp only [header, String.append_assoc]
  rfl

/-- **Every diagnostic whose offset is in the source is shown in the same shape.**  The header is
two lines, each with its newline.  Three rows follow, and the last one has no newline.  The bars
stand one below the other, one character behind the digits of the line's number, with only spaces in
front of the first and the third; and the middle row shows the text of the line cut at both ends,
with no newline in it. -/
theorem three_rows (src : List UInt8) (d : Diagnostic) (hoffset : d.position.offset < src.length) :
    ∃ (line : Line) (s : Snippet) (bar number caret : List Char),
      Line.find? src d.position.offset = some line ∧ line.Holds src d.position.offset ∧
      d.render src =
        ("Error: " ++ d.cause.name ++ " (" ++ d.tip ++ ")\n") ++ ("-> " ++ d.file ++ "\n") ++
          String.ofList (bar ++ '\n' :: (number ++ '\n' :: caret)) ∧
      s.number = line.number ∧
      s.Rows (Nat.digits 10 line.number).length bar number caret ∧
      Snippet.Cut line.text.toList s.shown ∧ '\n' ∉ s.shown := by
  obtain ⟨line, hfind, hholds⟩ := Line.exists_holds hoffset
  let s := Snippet.ofLine src d.position.offset line
  have hnumber : 0 < s.number := by
    show 0 < line.number
    rw [hholds.number_eq]
    omega
  have htext : s.shown = Text.trimEnd (line.text.toList.dropWhile Snippet.isIndent) := rfl
  have hshown : '\n' ∉ s.shown := by
    rw [htext]
    exact Snippet.newline_not_mem_trimEnd hfind
  have hcut : Snippet.Cut line.text.toList s.shown := Snippet.cut_iff.mpr htext
  obtain ⟨bar, number, caret, hrows, hrender⟩ := Snippet.exists_rows hnumber hshown
  refine ⟨line, s, bar, number, caret, hfind, hholds, ?_, rfl, hrows, hcut, hshown⟩
  have hsnippet : d.render src = d.header ++ s.render := by
    rw [Diagnostic.render, Snippet.at?_of_find? hfind]
  rw [hsnippet, ← hrender, String.ofList_toList, Diagnostic.header_eq]

/-- The tenth line of a source, with a tab in front, and a space without a break and a carriage
return at its end; and the eleventh, in which the two cuts meet. -/
theorem three_rows_tenth_line :
    let src : List UInt8 :=
      List.replicate 9 newline ++ [0x09, 0x40, 0xC2, 0xA0, 0x0D, 0x0A, 0x20, 0x0D]
    let d (offset : Nat) : Diagnostic := ⟨.unrecognised "@", ⟨offset, 7, 9⟩, "shell"⟩
    11 < src.length ∧ 16 < src.length ∧
      (∃ s bar number caret, (d 11).render src = (d 11).header ++
          String.ofList (bar ++ '\n' :: (number ++ '\n' :: caret)) ∧
        s.number = 10 ∧ s.shown = ['@'] ∧ Snippet.Rows s 2 bar number caret) ∧
      ∃ s bar number caret, (d 16).render src = (d 16).header ++
          String.ofList (bar ++ '\n' :: (number ++ '\n' :: caret)) ∧
        s.number = 11 ∧ s.shown = [] ∧ Snippet.Rows s 2 bar number caret := by
  intro src d
  obtain ⟨line, s, bar, number, caret, hline, -, hrender, hnumber, hrows, hcut, -⟩ :=
    three_rows src (d 11) (by decide)
  rw [← Diagnostic.header_eq] at hrender
  obtain rfl : line = ⟨10, 9, [0x09, 0x40, 0xC2, 0xA0, 0x0D, 0x0A]⟩ :=
    Option.some.inj (hline.symm.trans (by rfl))
  obtain ⟨line', s', bar', number', caret', hline', -, hrender', hnumber', hrows', hcut', -⟩ :=
    three_rows src (d 16) (by decide)
  rw [← Diagnostic.header_eq] at hrender'
  obtain rfl : line' = ⟨11, 15, [0x20, 0x0D]⟩ := Option.some.inj (hline'.symm.trans (by rfl))
  refine ⟨by decide, by decide, ⟨s, bar, number, caret, hrender, hnumber, ?_, hrows⟩,
    s', bar', number', caret', hrender', hnumber', ?_, hrows'⟩
  · exact hcut.eq_trimEnd.trans (by rfl)
  · exact hcut'.eq_trimEnd.trans (by rfl)

end LexicalAnalysis
