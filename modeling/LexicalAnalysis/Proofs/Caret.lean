/-
# Where the caret stands

The line of a diagnostic is read as text from its start to its end, and then cut at both ends.  The
dashes before the caret are counted in another text, the part of the source from the indentation to
the byte that is reported.  Where a character starts at that byte, the second text is a part of the
first one, so the caret stands under the character.

* `Snippet.dashes_eq`: the dashes count the segments between the indentation and the byte;
* `caret_under_character`: so the caret of a check's diagnostic points at the character that starts
  at the byte, unless that is cut off with the white space at the end of the line;
* `caret_misses_character`: what is said of a first byte and of white space is needed.
-/
import LexicalAnalysis.Proofs.Line
import LexicalAnalysis.Proofs.Rendering
import LexicalAnalysis.Proofs.Strays
import LexicalAnalysis.Text.Utf8.Segments

namespace LexicalAnalysis

/-! ## 1. Indentation -/

theorem dropWhile_append_cons {α : Type} {p : α → Bool} {x : α} (h : p x = false)
    (front back : List α) :
    (front ++ x :: back).dropWhile p = front.dropWhile p ++ x :: back := by
  rw [List.dropWhile_append, List.dropWhile_cons_of_neg (by simp [h])]
  split
  · next hnil => rw [List.isEmpty_iff.mp hnil, List.nil_append]
  · rfl

namespace Snippet

/-- Only a space and a tab are read as one. -/
theorem bytes_of_isIndent {bytes : List UInt8} {s : Utf8.Segment} (hs : s ∈ Utf8.segments bytes)
    (h : isIndent s.char = true) : s.bytes = [0x20] ∨ s.bytes = [0x09] := by
  have hc : s.char = ' ' ∨ s.char = '\t' := by simpa [isIndent] using h
  have hbytes := Utf8.bytes_eq_of_char_lt hs
  rcases hc with hc | hc
  · rw [hc] at hbytes
    exact .inl (hbytes (by decide))
  · rw [hc] at hbytes
    exact .inr (hbytes (by decide))

/-- Indentation is as long in bytes as it is in characters. -/
theorem length_joined_of_isIndent {bytes : List UInt8} {white : List Utf8.Segment}
    (hsub : ∀ s ∈ white, s ∈ Utf8.segments bytes)
    (h : ∀ s ∈ white, isIndent s.char = true) : (Utf8.joined white).length = white.length := by
  induction white with
  | nil => rfl
  | cons s white ih =>
    have hone : s.bytes.length = 1 := by
      rcases bytes_of_isIndent (hsub s (by simp)) (h s (by simp)) with hb | hb <;> rw [hb] <;> rfl
    rw [Utf8.joined_cons, List.length_append, hone,
      ih (fun t ht => hsub t (by simp [ht])) (fun t ht => h t (by simp [ht])), List.length_cons,
      Nat.add_comm]

end Snippet

/-! ## 2. What the line is cut into -/

/-- The part of a source from somewhere in a line to an offset in it. -/
theorem Line.extract_of_find? {src : List UInt8} {offset : Nat} {line : Line}
    (h : Line.find? src offset = some line) (k : Nat) :
    src.extract (line.start + k) offset = (line.bytes.take (line.indexOf offset)).drop k := by
  obtain ⟨before, here, htake, hstart, hindex, hbytes⟩ := Line.exists_cut_of_find? h
  rw [List.extract_eq_take_drop, ← List.drop_take, htake, hstart, hindex, hbytes, List.take_left,
    ← List.drop_drop, List.drop_left]

section Place

variable {bytes : List UInt8} {i : Nat} {front back : List Utf8.Segment} {x : Utf8.Segment}

theorem Utf8.Around.chars_eq (h : Utf8.Around bytes i front x back) :
    Utf8.chars bytes = front.map (·.char) ++ x.char :: back.map (·.char) := by
  rw [Utf8.chars, h.segments_eq, List.map_append, List.map_cons]

/-- In front of the first byte of a segment stand the segments before it. -/
theorem Utf8.Around.take_eq (h : Utf8.Around bytes i front x back)
    (hfirst : (Utf8.joined front).length = i) : bytes.take i = Utf8.joined front := by
  have hbytes := Utf8.joined_segments bytes
  rw [h.segments_eq, Utf8.joined_append] at hbytes
  rw [← hbytes, ← hfirst, List.take_left]

namespace Snippet

/-- A segment of the indentation, if no other segment is before it. -/
def indents (s : Utf8.Segment) : Bool := isIndent s.char

theorem indent_eq (h : Utf8.Around bytes i front x back) (hx : isIndent x.char = false) :
    indent (Utf8.chars bytes) = (front.takeWhile indents).length := by
  rw [indent, h.chars_eq, takeWhile_append_cons hx, List.takeWhile_map, List.length_map]
  rfl

theorem shown_eq (h : Utf8.Around bytes i front x back) (hx : isIndent x.char = false) :
    (Utf8.chars bytes).dropWhile isIndent =
      (front.dropWhile indents).map (·.char) ++ x.char :: back.map (·.char) := by
  rw [h.chars_eq, dropWhile_append_cons hx, List.dropWhile_map]
  rfl

/-- **The text that the dashes are counted in** is the line from its indentation to the first byte
of the segment. -/
theorem dashes_eq {src : List UInt8} {offset : Nat} {line : Line}
    (hline : Line.find? src offset = some line)
    (h : Utf8.Around line.bytes (line.indexOf offset) front x back)
    (hfirst : (Utf8.joined front).length = line.indexOf offset) (hx : isIndent x.char = false) :
    (ofLine src offset line).dashes = (front.dropWhile indents).length := by
  have hcut : front.takeWhile indents ++ front.dropWhile indents = front :=
    List.takeWhile_append_dropWhile
  have hsegs : Utf8.segments line.bytes =
      front.takeWhile indents ++ (front.dropWhile indents ++ x :: back) := by
    rw [← List.append_assoc, hcut, h.segments_eq]
  -- each indenting segment is a byte, so both sides are counted in the same unit
  have hmem : ∀ s ∈ front.takeWhile indents, s ∈ Utf8.segments line.bytes := by
    intro s hs
    rw [hsegs]
    exact List.mem_append_left _ hs
  have hwhite : (Utf8.joined (front.takeWhile indents)).length =
      (front.takeWhile indents).length :=
    length_joined_of_isIndent hmem fun s hs => List.all_eq_true.mp List.all_takeWhile s hs
  have hjoined : Utf8.joined front =
      Utf8.joined (front.takeWhile indents) ++ Utf8.joined (front.dropWhile indents) := by
    rw [← Utf8.joined_append, hcut]
  have hle : (front.takeWhile indents).length ≤ line.indexOf offset := by
    rw [← hfirst, hjoined, List.length_append, hwhite]
    exact Nat.le_add_right _ _
  have htext : src.extract (dashStart line offset) offset =
      Utf8.joined (front.dropWhile indents) := by
    rw [dashStart, Line.toList_text, indent_eq h hx, Nat.min_eq_left hle,
      Line.extract_of_find? hline, h.take_eq hfirst, hjoined, ← hwhite, List.drop_left]
  have hbody : Utf8.segments (Utf8.joined (front.dropWhile indents)) = front.dropWhile indents :=
    (Utf8.segments_of_append (Utf8.segments_of_append hsegs).2).1
  rw [ofLine, htext, Utf8.decode, String.length_ofList, Utf8.chars, hbody, List.length_map]

/-- So indentation and dashes together are the segments in front. -/
theorem indent_add_dashes {src : List UInt8} {offset : Nat} {line : Line}
    (hline : Line.find? src offset = some line)
    (h : Utf8.Around line.bytes (line.indexOf offset) front x back)
    (hfirst : (Utf8.joined front).length = line.indexOf offset) (hx : isIndent x.char = false) :
    indent line.text.toList + (ofLine src offset line).dashes = front.length := by
  rw [Line.toList_text, indent_eq h hx, dashes_eq hline h hfirst hx, ← List.length_append,
    List.takeWhile_append_dropWhile]

/-- What is shown is the same text and the line behind it, cut at its end. -/
theorem ofLine_shown (src : List UInt8) {offset : Nat} {line : Line}
    (h : Utf8.Around line.bytes (line.indexOf offset) front x back) (hx : isIndent x.char = false) :
    (ofLine src offset line).shown =
      Text.trimEnd ((front.dropWhile indents).map (·.char) ++ x.char :: back.map (·.char)) := by
  rw [ofLine, Line.toList_text, shown_eq h hx]

end Snippet

/-- The first byte of a segment. -/
theorem Utf8.Around.getElem?_eq (h : Utf8.Around bytes i front x back)
    (hfirst : (Utf8.joined front).length = i) : bytes[i]? = x.bytes.head? := by
  have hbytes := Utf8.joined_segments bytes
  have hlt := h.lt
  rw [h.segments_eq, Utf8.joined_append, Utf8.joined_cons] at hbytes
  rw [← hbytes, ← hfirst, List.getElem?_append_right (Nat.le_refl _), Nat.sub_self,
    List.getElem?_append_left (by omega), List.head?_eq_getElem?]

/-- A byte that is no blank starts no segment of the indentation. -/
theorem Utf8.Around.isIndent_eq_false (h : Utf8.Around bytes i front x back)
    (hfirst : (Utf8.joined front).length = i) {b : UInt8} (hb : bytes[i]? = some b)
    (hblank : isBlank b = false) : Snippet.isIndent x.char = false := by
  rw [h.getElem?_eq hfirst] at hb
  have hmem : x ∈ Utf8.segments bytes := by
    rw [h.segments_eq]
    exact List.mem_append_right _ (List.mem_cons_self)
  by_contra hx
  rw [Bool.not_eq_false] at hx
  rcases Snippet.bytes_of_isIndent hmem hx with hbytes | hbytes <;>
    · rw [hbytes, List.head?_cons, Option.some.injEq] at hb
      subst hb
      exact absurd hblank (by decide)

end Place

/-! ## 3. The caret of a diagnostic -/

/-- **The caret points at a character of a line**: the one behind the given segments, and that is
what is shown above the caret. -/
structure Snippet.PointsAt (s : Snippet) (line : Line) (front : List Utf8.Segment)
    (x : Utf8.Segment) : Prop where
  index_eq : indent line.text.toList + s.dashes = front.length
  shown_eq : s.shown[s.dashes]? = some x.char

/-- **The caret of a diagnostic points at the character that its byte is in.** -/
def Diagnostic.PointsRight (d : Diagnostic) (src : List UInt8) : Prop :=
  ∃ line s front x back, Line.find? src d.position.offset = some line ∧
    Snippet.at? src d.position.offset = some s ∧
    Utf8.Around line.bytes (line.indexOf d.position.offset) front x back ∧
    s.PointsAt line front x

/-- **The caret stands under the character that is reported by its first byte**, and is printed there
if it fits.  If there is nothing but white space from that character to the end of the line, then none of it is shown, and
the caret stands where the character would be, behind all that is shown. -/
theorem caret_under_character (src : List UInt8) (name? : Option String) {ds : List Diagnostic}
    (hcheck : check (.ofBytes src name?) = .error ds) {d : Diagnostic} (hd : d ∈ ds) :
    ∃ line s, Line.find? src d.position.offset = some line ∧
      Snippet.at? src d.position.offset = some s ∧
      (s.caretWidth ≤ widestField → d.Prints src s) ∧
      s.shown = Text.trimEnd (line.text.toList.dropWhile Snippet.isIndent) ∧
      (∃ front x back, Utf8.Around line.bytes (line.indexOf d.position.offset) front x back) ∧
      ∀ front x back, Utf8.Around line.bytes (line.indexOf d.position.offset) front x back →
        (Utf8.joined front).length = line.indexOf d.position.offset →
          ((∃ c ∈ x.char :: back.map (·.char), Text.isWhiteSpace c = false) →
            s.PointsAt line front x) ∧
          ((∀ c ∈ x.char :: back.map (·.char), Text.isWhiteSpace c = true) →
            Snippet.indent line.text.toList + s.dashes = front.length ∧
              s.shown.length ≤ s.dashes) := by
  obtain ⟨t, ht, hill, rfl⟩ := exists_token_of_check_eq_error hcheck hd
  obtain ⟨b, hb, hblank⟩ := exists_not_isBlank_of_isIllegal ht hill
  have hlt := offset_lt_length_of_not_isEndOfFile ht (isEndOfFile_of_isIllegal hill)
  obtain ⟨line, hline⟩ : ∃ line, Line.find? src t.position.offset = some line :=
    ⟨_, Line.find?_of_lt hlt⟩
  have hbounds := Line.find?_bounds hline
  have hindex : line.indexOf t.position.offset < line.bytes.length := by
    rw [Line.indexOf]
    omega
  refine ⟨line, _, hline, Snippet.at?_of_find? hline, Diagnostic.prints_of_find? hline, rfl,
    Utf8.exists_around hindex, ?_⟩
  intro front x back haround hfirst
  have hx : Snippet.isIndent x.char = false :=
    haround.isIndent_eq_false hfirst ((Line.getElem?_bytes_of_find? hline).trans hb) hblank
  have hdashes := Snippet.dashes_eq hline haround hfirst hx
  have hshown := Snippet.ofLine_shown src haround hx
  have hcount := Snippet.indent_add_dashes hline haround hfirst hx
  refine ⟨fun hblack => ⟨hcount, ?_⟩, fun hwhite => ⟨hcount, ?_⟩⟩
  · rw [hshown, hdashes, ← List.length_map Utf8.Segment.char]
    exact Text.getElem?_trimEnd hblack
  · rw [hshown, Text.trimEnd_append hwhite, hdashes, ← List.length_map Utf8.Segment.char]
    exact Text.length_trimEnd_le _

/-- The mark behind an accented letter, which takes two bytes, and a space. -/
theorem caret_under_character_mark :
    let src : List UInt8 := [0xC3, 0xA9, 0x20, 0x40]
    let d : Diagnostic := ⟨.ofBytes [0x40], ⟨3, 1, 4⟩, "shell"⟩
    ∃ ds, check (.ofBytes src none) = .error ds ∧ d ∈ ds ∧
      ∃ line s, Line.find? src 3 = some line ∧ d.Prints src s ∧
        s.PointsAt line [⟨[0xC3, 0xA9], Char.ofNat 0xE9⟩, ⟨[0x20], ' '⟩] ⟨[0x40], '@'⟩ := by
  let l : Layout := ⟨[⟨[], ⟨.illegal, [0xC3]⟩⟩, ⟨[], ⟨.illegal, [0xA9]⟩⟩,
    ⟨[0x20], ⟨.illegal, [0x40]⟩⟩], []⟩
  have hread : tokenize [0xC3, 0xA9, 0x20, 0x40] = l.tokens := tokenize_bytes (l := l) (by decide)
  have hcheck : check (.ofBytes [0xC3, 0xA9, 0x20, 0x40] none) =
      .error [⟨.ofBytes [0xC3], ⟨0, 1, 1⟩, "shell"⟩, ⟨.ofBytes [0xA9], ⟨1, 1, 2⟩, "shell"⟩,
        ⟨.ofBytes [0x40], ⟨3, 1, 4⟩, "shell"⟩] := by
    rw [check, Source.tokens, Source.ofBytes, hread]
    rfl
  obtain ⟨line, s, hline, hs, hprints, -, -, hcaret⟩ :=
    caret_under_character [0xC3, 0xA9, 0x20, 0x40] none hcheck (.tail _ (.tail _ (.head _)))
  obtain rfl : line = ⟨1, 0, [0xC3, 0xA9, 0x20, 0x40]⟩ := Option.some.inj (hline.symm.trans rfl)
  obtain rfl : s = ⟨1, [Char.ofNat 0xE9, ' ', '@'], 2⟩ := Option.some.inj (hs.symm.trans rfl)
  obtain ⟨hpoints, -⟩ := hcaret [⟨[0xC3, 0xA9], Char.ofNat 0xE9⟩, ⟨[0x20], ' '⟩] ⟨[0x40], '@'⟩ []
    ⟨by decide, by decide, by decide⟩ (by decide)
  exact ⟨_, hcheck, .tail _ (.tail _ (.head _)), _, _, hline, hprints (by decide),
    hpoints ⟨'@', by decide⟩⟩

/-- A caret behind all that is shown points at nothing. -/
theorem Diagnostic.not_pointsRight_of_le {d : Diagnostic} {src : List UInt8} {s : Snippet}
    (hs : Snippet.at? src d.position.offset = some s) (h : s.shown.length ≤ s.dashes) :
    ¬ d.PointsRight src := by
  rintro ⟨line, s', front, x, back, -, hs', -, hpoints⟩
  obtain rfl : s = s' := Option.some.inj (hs.symm.trans hs')
  have hshown := hpoints.shown_eq
  rw [List.getElem?_eq_none h] at hshown
  cases hshown

/-- **Not every caret points at the character that is reported.**  A vertical tab at the end of a
line is not shown at all; and for the second byte of an accented letter the first one is decoded
alone, so that the caret is one too far. -/
theorem caret_misses_character :
    (∃ d, check (.ofBytes [0x0B] none) = .error [d] ∧ ¬ d.PointsRight [0x0B]) ∧
      ∃ c d, check (.ofBytes [0xC3, 0xA9] none) = .error [c, d] ∧
        ¬ d.PointsRight [0xC3, 0xA9] := by
  constructor
  · let l : Layout := ⟨[⟨[], ⟨.illegal, [0x0B]⟩⟩], []⟩
    have hread : tokenize [0x0B] = l.tokens := tokenize_bytes (l := l) (by decide)
    refine ⟨⟨.ofBytes [0x0B], ⟨0, 1, 1⟩, "shell"⟩, ?_, ?_⟩
    · rw [check, Source.tokens, Source.ofBytes, hread]
      rfl
    · exact Diagnostic.not_pointsRight_of_le (s := ⟨1, [], 0⟩) rfl (by decide)
  · let l : Layout := ⟨[⟨[], ⟨.illegal, [0xC3]⟩⟩, ⟨[], ⟨.illegal, [0xA9]⟩⟩], []⟩
    have hread : tokenize [0xC3, 0xA9] = l.tokens := tokenize_bytes (l := l) (by decide)
    refine ⟨⟨.ofBytes [0xC3], ⟨0, 1, 1⟩, "shell"⟩, ⟨.ofBytes [0xA9], ⟨1, 1, 2⟩, "shell"⟩, ?_, ?_⟩
    · rw [check, Source.tokens, Source.ofBytes, hread]
      rfl
    · exact Diagnostic.not_pointsRight_of_le (s := ⟨1, [Char.ofNat 0xE9], 1⟩) rfl (by decide)

end LexicalAnalysis
