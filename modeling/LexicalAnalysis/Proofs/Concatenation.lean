/-
# Two sources with a blank between them

A blank ends whatever stands in front of it, and nothing behind it is looked at before it is read.
So a source that is cut at a blank can be scanned in two parts.  The tokens of the front part are
those that it has on its own; the tokens of the back part are those that it has on its own, moved
to where they stand in the whole.

* `Position.behind`: a place in a text, once the text stands behind another one;
* `Position.after_append`: it is what counting the two texts gives;
* `TokenStream.drain_behind`: a stream in the middle of a source yields what a new one yields there,
  moved;
* `tokenize_append_blank_append`: the tokens of the whole.
-/
import LexicalAnalysis.Proofs.Appending

namespace LexicalAnalysis

namespace Position

/-! ## 1. Places that move -/

/-- Where a place in a text is once the text stands behind another one.  The first line goes on
where that one ends; every other line has its own columns. -/
def behind (read : List UInt8) (p : Position) : Position where
  offset := p.offset + read.length
  line := p.line + UInt32.ofNat (read.count newline)
  column := if p.line = 1 then p.column + UInt32.ofNat (lastLine read).length else p.column

/-- The first line is the one that no newline is in front of. -/
theorem after_line_eq_one_iff {bytes : List UInt8} (h : Fits bytes) :
    (after bytes).line = 1 ↔ newline ∉ bytes := by
  rw [← UInt32.toNat_inj, after_line_toNat h, UInt32.toNat_one, Nat.add_eq_left,
    List.count_eq_zero]

/-- **Counting two texts is counting the second one and moving it behind the first.** -/
theorem after_append {read bytes : List UInt8} (h : Fits (read ++ bytes)) :
    after (read ++ bytes) = (after bytes).behind read := by
  have hone := after_line_eq_one_iff (h.of_length_le (List.suffix_append read bytes).length_le)
  have hline : UInt32.ofNat (1 + (read ++ bytes).count newline) =
      UInt32.ofNat (1 + bytes.count newline) + UInt32.ofNat (read.count newline) := by
    rw [← UInt32.ofNat_add, List.count_append]
    exact congrArg UInt32.ofNat (by omega)
  have hcolumn : UInt32.ofNat (1 + (lastLine (read ++ bytes)).length) =
      if (after bytes).line = 1 then
        UInt32.ofNat (1 + (lastLine bytes).length) + UInt32.ofNat (lastLine read).length
      else UInt32.ofNat (1 + (lastLine bytes).length) := by
    by_cases hn : newline ∈ bytes
    · rw [if_neg (fun he => hone.mp he hn), lastLine_append_of_mem hn]
    · rw [if_pos (hone.mpr hn), ← UInt32.ofNat_add, lastLine_append hn, lastLine_of_not_mem hn,
        List.length_append]
      exact congrArg UInt32.ofNat (by omega)
  have hoffset : (read ++ bytes).length = bytes.length + read.length := by
    rw [List.length_append, Nat.add_comm]
  rw [after, hoffset, hline, hcolumn]
  rfl

/-- The words of a moved place do not wrap. -/
theorem behind_toNat {read bytes : List UInt8} (h : Fits (read ++ bytes)) :
    ((after bytes).behind read).line.toNat = (after bytes).line.toNat + read.count newline ∧
      ((after bytes).behind read).column.toNat = (after bytes).column.toNat +
        if (after bytes).line = 1 then (lastLine read).length else 0 := by
  have hbytes : Fits bytes := h.of_length_le (List.suffix_append read bytes).length_le
  have hone := after_line_eq_one_iff hbytes
  rw [← after_append h, after_line_toNat h, after_column_toNat h, after_line_toNat hbytes,
    after_column_toNat hbytes, List.count_append]
  refine ⟨by omega, ?_⟩
  by_cases hn : newline ∈ bytes
  · rw [if_neg (fun he => hone.mp he hn), lastLine_append_of_mem hn, Nat.add_zero]
  · rw [if_pos (hone.mpr hn), lastLine_append hn, lastLine_of_not_mem hn, List.length_append]
    omega

end Position

/-- A token, once its source stands behind a text. -/
def Token.behind (read : List UInt8) (t : Token) : Token :=
  { t with position := t.position.behind read }

/-- The tokens of some pieces, moved. -/
theorem Layout.tokensAfter_behind {read front : List UInt8} {ps : List Piece}
    (h : Fits (read ++ (front ++ ps.flatMap Piece.bytes))) :
    tokensAfter (read ++ front) ps = (tokensAfter front ps).map (Token.behind read) := by
  induction ps generalizing front with
  | nil => rfl
  | cons p ps ih =>
    rw [List.flatMap_cons, ← List.append_assoc front] at h
    have hplace : Fits (read ++ (front ++ p.gap)) := by
      refine h.of_length_le ?_
      simp only [List.length_append, Piece.bytes]
      omega
    rw [tokensAfter, tokensAfter, List.map_cons, List.append_assoc, Position.after_append hplace,
      List.append_assoc, ih h]
    rfl

namespace TokenStream

/-! ## 2. A stream in the middle of a source -/

/-- Blanks in front of a stream may as well have been read. -/
theorem pull_gap_append {gap : List UInt8} (hg : IsGap gap) (bytes : List UInt8) (p : Position)
    (finished : Bool) :
    pull ⟨gap ++ bytes, p, finished⟩ = pull ⟨bytes, p.overBlanks gap, finished⟩ := by
  simp only [pull, List.takeWhile_append_of_pos hg, List.dropWhile_append_of_pos hg,
    Position.overBlanks_append]

/-- **A stream yields in the middle of a source what it yields at the start of one**, but for the
places. -/
theorem drain_behind {read bytes : List UInt8} (h : Fits (read ++ bytes)) :
    (drain ⟨bytes, .after read, false⟩).1 = (tokenize bytes).map (Token.behind read) := by
  obtain ⟨⟨ps, tail⟩, hl, rfl⟩ := Layout.exists_lawful bytes
  have hps : Fits (read ++ ([] ++ ps.flatMap Piece.bytes)) := by
    refine h.of_length_le ?_
    simp only [Layout.bytes, List.nil_append, List.length_append]
    omega
  have hmoved := Layout.tokensAfter_behind hps
  rw [List.append_nil] at hmoved
  rw [drain_layout hl, tokenize_bytes hl, Layout.tokens, List.map_append, hmoved,
    Position.after_append h]
  rfl

end TokenStream

/-! ## 3. The two parts -/

/-- **A source with a blank in it is scanned in two parts.**  It has the tokens of the part in front
of the blank, but for the end token, and then those of the part behind it, the end token too, each
with the kind and the lexeme that it has there.  Their offsets grow by all that stands in front, and
their lines by the newlines in it; their columns grow by its last line on their first line, and on
no other. -/
theorem tokenize_append_blank_append (a b : List UInt8) (w : UInt8) (hw : isBlank w = true)
    (hfits : Fits (a ++ [w] ++ b)) :
    (∃ ts, tokenize a = ts ++ [⟨⟨.endOfFile, []⟩, .after a⟩] ∧
      tokenize (a ++ [w] ++ b) = ts ++ (tokenize b).map (Token.behind (a ++ [w]))) ∧
      ∀ t ∈ tokenize b,
        (t.behind (a ++ [w])).toLexeme = t.toLexeme ∧
        (t.behind (a ++ [w])).position.offset = t.position.offset + (a.length + 1) ∧
        (t.behind (a ++ [w])).position.line.toNat =
          t.position.line.toNat + (a ++ [w]).count newline ∧
        (t.behind (a ++ [w])).position.column.toNat = t.position.column.toNat +
          if t.position.line = 1 then (Position.lastLine (a ++ [w])).length else 0 := by
  constructor
  · obtain ⟨⟨ps, tail⟩, hl, rfl⟩ := Layout.exists_lawful a
    have hgap : IsGap (tail ++ [w]) := by
      intro c hc
      rcases List.mem_append.mp hc with hc | hc
      · exact hl.tail_blank c hc
      · rwa [List.mem_singleton.mp hc]
    -- the pieces of `a` also lie in front of the blank, which is the end of a gap there
    have hblank : Layout.Lawful ⟨ps ++ [], tail ++ [w]⟩ := by
      rw [List.append_nil]
      exact ⟨hl.gap_blank, hl.lexeme_legal, hgap, hl.all_clear⟩
    have hbytes : Layout.bytes ⟨ps, tail⟩ ++ [w] ++ b =
        Layout.bytes ⟨ps ++ [], tail ++ [w]⟩ ++ b := by
      simp [Layout.bytes]
    have hread : ps.flatMap Piece.bytes ++ (tail ++ [w]) = Layout.bytes ⟨ps, tail⟩ ++ [w] := by
      simp [Layout.bytes]
    refine ⟨Layout.tokensAfter [] ps, tokenize_bytes hl, ?_⟩
    calc tokenize (Layout.bytes ⟨ps, tail⟩ ++ [w] ++ b)
        = (TokenStream.drain
            ⟨Layout.bytes ⟨ps ++ [], tail ++ [w]⟩ ++ b, .after [], false⟩).1 := by
          rw [hbytes]
          rfl
      _ = Layout.tokensAfter [] ps ++ (TokenStream.drain
            ⟨(tail ++ [w]) ++ b, .after (ps.flatMap Piece.bytes), false⟩).1 :=
          TokenStream.drain_front hblank (List.append_ne_nil_of_right_ne_nil _ (by simp)) b []
      _ = Layout.tokensAfter [] ps ++ (TokenStream.drain
            ⟨b, .after (Layout.bytes ⟨ps, tail⟩ ++ [w]), false⟩).1 := by
          rw [TokenStream.drain_of_not_finished rfl, TokenStream.pull_gap_append hgap,
            Position.overBlanks_after, hread, ← TokenStream.drain_of_not_finished rfl]
      _ = Layout.tokensAfter [] ps ++
            (tokenize b).map (Token.behind (Layout.bytes ⟨ps, tail⟩ ++ [w])) := by
          rw [TokenStream.drain_behind hfits]
  · intro t ht
    obtain ⟨read, hp, -, hprefix⟩ := exists_read_of_mem_tokenize ht
    have hread : Fits (a ++ [w] ++ read) := by
      have hle := hprefix.length_le
      refine hfits.of_length_le ?_
      simp only [List.length_append] at hle ⊢
      omega
    obtain ⟨hline, hcolumn⟩ := Position.behind_toNat hread
    rw [← hp] at hline hcolumn
    exact ⟨rfl, by simp [Token.behind, Position.behind], hline, hcolumn⟩

/-- A space keeps `<` and `=` apart.  Only the first line of the back part gets other columns. -/
theorem tokenize_append_blank_append_apart :
    Fits (ascii ['<'] ++ [0x20] ++ ascii ['=', '\n', '=']) ∧
      tokenize (ascii ['<'] ++ [0x20] ++ ascii ['=', '\n', '=']) =
        [⟨⟨.operator .lt, ascii ['<']⟩, ⟨0, 1, 1⟩⟩, ⟨⟨.operator .assign, ascii ['=']⟩, ⟨2, 1, 3⟩⟩,
          ⟨⟨.operator .assign, ascii ['=']⟩, ⟨4, 2, 1⟩⟩, ⟨⟨.endOfFile, []⟩, ⟨5, 2, 2⟩⟩] := by
  let l : Layout := ⟨[⟨[], ⟨.operator .lt, ascii ['<']⟩⟩], []⟩
  let m : Layout := ⟨[⟨[], ⟨.operator .assign, ascii ['=']⟩⟩,
    ⟨[newline], ⟨.operator .assign, ascii ['=']⟩⟩], []⟩
  have ha : tokenize (ascii ['<']) = l.tokens := tokenize_bytes (l := l) (by decide)
  have hb : tokenize (ascii ['=', '\n', '=']) = m.tokens := tokenize_bytes (l := m) (by decide)
  obtain ⟨⟨ts, hts, hwhole⟩, -⟩ := tokenize_append_blank_append (ascii ['<'])
    (ascii ['=', '\n', '=']) 0x20 (by decide) (by decide)
  obtain rfl : ts = Layout.tokensAfter [] l.pieces :=
    List.append_cancel_right (hts.symm.trans ha)
  refine ⟨by decide, ?_⟩
  rw [hwhole, hb]
  decide

end LexicalAnalysis
