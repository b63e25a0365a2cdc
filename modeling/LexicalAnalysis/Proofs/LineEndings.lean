/-
# Carriage returns at the ends of lines

A source may end its lines with a newline, or with a carriage return and a newline.  The return is
a blank in front of a newline: no lexeme reaches it, no column is counted behind it, a character
that breaks off at the end of a line breaks off at either byte, and what is shown of a line is cut
before it.  So nothing but offsets can tell the two sources apart.

* `crlf`: a text with the returns put in;
* `tokenize_crlf`: it has the same tokens, at the offsets of the longer text;
* `Snippet.at?_crlf`: every offset shows the same snippet in it, inside the source or behind it;
* `line_endings_invisible`: so checks give the same verdicts, and their diagnostics read the same.
-/
import LexicalAnalysis.Proofs.Snippet

namespace LexicalAnalysis

/-! ## 1. Texts with returns -/

/-- The carriage return. -/
def carriageReturn : UInt8 := 0x0D

/-- A text with a carriage return in front of every newline. -/
def crlf (bytes : List UInt8) : List UInt8 :=
  bytes.flatMap fun b => if b = newline then [carriageReturn, newline] else [b]

@[simp] theorem crlf_nil : crlf [] = [] := rfl

@[simp] theorem crlf_append (xs ys : List UInt8) : crlf (xs ++ ys) = crlf xs ++ crlf ys :=
  List.flatMap_append

theorem crlf_cons_newline (bytes : List UInt8) :
    crlf (newline :: bytes) = carriageReturn :: newline :: crlf bytes := rfl

theorem crlf_cons_of_ne {b : UInt8} (hb : b ≠ newline) (bytes : List UInt8) :
    crlf (b :: bytes) = b :: crlf bytes := by
  rw [crlf, List.flatMap_cons, if_neg hb]
  rfl

theorem crlf_of_not_mem {bytes : List UInt8} (h : newline ∉ bytes) : crlf bytes = bytes := by
  induction bytes with
  | nil => rfl
  | cons b bytes ih =>
    obtain ⟨hb, hbytes⟩ : newline ≠ b ∧ newline ∉ bytes := by simpa using h
    rw [crlf_cons_of_ne (Ne.symm hb), ih hbytes]

theorem crlf_eq_nil_iff {bytes : List UInt8} : crlf bytes = [] ↔ bytes = [] := by
  cases bytes with
  | nil => simp
  | cons b bytes =>
    by_cases hb : b = newline
    · subst hb
      simp [crlf_cons_newline]
    · simp [crlf_cons_of_ne hb]

/-- There are as many returns as there are newlines. -/
theorem length_crlf (bytes : List UInt8) :
    (crlf bytes).length = bytes.length + bytes.count newline := by
  induction bytes with
  | nil => rfl
  | cons b bytes ih =>
    by_cases hb : b = newline
    · subst hb
      simp only [crlf_cons_newline, List.length_cons, ih, List.count_cons_self]
      omega
    · simp only [crlf_cons_of_ne hb, List.length_cons, ih, List.count_cons_of_ne hb]
      omega

theorem count_newline_crlf (bytes : List UInt8) :
    (crlf bytes).count newline = bytes.count newline := by
  induction bytes with
  | nil => rfl
  | cons b bytes ih =>
    by_cases hb : b = newline
    · subst hb
      have hne : carriageReturn ≠ newline := by decide
      rw [crlf_cons_newline, List.count_cons_of_ne hne, List.count_cons_self, ih,
        List.count_cons_self]
    · rw [crlf_cons_of_ne hb, List.count_cons_of_ne hb, List.count_cons_of_ne hb, ih]

namespace Position

/-- **Behind the last newline nothing has changed.** -/
theorem lastLine_crlf (read : List UInt8) : lastLine (crlf read) = lastLine read := by
  obtain ⟨front, hread, hnot, hfront⟩ := exists_eq_append_lastLine read
  rcases hfront with rfl | ⟨lines, rfl⟩
  · rw [List.nil_append] at hread
    rw [crlf_of_not_mem (hread ▸ hnot)]
  · calc lastLine (crlf read)
        = lastLine ((crlf lines ++ [carriageReturn]) ++ newline :: lastLine read) := by
          rw [hread, crlf_append, crlf_append, ← hread, crlf_of_not_mem hnot, crlf_cons_newline]
          simp
      _ = lastLine read := by
          rw [lastLine_append_newline_cons, lastLine_of_not_mem hnot]

/-- Where a place of a source is once the returns are put in. -/
def inCrlf (src : List UInt8) (p : Position) : Position :=
  { p with offset := p.offset + (src.take p.offset).count newline }

theorem after_crlf {read src : List UInt8} (h : read <+: src) :
    after (crlf read) = (after read).inCrlf src := by
  rw [after, length_crlf, count_newline_crlf, lastLine_crlf, inCrlf, after_offset,
    ← List.prefix_iff_eq_take.mp h]
  rfl

end Position

/-! ## 2. Tokens -/

/-- A token, once the returns are put into its source. -/
def Token.inCrlf (src : List UInt8) (t : Token) : Token :=
  { t with position := t.position.inCrlf src }

/-- A piece with the returns put into its gap. -/
def Piece.toCrlf (p : Piece) : Piece := ⟨crlf p.gap, p.lexeme⟩

theorem Piece.bytes_toCrlf {p : Piece} (h : p.lexeme.Legal) : p.toCrlf.bytes = crlf p.bytes := by
  rw [bytes, bytes, crlf_append, crlf_of_not_mem h.newline_not_mem]
  rfl

theorem isGap_crlf {gap : List UInt8} (h : IsGap gap) : IsGap (crlf gap) := by
  intro c hc
  obtain ⟨b, hb, hmem⟩ := List.mem_flatMap.mp hc
  split at hmem
  · have hends : c = carriageReturn ∨ c = newline := by simpa using hmem
    rcases hends with rfl | rfl <;> decide
  · rw [List.mem_singleton.mp hmem]
    exact h b hb

namespace Layout

/-- A layout with the returns put into its gaps. -/
def toCrlf (l : Layout) : Layout := ⟨l.pieces.map Piece.toCrlf, crlf l.tail⟩

/-- No gap is lost and none is opened. -/
theorem allClear_toCrlf {ps : List Piece} (h : AllClear ps) :
    AllClear (ps.map Piece.toCrlf) := by
  induction ps with
  | nil => trivial
  | cons p ps ih =>
    cases ps with
    | nil => trivial
    | cons q ps => exact ⟨fun hgap => h.1 (crlf_eq_nil_iff.mp hgap), ih h.2⟩

theorem Lawful.toCrlf {l : Layout} (h : l.Lawful) : l.toCrlf.Lawful where
  gap_blank q hq := by
    obtain ⟨p, hp, rfl⟩ := List.mem_map.mp hq
    exact isGap_crlf (h.gap_blank p hp)
  lexeme_legal q hq := by
    obtain ⟨p, hp, rfl⟩ := List.mem_map.mp hq
    exact h.lexeme_legal p hp
  tail_blank := isGap_crlf h.tail_blank
  all_clear := allClear_toCrlf h.all_clear

/-- Putting the returns into the gaps puts them into the source, since no lexeme has a newline. -/
theorem bytes_toCrlf {l : Layout} (h : l.Lawful) : l.toCrlf.bytes = crlf l.bytes := by
  obtain ⟨ps, tail⟩ := l
  induction ps with
  | nil => rfl
  | cons p ps ih =>
    have hrest : bytes ⟨ps.map Piece.toCrlf, crlf tail⟩ = crlf (bytes ⟨ps, tail⟩) := ih h.tail
    rw [toCrlf, List.map_cons, bytes_cons, bytes_cons, crlf_append,
      Piece.bytes_toCrlf h.legal_head, hrest]

theorem tokensAfter_toCrlf {src read : List UInt8} {ps : List Piece}
    (hx : ∀ p ∈ ps, p.lexeme.Legal) (hsrc : read ++ ps.flatMap Piece.bytes <+: src) :
    tokensAfter (crlf read) (ps.map Piece.toCrlf) =
      (tokensAfter read ps).map (Token.inCrlf src) := by
  induction ps generalizing read with
  | nil => rfl
  | cons p ps ih =>
    rw [List.flatMap_cons, ← List.append_assoc] at hsrc
    have hplace : read ++ p.gap <+: src := by
      refine List.IsPrefix.trans ?_ hsrc
      rw [Piece.bytes, List.append_assoc, List.append_assoc, ← List.append_assoc read]
      exact List.prefix_append _ _
    have hrest := ih (fun q hq => hx q (by simp [hq])) hsrc
    rw [crlf_append, ← Piece.bytes_toCrlf (hx p (by simp))] at hrest
    rw [List.map_cons, tokensAfter, tokensAfter, List.map_cons, hrest, Piece.toCrlf, ← crlf_append,
      Position.after_crlf hplace]
    rfl

end Layout

/-- **The returns do not change a token**, except for its offset. -/
theorem tokenize_crlf (src : List UInt8) :
    tokenize (crlf src) = (tokenize src).map (Token.inCrlf src) := by
  obtain ⟨l, hl, rfl⟩ := Layout.exists_lawful src
  have hpieces : [] ++ l.pieces.flatMap Piece.bytes <+: l.bytes := List.prefix_append _ _
  have htokens := Layout.tokensAfter_toCrlf hl.lexeme_legal hpieces
  rw [← Layout.bytes_toCrlf hl, tokenize_bytes hl.toCrlf, tokenize_bytes hl, Layout.tokens,
    Layout.tokens, Layout.bytes_toCrlf hl, List.map_append, ← htokens,
    Position.after_crlf List.prefix_rfl]
  rfl

/-! ## 3. Diagnostics -/

/-- A diagnostic, once the returns are put into its source. -/
def Diagnostic.inCrlf (src : List UInt8) (d : Diagnostic) : Diagnostic :=
  { d with position := d.position.inCrlf src }

theorem Diagnostic.collect_inCrlf (src : List UInt8) (file : String) (ts : List Token) :
    collect file (ts.map (Token.inCrlf src)) = (collect file ts).map (inCrlf src) := by
  rw [collect_eq_map, collect_eq_map, List.filter_map, List.map_map, List.map_map]
  rfl

/-- **The verdict is the same.** -/
theorem check_crlf (name : String) (src : List UInt8) :
    check ⟨name, crlf src⟩ =
      match check ⟨name, src⟩ with
      | .ok ts => .ok (ts.map (Token.inCrlf src))
      | .error ds => .error (ds.map (Diagnostic.inCrlf src)) := by
  simp only [check, checkTokens, Source.tokens, tokenize_crlf, Diagnostic.collect_inCrlf]
  cases Diagnostic.collect name (tokenize src) <;> rfl

/-! ## 4. Snippets -/

/-- The first lines of both texts are the same one, with two endings, if it is ended at all. -/
theorem exists_firstLine_crlf (bytes : List UInt8) :
    ∃ body, (firstLine bytes = body ∧ firstLine (crlf bytes) = body) ∨
      (firstLine bytes = body ++ [newline] ∧
        firstLine (crlf bytes) = body ++ [carriageReturn, newline]) := by
  induction bytes with
  | nil => exact ⟨[], .inl ⟨rfl, rfl⟩⟩
  | cons b bytes ih =>
    by_cases hb : b = newline
    · subst hb
      exact ⟨[], .inr ⟨rfl, rfl⟩⟩
    · rw [crlf_cons_of_ne hb, firstLine, firstLine, if_neg hb, if_neg hb]
      obtain ⟨body, ⟨hline, hline'⟩ | ⟨hline, hline'⟩⟩ := ih
      · exact ⟨b :: body, .inl ⟨by rw [hline], by rw [hline']⟩⟩
      · exact ⟨b :: body, .inr ⟨by rw [hline]; rfl, by rw [hline']; rfl⟩⟩

/-- Either ending is two characters at most, wherever the text in front of it breaks off. -/
theorem Utf8.chars_append_ending (body : List UInt8) :
    chars (body ++ [newline]) = chars body ++ ['\n'] ∧
      chars (body ++ [carriageReturn, newline]) = chars body ++ ['\r', '\n'] := by
  constructor
  · exact chars_append_cons_of_lt (by decide) body []
  · exact chars_append_cons_of_lt (by decide) body [newline]

namespace Snippet

/-- White space that indents nothing is not shown at the end of a line. -/
theorem trimEnd_dropWhile_append {c : Char} {white : List Char} (hc : isIndent c = false)
    (hwhite : (c :: white).all Text.isWhiteSpace = true) (cs : List Char) :
    Text.trimEnd ((cs ++ c :: white).dropWhile isIndent) =
      Text.trimEnd (cs.dropWhile isIndent) := by
  rw [dropWhile_append_cons hc, Text.trimEnd_append (List.all_eq_true.mp hwhite)]

/-- So no ending of a line is shown. -/
theorem trimEnd_firstLine_crlf (here bytes : List UInt8) :
    Text.trimEnd ((Utf8.chars (here ++ firstLine (crlf bytes))).dropWhile isIndent) =
      Text.trimEnd ((Utf8.chars (here ++ firstLine bytes)).dropWhile isIndent) := by
  obtain ⟨body, ⟨hline, hline'⟩ | ⟨hline, hline'⟩⟩ := exists_firstLine_crlf bytes
  · rw [hline, hline']
  · obtain ⟨hnewline, hreturn⟩ := Utf8.chars_append_ending (here ++ body)
    rw [hline, hline', ← List.append_assoc, ← List.append_assoc, hnewline, hreturn,
      trimEnd_dropWhile_append (by decide) (by decide),
      trimEnd_dropWhile_append (by decide) (by decide)]

/-- **Every offset shows the same snippet.** -/
theorem at?_crlf (src : List UInt8) (offset : Nat) :
    at? (crlf src) (offset + (src.take offset).count newline) = at? src offset := by
  rcases Nat.lt_or_ge offset src.length with hlt | hge
  · obtain ⟨read, bytes, rfl, rfl⟩ : ∃ read bytes, src = read ++ bytes ∧ offset = read.length :=
      ⟨src.take offset, src.drop offset, (List.take_append_drop offset src).symm,
        (List.length_take_of_le (Nat.le_of_lt hlt)).symm⟩
    have hne : bytes ≠ [] := by
      rintro rfl
      simp at hlt
    rw [List.take_left, ← length_crlf, crlf_append, at?_append _ (mt crlf_eq_nil_iff.mp hne),
      at?_append _ hne, count_newline_crlf, Position.lastLine_crlf, trimEnd_firstLine_crlf]
  · have hbehind : (crlf src).length ≤ offset + (src.take offset).count newline := by
      rw [length_crlf, List.take_of_length_le hge]
      omega
    rw [at?_eq_none hbehind, at?_eq_none hge]

end Snippet

theorem Diagnostic.render_inCrlf (src : List UInt8) (d : Diagnostic) :
    (d.inCrlf src).render (crlf src) = d.render src := by
  have hsnippet := Snippet.at?_crlf src d.position.offset
  rw [render, render, inCrlf, Position.inCrlf, hsnippet]
  rfl

/-! ## 5. Sources with either line ending -/

/-- **Nothing but offsets tells the line endings apart.**  A source with a carriage return put in
front of every newline has the same tokens, each as many bytes further on as there are newlines in
front of it.  It is accepted if it is accepted without them; and if it is rejected, then with the
same diagnostics, one by one: their names, tips and one-line texts agree, and each is shown in its
own source as the other one is in the other. -/
theorem line_endings_invisible (src : List UInt8) (name? : Option String) :
    tokenize (crlf src) = (tokenize src).map (fun t =>
        ⟨t.toLexeme, t.position.offset + (src.take t.position.offset).count newline,
          t.position.line, t.position.column⟩) ∧
      ((∃ ts, check (.ofBytes (crlf src) name?) = .ok ts) ↔
        ∃ ts, check (.ofBytes src name?) = .ok ts) ∧
      ∀ ds, check (.ofBytes src name?) = .error ds →
        ∃ ds', check (.ofBytes (crlf src) name?) = .error ds' ∧
          List.Forall₂ (fun d d' : Diagnostic => d'.cause.name = d.cause.name ∧ d'.tip = d.tip ∧
            d'.display = d.display ∧ d'.render (crlf src) = d.render src) ds ds' := by
  have hcheck := check_crlf (name?.getD Source.defaultName) src
  refine ⟨tokenize_crlf src, ?_, ?_⟩
  · rw [Source.ofBytes, Source.ofBytes, hcheck]
    cases check ⟨name?.getD Source.defaultName, src⟩ with
    | ok ts => exact ⟨fun _ => ⟨ts, rfl⟩, fun _ => ⟨_, rfl⟩⟩
    | error ds => simp
  · intro ds hds
    rw [Source.ofBytes] at hds
    rw [hds] at hcheck
    refine ⟨ds.map (Diagnostic.inCrlf src), hcheck, ?_⟩
    rw [List.forall₂_map_right_iff, List.forall₂_same]
    intro d _
    exact ⟨rfl, rfl, rfl, d.render_inCrlf src⟩

/-- The first byte of a character that breaks off at the end of its line, and a mark on the next
one. -/
theorem line_endings_invisible_broken :
    let src : List UInt8 := [0xC3, 0x0A, 0x09, 0x40]
    let d : Diagnostic := ⟨.ofBytes [0xC3], ⟨0, 1, 1⟩, "shell"⟩
    let e : Diagnostic := ⟨.ofBytes [0x40], ⟨3, 2, 2⟩, "shell"⟩
    check (.ofBytes src none) = .error [d, e] ∧
      ∃ ds', check (.ofBytes [0xC3, 0x0D, 0x0A, 0x09, 0x40] none) = .error ds' ∧
        List.Forall₂ (fun d d' : Diagnostic => d'.cause.name = d.cause.name ∧ d'.tip = d.tip ∧
          d'.display = d.display ∧
          d'.render [0xC3, 0x0D, 0x0A, 0x09, 0x40] = d.render src) [d, e] ds' := by
  let l : Layout := ⟨[⟨[], ⟨.illegal, [0xC3]⟩⟩, ⟨[0x0A, 0x09], ⟨.illegal, [0x40]⟩⟩], []⟩
  have hcheck : check (.ofBytes [0xC3, 0x0A, 0x09, 0x40] none) =
      .error [⟨.ofBytes [0xC3], ⟨0, 1, 1⟩, "shell"⟩, ⟨.ofBytes [0x40], ⟨3, 2, 2⟩, "shell"⟩] :=
    check_bytes (l := l) (by decide) "shell"
  exact ⟨hcheck, (line_endings_invisible [0xC3, 0x0A, 0x09, 0x40] none).2.2 _ hcheck⟩

end LexicalAnalysis
