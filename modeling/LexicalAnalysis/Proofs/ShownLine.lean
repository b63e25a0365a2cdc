/-
# The line that a diagnostic is shown with

A diagnostic has its line from the scanner, which counts newlines as it goes, and is shown with a
line that is looked up by offset among the lines of the source.  The two never drift apart.  Only a
caret that needs too wide a field keeps the line from being printed.

* `Line.find?_token`: the line looked up for a token is the one that its position names, and the
  token is as far into it;
* `Snippet.caretWidth_ofLine_le`: the caret is no further out than its place in the line;
* `lines_agree`: so a diagnostic of a check is printed with its line, under the number that its
  texts give, if its caret fits;
* `print?_eq_none_of_word`: behind a word that fills the widest field it does not fit.
-/
import LexicalAnalysis.Proofs.Alignment
import LexicalAnalysis.Proofs.Exact
import LexicalAnalysis.Text.Utf8.Encode

namespace LexicalAnalysis

/-! ## 1. The line of a token -/

/-- **The line looked up for a token is the one that its position names**, and the token is as many
bytes into it as its column says. -/
theorem Line.find?_token {src : List UInt8} (hsrc : Fits src) {t : Token}
    (ht : t ∈ tokenize src) (he : t.isEndOfFile = false) :
    ∃ line, Line.find? src t.position.offset = some line ∧
      line.number = t.position.line.toNat ∧
      line.indexOf t.position.offset + 1 = t.position.column.toNat := by
  have hlt := offset_lt_length_of_not_isEndOfFile ht he
  obtain ⟨hexact, -⟩ := exact_of_mem_tokenize hsrc ht
  refine ⟨_, Line.find?_of_lt hlt, hexact.line_eq.symm, ?_⟩
  have hle := Position.length_lastLine_le (src.take t.position.offset)
  rw [List.length_take_of_le (Nat.le_of_lt hlt)] at hle
  simp only [hexact.column_eq, Line.indexOf]
  omega

/-- There is no line where a source ends. -/
theorem Line.find?_endOfFile {src : List UInt8} {t : Token} (ht : t ∈ tokenize src)
    (he : t.isEndOfFile = true) : Line.find? src t.position.offset = none :=
  Line.find?_eq_none_iff.mpr (Nat.le_of_eq (offset_eq_length_of_isEndOfFile ht he).symm)

/-! ## 2. How far out a caret is -/

/-- **A caret is no further to the right than its place in the line**, since a text has no more
characters than bytes. -/
theorem Snippet.caretWidth_ofLine_le {src : List UInt8} {offset : Nat} {line : Line}
    (h : Line.find? src offset = some line) :
    (ofLine src offset line).caretWidth ≤ line.indexOf offset + 1 := by
  rw [caretWidth, dashes_ofLine h]
  refine Nat.succ_le_succ (Nat.le_trans (Utf8.length_chars_le _) ?_)
  rw [List.extract_eq_take_drop, List.length_take]
  omega

/-! ## 3. The line of a diagnostic -/

/-- **The scanner's lines are those of the line finder.**  The line looked up for a token is the one
that its position names, and for the end token there is none.  So every diagnostic of a check has
its line, and it is printed with that line if its caret fits, as it does up to the column
`widestField`.  The number before the bar is the one in the diagnostic's own line and the one in its
tip, if that has a number. -/
theorem lines_agree (src : List UInt8) (hsrc : Fits src) :
    (∀ t ∈ tokenize src,
      (t.isEndOfFile = true → Line.find? src t.position.offset = none) ∧
        (t.isEndOfFile = false → ∃ line, Line.find? src t.position.offset = some line ∧
          line.number = t.position.line.toNat ∧
          line.indexOf t.position.offset + 1 = t.position.column.toNat)) ∧
      ∀ name? ds, check (.ofBytes src name?) = .error ds → ∀ d ∈ ds,
        ∃ line s, Line.find? src d.position.offset = some line ∧
          Snippet.at? src d.position.offset = some s ∧
          s.caretWidth ≤ d.position.column.toNat ∧
          (s.caretWidth ≤ widestField → d.Prints src s) ∧
          s.shown = Text.trimEnd (line.text.toList.dropWhile Snippet.isIndent) ∧
          d.display = d.file ++ ":" ++ (s.number.repr ++ ":" ++ d.position.column.toNat.repr) ++
            ": " ++ d.cause.message ∧
          ∀ shown, d.cause = .unrecognised shown →
            d.tip = "unexpected character '" ++ shown ++ "' at line " ++ s.number.repr ++
              ", column " ++ d.position.column.toNat.repr := by
  constructor
  · intro t ht
    exact ⟨Line.find?_endOfFile ht, Line.find?_token hsrc ht⟩
  · intro name? ds hcheck d hd
    obtain ⟨t, ht, hill, rfl⟩ := exists_token_of_check_eq_error hcheck hd
    obtain ⟨line, hline, hnumber, hindex⟩ :=
      Line.find?_token hsrc ht (isEndOfFile_of_isIllegal hill)
    have hwidth := Snippet.caretWidth_ofLine_le hline
    rw [hindex] at hwidth
    refine ⟨line, _, hline, Snippet.at?_of_find? hline, hwidth, Diagnostic.prints_of_find? hline,
      rfl, ?_, ?_⟩
    · simp only [Diagnostic.display, Position.display, Snippet.ofLine, hnumber]
    · intro shown hcause
      have hbytes : Cause.ofBytes t.bytes = .unrecognised shown := hcause
      simp only [Diagnostic.tip, hbytes, Snippet.ofLine, hnumber]

/-- The `#` behind a space on the second line. -/
theorem lines_agree_second_line :
    let src := ascii ['a', '\n', ' ', '#']
    let d : Diagnostic := ⟨.ofBytes (ascii ['#']), ⟨3, 2, 2⟩, "shell"⟩
    Fits src ∧ check (.ofBytes src none) = .error [d] ∧
      ∃ line s, Line.find? src 3 = some line ∧ d.Prints src s ∧
        s.shown = Text.trimEnd (line.text.toList.dropWhile Snippet.isIndent) := by
  let l : Layout := ⟨[⟨[], ⟨.identifier, ascii ['a']⟩⟩,
    ⟨ascii ['\n', ' '], ⟨.illegal, ascii ['#']⟩⟩], []⟩
  have hcheck : check (.ofBytes (ascii ['a', '\n', ' ', '#']) none) =
      .error [⟨.ofBytes (ascii ['#']), ⟨3, 2, 2⟩, "shell"⟩] :=
    check_bytes (l := l) (by decide) "shell"
  obtain ⟨line, s, hline, -, hwidth, hprints, hshown, -⟩ :=
    (lines_agree (ascii ['a', '\n', ' ', '#']) (by decide)).2 none _ hcheck _ (.head _)
  exact ⟨by decide, hcheck, line, s, hline, hprints (Nat.le_trans hwidth (by decide)), hshown⟩

/-! ## 4. A caret that does not fit -/

theorem lt_of_isWordByte : ∀ b : UInt8, isWordByte b = true → b < 0x80 :=
  forall_byte (by decide +kernel)

theorem isIndentByte_eq_false_of_isWordByte :
    ∀ b : UInt8, isWordByte b = true → Snippet.isIndentByte b = false :=
  forall_byte (by decide +kernel)

/-- A word and an at sign behind it. -/
def Layout.marked (word : List UInt8) : Layout :=
  ⟨[⟨[], .ofWord word⟩, ⟨[], ⟨.illegal, [0x40]⟩⟩], []⟩

section Word

variable {word : List UInt8}

theorem Layout.bytes_marked (word : List UInt8) : (marked word).bytes = word ++ [0x40] := by
  simp [marked, Piece.bytes]

theorem Layout.lawful_marked (hw : IsWord word) : (marked word).Lawful := by
  refine Lawful.cons (by simp [IsGap]) (Lexeme.ofWord_legal hw) ?_ (by decide)
  intro c hc
  obtain rfl : 0x40 = c := Option.some.inj hc
  rw [Lexeme.ofWord_joins]
  decide

theorem Layout.tokens_marked (word : List UInt8) :
    (marked word).tokens = [⟨.ofWord word, .start⟩, ⟨⟨.illegal, [0x40]⟩, .after word⟩,
      ⟨⟨.endOfFile, []⟩, .after (word ++ [0x40])⟩] := by
  rw [tokens, bytes_marked]
  simp [marked, tokensAfter, Piece.bytes, Position.after_nil]

/-- The at sign is reported, and nothing else. -/
theorem check_marked (hw : IsWord word) :
    check (.ofBytes (word ++ [0x40]) none) =
      .error [⟨.ofBytes [0x40], .after word, "shell"⟩] := by
  have hword : Diagnostic.ofToken? "shell" ⟨.ofWord word, .start⟩ = none := by
    rw [Diagnostic.ofToken?_eq_none_iff, Token.isIllegal, Lexeme.ofWord]
    split <;> rfl
  have hcollect : Diagnostic.collect "shell" (Layout.marked word).tokens =
      [⟨.ofBytes [0x40], .after word, "shell"⟩] := by
    rw [Layout.tokens_marked, Diagnostic.collect, List.filterMap_cons_none hword]
    rfl
  have hcheck := check_bytes (Layout.lawful_marked hw) "shell"
  rw [Layout.bytes_marked, checkTokens, hcollect] at hcheck
  exact hcheck

/-- The line of a word is counted byte by byte. -/
theorem Snippet.exists_at?_word (hw : IsWord word) {bytes : List UInt8} (hb : bytes ≠ []) :
    ∃ s, at? (word ++ bytes) word.length = some s ∧ s.dashes = word.length := by
  have hbytes := hw.isWordByte
  have hline : newline ∉ word := fun h => absurd (hbytes _ h) (by decide)
  have hindent : word.dropWhile isIndentByte = word := by
    cases word with
    | nil => rfl
    | cons b bs =>
      have hb := isIndentByte_eq_false_of_isWordByte b (hbytes b (by simp))
      exact List.dropWhile_cons_of_neg (by simp [hb])
  refine ⟨_, at?_append word hb, ?_⟩
  rw [Position.lastLine_of_not_mem hline, hindent,
    Utf8.chars_of_lt fun b h => lt_of_isWordByte b (hbytes b h), List.length_map]

/-- **Behind a word that fills the widest field nothing is printed.** -/
theorem print?_eq_none_of_word (hw : IsWord word) (hlong : widestField ≤ word.length) :
    Diagnostic.print? ⟨.ofBytes [0x40], .after word, "shell"⟩ (word ++ [0x40]) = none := by
  obtain ⟨s, hs, hdashes⟩ := Snippet.exists_at?_word hw (List.cons_ne_nil 0x40 [])
  refine Diagnostic.print?_eq_none_iff.mpr ⟨s, hs, ?_⟩
  rw [Snippet.caretWidth, hdashes]
  omega

end Word

theorem isWord_replicate {b : UInt8} (hb : isLetter b = true) (n : Nat) :
    IsWord (List.replicate (n + 1) b) := by
  refine ⟨hb, fun c hc => ?_⟩
  obtain rfl := List.eq_of_mem_replicate hc
  simp [isWordByte, hb]

/-- **Not every diagnostic is printed with its line**: behind 65535 letters the caret needs a field
of 65536. -/
theorem long_word_not_printed :
    let src : List UInt8 := List.replicate 65535 0x61 ++ [0x40]
    Fits src ∧ ∃ d, check (.ofBytes src none) = .error [d] ∧ d.print? src = none ∧
      ∀ s, ¬ d.Prints src s := by
  have hw : IsWord (List.replicate 65535 0x61) := isWord_replicate (by decide) 65534
  have hnone := print?_eq_none_of_word hw (by rw [List.length_replicate]; decide)
  refine ⟨?_, _, check_marked hw, hnone, Diagnostic.not_prints_of_print?_eq_none hnone⟩
  rw [Fits, List.length_append, List.length_replicate]
  decide

end LexicalAnalysis
