/-
# What a token shows of itself

The text of a token is its lexeme: lexemes are ASCII, which is read as it stands, except for an
illegal byte that no character starts with.  A token is printed with its kind, its text in
quotation marks and its place, and each of these shows where it ends, so that what is printed tells
them apart.

* `Lexeme.Legal.isShown`: the bytes of a lexeme that is not illegal are shown as they are;
* `Token.Foreign`: a token whose byte is not ASCII;
* `Token.display_inj`: what is printed tells the kind, the text and the place of any token;
* `tokens_show_themselves`: so it tells the lexeme of a token that was read, unless it is foreign.
-/
import LexicalAnalysis.Proofs.Distinct
import LexicalAnalysis.Text.Unquoted
import LexicalAnalysis.Text.Utf8.Encode

namespace LexicalAnalysis

/-! ## 1. Bytes that are shown as they are -/

/-- A byte that is read as a character which is quoted as it is. -/
def isShown (b : UInt8) : Bool := b < 0x80 && Text.isPlain (Char.ofNat b.toNat)

theorem isShown_of_ascii {b : UInt8} (h : 0x20 ≤ b.toNat ∧ b.toNat ≤ 0x7E) (hmark : b.toNat ≠ 0x22)
    (hslash : b.toNat ≠ 0x5C) : isShown b = true := by
  have hnat : (Char.ofNat b.toNat).toNat = b.toNat :=
    Utf8.toNat_ofNat_of_isValidChar (.inl (by omega))
  have hlt : b < 0x80 := UInt8.lt_iff_toNat_lt.mpr (Nat.lt_of_le_of_lt h.2 (by decide))
  have hplain : Text.isPlain (Char.ofNat b.toNat) = true := by
    refine Text.isPlain_of_ascii ?_ ?_ ?_ <;> rwa [hnat]
  rw [isShown, hplain, decide_eq_true hlt]
  rfl

/-- The bytes of words and symbols are printable, and text is neither quoted nor escaped with one. -/
theorem toNat_of_isWordByte_or_isSymbolByte :
    ∀ b : UInt8, isWordByte b = true ∨ isSymbolByte b = true →
      (0x20 ≤ b.toNat ∧ b.toNat ≤ 0x7E) ∧ b.toNat ≠ 0x22 ∧ b.toNat ≠ 0x5C :=
  forall_byte (by decide +kernel)

theorem isShown_of_isWordByte_or_isSymbolByte {b : UInt8}
    (h : isWordByte b = true ∨ isSymbolByte b = true) : isShown b = true := by
  obtain ⟨hascii, hmark, hslash⟩ := toNat_of_isWordByte_or_isSymbolByte b h
  exact isShown_of_ascii hascii hmark hslash

theorem isSymbolByte_of_mem_operator (o : Operator) {b : UInt8} (hb : b ∈ o.lexeme) :
    isSymbolByte b = true := by
  have hall : o.lexeme.all isSymbolByte = true := by cases o <;> decide
  exact List.all_eq_true.mp hall b hb

theorem isSymbolByte_of_mem_delimiter (d : Delimiter) {b : UInt8} (hb : b ∈ d.lexeme) :
    isSymbolByte b = true := by
  have hall : d.lexeme.all isSymbolByte = true := by cases d <;> decide
  exact List.all_eq_true.mp hall b hb

/-- **A lexeme that is not illegal is shown as it is.** -/
theorem Lexeme.Legal.isShown {x : Lexeme} (h : x.Legal) (hx : x.kind ≠ .illegal) :
    ∀ b ∈ x.bytes, isShown b = true := by
  obtain ⟨kind, bytes⟩ := x
  intro b hb
  apply isShown_of_isWordByte_or_isSymbolByte
  cases kind with
  | illegal => exact absurd rfl hx
  | endOfFile => exact h.elim
  | integerLiteral => exact .inl (isWordByte_of_isDigit (h.2 b hb))
  | identifier => exact .inl (h.1.isWordByte b hb)
  | keyword k =>
    obtain rfl : bytes = k.lexeme := h
    exact .inl ((isWord_lexeme k).isWordByte b hb)
  | operator o =>
    obtain rfl : bytes = o.lexeme := h
    exact .inr (isSymbolByte_of_mem_operator o hb)
  | delimiter d =>
    obtain rfl : bytes = d.lexeme := h
    exact .inr (isSymbolByte_of_mem_delimiter d hb)

/-! ## 2. The text of a token -/

theorem lt_of_isShown {bytes : List UInt8} (h : ∀ b ∈ bytes, isShown b = true) :
    ∀ b ∈ bytes, b < 0x80 := by
  intro b hb
  have hshown := h b hb
  rw [isShown, Bool.and_eq_true, decide_eq_true_eq] at hshown
  exact hshown.1

/-- Bytes that are shown as they are are read as text that is quoted as it is. -/
theorem isPlain_of_isShown {bytes : List UInt8} (h : ∀ b ∈ bytes, isShown b = true) :
    ∀ c ∈ (Utf8.decode bytes).toList, Text.isPlain c = true := by
  rw [Utf8.decode, String.toList_ofList, Utf8.chars_of_lt (lt_of_isShown h)]
  intro c hc
  obtain ⟨b, hb, rfl⟩ := List.mem_map.mp hc
  have hshown := h b hb
  rw [isShown, Bool.and_eq_true] at hshown
  exact hshown.2

/-- A byte that is not ASCII is no character on its own. -/
theorem Utf8.chars_singleton_of_le :
    ∀ b : UInt8, 0x80 ≤ b → Utf8.chars [b] = [Utf8.replacement] :=
  forall_byte (by decide +kernel)

namespace Token

/-- **A foreign token**: an illegal one with a byte that is not ASCII. -/
def Foreign (t : Token) : Prop := t.isIllegal = true ∧ ∃ b ∈ t.bytes, 0x80 ≤ b

variable {src : List UInt8} {t : Token}

/-- The end token has no bytes. -/
theorem bytes_of_isEndOfFile (ht : t ∈ tokenize src) (he : t.isEndOfFile = true) :
    t.bytes = [] := by
  obtain ⟨l, hl, rfl⟩ := Layout.exists_lawful src
  rw [tokenize_bytes hl] at ht
  have hmem : t ∈ l.tokens.filter isEndOfFile := List.mem_filter.mpr ⟨ht, he⟩
  rw [hl.filter_isEndOfFile] at hmem
  obtain rfl := List.mem_singleton.mp hmem
  rfl

/-- A token that is not illegal is shown as it is. -/
theorem isShown_bytes (ht : t ∈ tokenize src) (hill : t.isIllegal = false) :
    ∀ b ∈ t.bytes, isShown b = true := by
  cases he : t.isEndOfFile with
  | true =>
    rw [bytes_of_isEndOfFile ht he]
    intro b hb
    cases hb
  | false =>
    have hkind : t.kind ≠ .illegal := by simpa [isIllegal] using hill
    exact (legal_of_mem_tokenize ht he).isShown hkind

/-- **The text of a token is its lexeme**, unless it is foreign. -/
theorem encode_text (ht : t ∈ tokenize src) (h : ¬ t.Foreign) : Utf8.encode t.text = t.bytes := by
  refine Utf8.encode_decode ?_
  cases hill : t.isIllegal with
  | true =>
    intro b hb
    by_contra hge
    exact h ⟨hill, b, hb, UInt8.not_lt.mp hge⟩
  | false => exact lt_of_isShown (isShown_bytes ht hill)

/-- A foreign token is a character that says so. -/
theorem Foreign.text_eq (ht : t ∈ tokenize src) (h : t.Foreign) : t.text = "\uFFFD" := by
  obtain ⟨hill, c, hc, hle⟩ := h
  obtain ⟨b, hb, -⟩ := exists_byte_of_isIllegal ht hill
  rw [hb] at hc
  obtain rfl := List.mem_singleton.mp hc
  rw [text, hb, Utf8.decode, Utf8.chars_singleton_of_le c hle]
  rfl

/-! ## 3. What is printed for a token -/

/-- **A token is printed with its lexeme as it stands**, if it is neither illegal nor the end. -/
theorem display_eq (ht : t ∈ tokenize src) (hill : t.isIllegal = false)
    (he : t.isEndOfFile = false) :
    t.display = t.kind.name ++ "(\"" ++ t.text ++ "\") @ " ++ t.position.display := by
  have hplain := isPlain_of_isShown (isShown_bytes ht hill)
  rw [display, he, if_neg (by decide), text, Text.quote_of_plain hplain, ← String.toList_inj]
  simp

end Token

theorem Position.display_inj {p q : Position} (h : p.display = q.display) :
    p.line = q.line ∧ p.column = q.column := by
  -- a place is read up to a character that is no digit, so one is put behind both
  have hspace := congrArg (fun s : String => s.toList ++ [' ']) h
  exact display_append_inj (by decide) (by decide) hspace

/-- No name of a kind has a parenthesis or a space in it. -/
theorem Kind.mem_name (k : Kind) : ∀ c ∈ k.name.toList, (c != '(' && c != ' ') = true := by
  have hall : ∀ k ∈ all, (k.name.toList.all fun c => c != '(' && c != ' ') = true := by
    decide +kernel
  exact List.all_eq_true.mp (hall k (mem_all k))

namespace Token

theorem toList_display_of_isEndOfFile {t : Token} (he : t.isEndOfFile = true) :
    t.display.toList =
      t.kind.name.toList ++ ' ' :: '@' :: ' ' :: t.position.display.toList := by
  rw [display, if_pos he]
  simp

theorem toList_display {t : Token} (he : t.isEndOfFile = false) :
    t.display.toList = t.kind.name.toList ++ '(' ::
      ((Text.quote t.text).toList ++ ')' :: ' ' :: '@' :: ' ' :: t.position.display.toList) := by
  rw [display, he, if_neg (by decide)]
  simp

/-- The name of the kind ends at a parenthesis or a space. -/
theorem exists_toList_display (t : Token) :
    ∃ c rest, (c != '(' && c != ' ') = false ∧
      t.display.toList = t.kind.name.toList ++ c :: rest := by
  cases he : t.isEndOfFile with
  | true => exact ⟨' ', _, by decide, toList_display_of_isEndOfFile he⟩
  | false => exact ⟨'(', _, by decide, toList_display he⟩

theorem kind_of_display {t u : Token} (h : t.display = u.display) : t.kind = u.kind := by
  obtain ⟨c, rest, hc, ht⟩ := t.exists_toList_display
  obtain ⟨d, rest', hd, hu⟩ := u.exists_toList_display
  rw [h, hu] at ht
  obtain ⟨hname, -⟩ := Text.append_cons_inj u.kind.mem_name t.kind.mem_name hd hc ht
  exact Kind.name_injective (String.toList_inj.mp hname.symm)

/-- **What is printed for a token tells its kind, its place and its text**, whatever token it is. -/
theorem display_inj {t u : Token} (h : t.display = u.display) :
    t.kind = u.kind ∧ t.position.line = u.position.line ∧
      t.position.column = u.position.column ∧ (t.isEndOfFile = false → t.text = u.text) := by
  have hkind := kind_of_display h
  have hend : t.isEndOfFile = u.isEndOfFile := by rw [isEndOfFile, isEndOfFile, hkind]
  have hchars := congrArg String.toList h
  cases he : t.isEndOfFile with
  | true =>
    rw [toList_display_of_isEndOfFile he, toList_display_of_isEndOfFile (hend.symm.trans he), hkind]
      at hchars
    have hplace := List.append_cancel_left hchars
    simp only [List.cons.injEq, true_and, String.toList_inj] at hplace
    obtain ⟨hline, hcolumn⟩ := Position.display_inj hplace
    exact ⟨hkind, hline, hcolumn, fun hnot => absurd hnot (by decide)⟩
  | false =>
    rw [toList_display he, toList_display (hend.symm.trans he), hkind] at hchars
    have hquoted := (List.cons.inj (List.append_cancel_left hchars)).2
    obtain ⟨htext, hrest⟩ := Text.quote_append_inj hquoted
    simp only [List.cons.injEq, true_and, String.toList_inj] at hrest
    obtain ⟨hline, hcolumn⟩ := Position.display_inj hrest
    exact ⟨hkind, hline, hcolumn, fun _ => htext⟩

/-! ## 4. Tokens of any two sources -/

/-- What has the text of a foreign token is foreign: that text is no single byte. -/
theorem Foreign.of_text {src src' : List UInt8} {t u : Token} (h : t.Foreign)
    (ht : t ∈ tokenize src) (hu : u ∈ tokenize src') (hkind : t.kind = u.kind)
    (htext : t.text = u.text) : u.Foreign := by
  by_contra hnot
  have hill : u.isIllegal = true := by
    rw [isIllegal, ← hkind]
    exact h.1
  obtain ⟨b, hb, -⟩ := exists_byte_of_isIllegal hu hill
  have hbytes : Utf8.encode "\uFFFD" = [b] := by
    rw [← h.text_eq ht, htext, encode_text hu hnot, hb]
  have hlength : (Utf8.encode "\uFFFD").length = 3 := by decide +kernel
  rw [hbytes] at hlength
  cases hlength

/-- **Two tokens of one kind and one text have one lexeme**, unless both are foreign. -/
theorem bytes_of_text {src src' : List UInt8} {t u : Token} (ht : t ∈ tokenize src)
    (hu : u ∈ tokenize src') (hkind : t.kind = u.kind) (htext : t.text = u.text) :
    t.bytes = u.bytes ∨ t.Foreign ∧ u.Foreign := by
  by_cases hforeign : t.Foreign
  · exact .inr ⟨hforeign, hforeign.of_text ht hu hkind htext⟩
  · have hnot : ¬ u.Foreign := fun h => hforeign (h.of_text hu ht hkind.symm htext.symm)
    left
    rw [← encode_text ht hforeign, htext, encode_text hu hnot]

end Token

/-- **What a token shows of itself is faithful.**  The text of a token that was read from any source
is written with the bytes of its lexeme; only an illegal one whose byte is not ASCII has the
replacement character for its text.  A token that is neither illegal nor the end of the source is
printed as its kind, its lexeme in quotation marks with nothing escaped, and its line and column.
So if two tokens, of the same source or of two, are printed in the same way, then they are of one
kind, line and column; and they have the same lexeme, unless neither is ASCII. -/
theorem tokens_show_themselves (src : List UInt8) (t : Token) (ht : t ∈ tokenize src) :
    (¬ t.Foreign → t.text.toUTF8.data.toList = t.bytes) ∧ (t.Foreign → t.text = "\uFFFD") ∧
      (t.isIllegal = false → t.isEndOfFile = false →
        t.display = t.kind.name ++ "(\"" ++ t.text ++ "\") @ " ++
          (t.position.line.toNat.repr ++ ":" ++ t.position.column.toNat.repr)) ∧
      ∀ (src' : List UInt8) (u : Token), u ∈ tokenize src' → t.display = u.display →
        t.kind = u.kind ∧ t.position.line = u.position.line ∧
          t.position.column = u.position.column ∧
          (t.bytes = u.bytes ∨ t.Foreign ∧ u.Foreign) := by
  refine ⟨Token.encode_text ht, Token.Foreign.text_eq ht, Token.display_eq ht, ?_⟩
  intro src' u hu h
  obtain ⟨hkind, hline, hcolumn, htext⟩ := Token.display_inj h
  refine ⟨hkind, hline, hcolumn, ?_⟩
  cases he : t.isEndOfFile with
  | true =>
    have he' : u.isEndOfFile = true := by rw [Token.isEndOfFile, ← hkind]; exact he
    left
    rw [Token.bytes_of_isEndOfFile ht he, Token.bytes_of_isEndOfFile hu he']
  | false => exact Token.bytes_of_text ht hu hkind (htext he)

/-- A quotation mark, whose text is itself; and two bytes of two sources, neither of which is ASCII,
that are printed in the same way. -/
theorem tokens_show_themselves_foreign :
    let mark : Token := ⟨⟨.illegal, [0x22]⟩, ⟨0, 1, 1⟩⟩
    let high : Token := ⟨⟨.illegal, [0xFF]⟩, ⟨1, 1, 2⟩⟩
    let low : Token := ⟨⟨.illegal, [0x80]⟩, ⟨1, 1, 2⟩⟩
    mark ∈ tokenize [0x22, 0xFF] ∧ high ∈ tokenize [0x22, 0xFF] ∧ low ∈ tokenize [0x20, 0x80] ∧
      mark.text.toUTF8.data.toList = [0x22] ∧ high.display = low.display ∧
      high.bytes ≠ low.bytes ∧ high.text = "\uFFFD" ∧ low.Foreign := by
  intro mark high low
  have hmark : mark ∈ tokenize [0x22, 0xFF] := by decide +kernel
  have hhigh : high ∈ tokenize [0x22, 0xFF] := by decide +kernel
  have hlow : low ∈ tokenize [0x20, 0x80] := by decide +kernel
  have hdisplay : high.display = low.display := by decide +kernel
  obtain ⟨htext, -⟩ := tokens_show_themselves _ mark hmark
  obtain ⟨-, hreplaced, -, hpairs⟩ := tokens_show_themselves _ high hhigh
  obtain ⟨-, -, -, hbytes⟩ := hpairs _ low hlow hdisplay
  obtain ⟨hforeign, hforeign'⟩ := hbytes.resolve_left (by decide)
  have hplain : ¬ mark.Foreign := by
    rintro ⟨-, b, hb, hle⟩
    obtain rfl := List.mem_singleton.mp hb
    exact absurd hle (by decide)
  exact ⟨hmark, hhigh, hlow, htext hplain, hdisplay, by decide, hreplaced hforeign, hforeign'⟩

end LexicalAnalysis
