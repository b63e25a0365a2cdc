/-
# The scanner reads the longest lexeme

`Lexeme.first` and the grammar agree, in three steps:

* `first_legal`: what is read at a byte that is no blank is a lexeme of its kind;
* `first_not_joins`: it does not go on in the byte after it;
* `first_append`: a legal lexeme that ends so is what is read, so there is no other.
-/
import LexicalAnalysis.Grammar.Basic
import Mathlib.Data.List.TakeWhile

namespace LexicalAnalysis.Lexeme

/-! ## 1. What is read is legal -/

theorem legal_of_lexeme? {k : Kind} {bytes : List UInt8} (h : k.lexeme? = some bytes) :
    Legal ⟨k, bytes⟩ := by
  cases k <;> simp_all [Kind.lexeme?, Legal]

theorem ofWord_legal {word : List UInt8} (h : IsWord word) : (ofWord word).Legal := by
  simp only [ofWord]
  split
  · next k hk => exact (Keyword.ofLexeme?_eq_some_iff.mp hk).symm
  · next hk => exact ⟨h, Keyword.ofLexeme?_eq_none_iff.mp hk⟩

/-- A byte that starts neither a gap nor a legal lexeme is a stray. -/
theorem illegal_byte :
    ∀ b : UInt8, isWordByte b = false → isBlank b = false → Kind.symbol? [b] = none →
      b = exclamation ∨ isAlphabetic b = false :=
  forall_byte (by decide +kernel)

theorem ofSymbol_legal {b : UInt8} {rest : List UInt8} (hw : isWordByte b = false)
    (hb : isBlank b = false) : (ofSymbol b rest).Legal := by
  simp only [ofSymbol]
  split
  · next k hk => exact legal_of_lexeme? (Kind.symbol?_eq_some_iff.mp hk).2
  · split
    · next k hk => exact legal_of_lexeme? (Kind.symbol?_eq_some_iff.mp hk).2
    · next hk => exact ⟨b, rfl, illegal_byte b hw hb hk⟩

/-- **What is read is a lexeme of its kind.** -/
theorem first_legal {b : UInt8} (rest : List UInt8) (hb : isBlank b = false) :
    (first b rest).Legal := by
  rcases letter_or_digit_or_other b with h | h | h
  · rw [first_of_isLetter rest h]
    exact ofWord_legal ⟨h, fun c hc => List.mem_takeWhile_imp hc⟩
  · rw [first_of_isDigit rest h]
    refine ⟨by simp, fun c hc => ?_⟩
    rcases List.mem_cons.mp hc with rfl | hc
    · exact h
    · exact List.mem_takeWhile_imp hc
  · rw [first_of_isWordByte_eq_false rest h]
    exact ofSymbol_legal h hb

/-! ## 2. What is read is the longest -/

theorem drop_length_takeWhile (p : UInt8 → Bool) (bs : List UInt8) :
    bs.drop (bs.takeWhile p).length = bs.dropWhile p := by
  induction bs with
  | nil => rfl
  | cons b bs ih =>
    simp only [List.takeWhile_cons, List.dropWhile_cons]
    split
    · exact ih
    · rfl

theorem of_head?_dropWhile {α : Type} {p : α → Bool} {bs : List α} {c : α}
    (h : (bs.dropWhile p).head? = some c) : p c = false := by
  have hn := List.head?_dropWhile_not p bs
  rw [h] at hn
  simpa using hn

theorem ofWord_joins (word : List UInt8) (c : UInt8) : (ofWord word).joins c = isWordByte c := by
  simp only [ofWord]; split <;> rfl

/-- An equals sign after a symbol that it extends is read with it. -/
theorem symbol?_of_isExtensible :
    ∀ b : UInt8, isExtensible [b] = true → Kind.symbol? [b, equals] ≠ none :=
  forall_byte (by decide +kernel)

theorem joins_singleton_of_symbol?_eq_none {kind : Kind} {b c : UInt8} {rest : List UInt8}
    (hk : kind ∈ Kind.symbols ∨ kind = .illegal) (hn : Kind.symbol? (b :: rest.take 1) = none)
    (hc : rest.head? = some c) : Lexeme.joins ⟨kind, [b]⟩ c = false := by
  have hj : Lexeme.joins ⟨kind, [b]⟩ c = (isExtensible [b] && c == equals) := by
    cases kind <;> simp_all [joins, Kind.symbols]
  rw [hj]
  cases rest with
  | nil => cases hc
  | cons d rest =>
    cases hc
    by_cases he : isExtensible [b] = true
    · have hne : c ≠ equals := fun e => symbol?_of_isExtensible b he (e ▸ hn)
      simp [hne]
    · simp [he]

theorem joins_pair {kind : Kind} {b d c : UInt8} (hk : kind ∈ Kind.symbols) :
    Lexeme.joins ⟨kind, [b, d]⟩ c = false := by
  have he : isExtensible [b, d] = false := by simp [isExtensible, ascii]
  cases kind <;> simp_all [joins, Kind.symbols]

theorem ofSymbol_not_joins {b c : UInt8} {rest : List UInt8}
    (h : ((b :: rest).drop (ofSymbol b rest).bytes.length).head? = some c) :
    (ofSymbol b rest).joins c = false := by
  simp only [ofSymbol] at h ⊢
  split at h
  · next k hk =>
    cases rest with
    | nil => simp at h
    | cons d rest => exact joins_pair (Kind.symbol?_eq_some_iff.mp hk).1
  · next hn =>
    split at h
    · next k hk =>
      exact joins_singleton_of_symbol?_eq_none (.inl (Kind.symbol?_eq_some_iff.mp hk).1) hn h
    · exact joins_singleton_of_symbol?_eq_none (.inr rfl) hn h

/-- **What is read does not go on in the byte after it.** -/
theorem first_not_joins {b c : UInt8} {rest : List UInt8}
    (h : ((b :: rest).drop (first b rest).bytes.length).head? = some c) :
    (first b rest).joins c = false := by
  rcases letter_or_digit_or_other b with hb | hb | hb
  · rw [first_of_isLetter rest hb] at h ⊢
    rw [ofWord_bytes, List.length_cons, List.drop_succ_cons, drop_length_takeWhile] at h
    rw [ofWord_joins]
    exact of_head?_dropWhile h
  · rw [first_of_isDigit rest hb] at h ⊢
    rw [List.length_cons, List.drop_succ_cons, drop_length_takeWhile] at h
    exact of_head?_dropWhile h
  · rw [first_of_isWordByte_eq_false rest hb] at h ⊢
    exact ofSymbol_not_joins h

/-! ## 3. Nothing else could be read -/

theorem takeWhile_append_of_head? {p : UInt8 → Bool} {bs rest : List UInt8}
    (hb : ∀ b ∈ bs, p b = true) (hr : ∀ c, rest.head? = some c → p c = false) :
    (bs ++ rest).takeWhile p = bs := by
  rw [List.takeWhile_append_of_pos hb]
  cases rest with
  | nil => simp
  | cons c rest => simp [hr c rfl]

theorem first_word_append {b : UInt8} {bs rest : List UInt8} (hw : IsWord (b :: bs))
    (hr : ∀ c, rest.head? = some c → isWordByte c = false) :
    first b (bs ++ rest) = ofWord (b :: bs) := by
  rw [first_of_isLetter _ hw.1, takeWhile_append_of_head? hw.2 hr]

theorem isWord_lexeme (k : Keyword) : IsWord k.lexeme := by
  cases k <;> exact ⟨by decide, List.all_eq_true.mp (by decide)⟩

/-- The symbols of two bytes are those that an equals sign completes. -/
theorem symbol?_pair_eq_none {b c : UInt8} (h : (isExtensible [b] && c == equals) = false) :
    Kind.symbol? [b, c] = none := by
  cases hs : Kind.symbol? [b, c] with
  | none => rfl
  | some k =>
    obtain ⟨hk, hl⟩ := Kind.symbol?_eq_some_iff.mp hs
    cases k with
    | operator o =>
      cases o <;>
        simp [Kind.lexeme?, Operator.lexeme, Operator.letters, ascii] at hl <;>
        obtain ⟨rfl, rfl⟩ := hl <;>
        exact absurd h (by decide)
    | delimiter d =>
      cases d <;> simp [Kind.lexeme?, Delimiter.lexeme, Delimiter.letters, ascii] at hl
    | _ => simp [Kind.symbols] at hk

theorem symbol?_take_one {b : UInt8} {rest : List UInt8}
    (h : ∀ c, rest.head? = some c → (isExtensible [b] && c == equals) = false) :
    Kind.symbol? (b :: rest.take 1) = none ∨ rest = [] := by
  cases rest with
  | nil => exact .inr rfl
  | cons c rest => exact .inl (symbol?_pair_eq_none (h c rfl))

theorem isWordByte_eq_false_of_symbol :
    ∀ b : UInt8, ∀ k ∈ Kind.symbols, (k.lexeme?.bind List.head?) = some b →
      isWordByte b = false :=
  forall_byte (by decide +kernel)

theorem isWordByte_eq_false_of_stray :
    ∀ b : UInt8, (b = exclamation ∨ isAlphabetic b = false) →
      isWordByte b = false ∧ Kind.symbol? [b] = none :=
  forall_byte (by decide +kernel)

theorem first_symbol_append {k : Kind} {b : UInt8} {bs rest : List UInt8} (hk : k ∈ Kind.symbols)
    (hl : k.lexeme? = some (b :: bs))
    (hr : ∀ c, rest.head? = some c → Lexeme.joins ⟨k, b :: bs⟩ c = false) :
    first b (bs ++ rest) = ⟨k, b :: bs⟩ := by
  have hb : isWordByte b = false := isWordByte_eq_false_of_symbol b k hk (by simp [hl])
  have hs : Kind.symbol? (b :: bs) = some k := Kind.symbol?_eq_some_iff.mpr ⟨hk, hl⟩
  rw [first_of_isWordByte_eq_false _ hb]
  cases bs with
  | nil =>
    have hj : ∀ c, rest.head? = some c → (isExtensible [b] && c == equals) = false := by
      intro c hc
      rw [← hr c hc]
      cases k <;> simp_all [joins, Kind.symbols]
    rcases symbol?_take_one hj with hn | rfl
    · simp [ofSymbol, hn, hs]
    · simp [ofSymbol, hs]
  | cons d ds =>
    have hd : ds = [] := by
      cases k with
      | operator o =>
        cases o <;> simp_all [Kind.lexeme?, Operator.lexeme, Operator.letters, ascii]
      | delimiter d => cases d <;> simp_all [Kind.lexeme?, Delimiter.lexeme, Delimiter.letters, ascii]
      | _ => simp [Kind.symbols] at hk
    subst hd
    simp [ofSymbol, hs]

/-- **A legal lexeme that ends before what follows is what is read.** -/
theorem first_append {x : Lexeme} {b : UInt8} {bs rest : List UInt8} (hx : x.Legal)
    (hb : x.bytes = b :: bs) (hr : ∀ c, rest.head? = some c → x.joins c = false) :
    first b (bs ++ rest) = x := by
  obtain ⟨kind, bytes⟩ := x
  obtain rfl : bytes = b :: bs := hb
  cases kind with
  | illegal =>
    obtain ⟨d, hd, hs⟩ := hx
    obtain ⟨rfl, rfl⟩ : b = d ∧ bs = [] := by simpa using hd
    obtain ⟨hw, hn⟩ := isWordByte_eq_false_of_stray b hs
    rw [first_of_isWordByte_eq_false _ hw]
    rcases symbol?_take_one hr with hp | rfl
    · simp [ofSymbol, hp, hn]
    · simp [ofSymbol, hn]
  | endOfFile => exact hx.elim
  | integerLiteral =>
    have hd : ∀ c ∈ bs, isDigit c = true := fun c hc => hx.2 c (List.mem_cons_of_mem _ hc)
    rw [first_of_isDigit _ (hx.2 b (by simp)), takeWhile_append_of_head? hd hr]
  | identifier =>
    rw [first_word_append hx.1 hr, ofWord, Keyword.ofLexeme?_eq_none_iff.mpr hx.2]
  | keyword k =>
    have hk : k.lexeme = b :: bs := hx.symm
    rw [first_word_append (hk ▸ isWord_lexeme k) hr, ofWord,
      Keyword.ofLexeme?_eq_some_iff.mpr hk]
  | operator o =>
    exact first_symbol_append (Kind.mem_symbols_iff.mpr (.inl rfl)) (congrArg some hx.symm) hr
  | delimiter d =>
    exact first_symbol_append (Kind.mem_symbols_iff.mpr (.inr rfl)) (congrArg some hx.symm) hr

end LexicalAnalysis.Lexeme
