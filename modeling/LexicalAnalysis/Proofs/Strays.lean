/-
# What is reported is what strays

A check scans its source and turns every illegal token into a diagnostic.  The strays of a source
are found without any scanning, by looking at each byte and the next one.  They are the same: a
stray byte is a token of its own wherever it stands, in `!!=` or `!==` or a character of several
bytes, and no other byte is ever part of an illegal token.

* `straysFrom_lexeme`: of the bytes of a lexeme none is a stray, unless the lexeme is illegal;
* `strays_eq`: so the strays are where the illegal tokens are;
* `check_reports_strays`: what a check says, stray by stray.
-/
import LexicalAnalysis.Diagnostic
import LexicalAnalysis.Proofs.Segmentation
import Mathlib.Data.List.Forall2

namespace LexicalAnalysis

/-! ## 1. The list of the strays -/

theorem mem_straysFrom_iff {offset i : Nat} {bytes : List UInt8} :
    i ∈ straysFrom offset bytes ↔
      ∃ k b, i = offset + k ∧ bytes[k]? = some b ∧ isStray b bytes[k + 1]? = true := by
  induction bytes generalizing offset with
  | nil => simp [straysFrom]
  | cons c bs ih =>
    have hsplit : (∃ k b, i = offset + k ∧ (c :: bs)[k]? = some b ∧
          isStray b (c :: bs)[k + 1]? = true) ↔
        (i = offset ∧ isStray c bs.head? = true) ∨ i ∈ straysFrom (offset + 1) bs := by
      rw [ih]
      constructor
      · rintro ⟨k, b, rfl, hk, hb⟩
        cases k with
        | zero =>
          obtain rfl : c = b := by simpa using hk
          exact .inl ⟨rfl, by simpa [List.head?_eq_getElem?] using hb⟩
        | succ k => exact .inr ⟨k, b, by omega, by simpa using hk, by simpa using hb⟩
      · rintro (⟨rfl, hc⟩ | ⟨k, b, rfl, hk, hb⟩)
        · exact ⟨0, c, rfl, rfl, by simpa [List.head?_eq_getElem?] using hc⟩
        · exact ⟨k + 1, b, by omega, by simpa using hk, by simpa using hb⟩
    rw [hsplit, straysFrom]
    by_cases hc : isStray c bs.head? = true
    · rw [if_pos hc]
      simp [hc]
    · rw [if_neg hc]
      simp [hc]

/-- The strays of a source, byte by byte. -/
theorem mem_strays_iff {src : List UInt8} {i : Nat} :
    i ∈ strays src ↔ ∃ b, src[i]? = some b ∧ isStray b src[i + 1]? = true := by
  rw [strays, mem_straysFrom_iff]
  constructor
  · rintro ⟨k, b, rfl, hb⟩
    rw [Nat.zero_add]
    exact ⟨b, hb⟩
  · rintro ⟨b, hb⟩
    exact ⟨i, b, (Nat.zero_add i).symm, hb⟩

theorem isStray_iff {b : UInt8} {next? : Option UInt8} :
    isStray b next? = true ↔ isAlphabetic b = false ∨ b = exclamation ∧ next? ≠ some equals := by
  simp [isStray]

/-! ## 2. Lexemes and strays -/

/-- Bytes of the alphabet that are no exclamation mark can be skipped. -/
theorem straysFrom_sound {bytes : List UInt8}
    (h : ∀ b ∈ bytes, isAlphabetic b = true ∧ b ≠ exclamation) (offset : Nat)
    (rest : List UInt8) :
    straysFrom offset (bytes ++ rest) = straysFrom (offset + bytes.length) rest := by
  induction bytes generalizing offset with
  | nil => rfl
  | cons b bs ih =>
    obtain ⟨ha, hb⟩ := h b (by simp)
    have hs : isStray b (bs ++ rest).head? = false := by simp [isStray, ha, hb]
    rw [List.cons_append, straysFrom, hs, ih fun c hc => h c (by simp [hc])]
    simp only [Bool.false_eq_true, if_false, List.length_cons]
    rw [Nat.add_right_comm, Nat.add_assoc]

theorem sound_of_isWordByte :
    ∀ b : UInt8, isWordByte b = true → isAlphabetic b = true ∧ b ≠ exclamation :=
  forall_byte (by decide +kernel)

theorem sound_of_isBlank :
    ∀ b : UInt8, isBlank b = true → isAlphabetic b = true ∧ b ≠ exclamation :=
  forall_byte (by decide +kernel)

/-- The same for bytes that are known one by one. -/
theorem straysFrom_of_all {bytes : List UInt8}
    (h : (bytes.all fun b => isAlphabetic b && b != exclamation) = true) (offset : Nat)
    (rest : List UInt8) :
    straysFrom offset (bytes ++ rest) = straysFrom (offset + bytes.length) rest :=
  straysFrom_sound (fun b hb => by simpa using List.all_eq_true.mp h b hb) offset rest

/-- The one operator that starts with an exclamation mark completes it. -/
theorem straysFrom_operator (o : Operator) (offset : Nat) (rest : List UInt8) :
    straysFrom offset (o.lexeme ++ rest) = straysFrom (offset + o.lexeme.length) rest := by
  by_cases h : o = .notEq
  · subst h
    have hpair : Operator.notEq.lexeme = exclamation :: [equals] := rfl
    have hmark : isStray exclamation (([equals] ++ rest).head?) = false := rfl
    have hequals : ([equals].all fun b => isAlphabetic b && b != exclamation) = true := by decide
    rw [hpair, List.cons_append, straysFrom, hmark, straysFrom_of_all hequals]
    simp [Nat.add_assoc]
  · refine straysFrom_of_all ?_ offset rest
    revert h
    cases o <;> decide

theorem straysFrom_delimiter (d : Delimiter) (offset : Nat) (rest : List UInt8) :
    straysFrom offset (d.lexeme ++ rest) = straysFrom (offset + d.lexeme.length) rest := by
  refine straysFrom_of_all ?_ offset rest
  cases d <;> decide

/-- **Of the bytes of a lexeme none is a stray, unless the lexeme is illegal.**  Then it is the
only one there is. -/
theorem straysFrom_lexeme {x : Lexeme} (hx : x.Legal) {rest : List UInt8}
    (hr : ∀ c, rest.head? = some c → x.joins c = false) (offset : Nat) :
    straysFrom offset (x.bytes ++ rest) =
      (if x.kind = .illegal then [offset] else []) ++
        straysFrom (offset + x.bytes.length) rest := by
  obtain ⟨kind, bytes⟩ := x
  cases kind with
  | illegal =>
    obtain ⟨b, hb, hs⟩ := hx
    obtain rfl : bytes = [b] := hb
    have hstray : isStray b rest.head? = true := by
      rw [isStray_iff]
      rcases hs with rfl | hs
      · refine .inr ⟨rfl, ?_⟩
        intro hc
        have hj := hr equals hc
        revert hj
        decide
      · exact .inl hs
    simp [straysFrom, hstray]
  | endOfFile => exact hx.elim
  | integerLiteral =>
    refine straysFrom_sound ?_ offset rest
    intro b hb
    exact sound_of_isWordByte b (isWordByte_of_isDigit (hx.2 b hb))
  | identifier =>
    refine straysFrom_sound ?_ offset rest
    intro b hb
    exact sound_of_isWordByte b (hx.1.isWordByte b hb)
  | keyword k =>
    obtain rfl : bytes = k.lexeme := hx
    refine straysFrom_sound ?_ offset rest
    intro b hb
    exact sound_of_isWordByte b ((Lexeme.isWord_lexeme k).isWordByte b hb)
  | operator o =>
    obtain rfl : bytes = o.lexeme := hx
    exact straysFrom_operator o offset rest
  | delimiter d =>
    obtain rfl : bytes = d.lexeme := hx
    exact straysFrom_delimiter d offset rest

/-! ## 3. Sources and strays -/

theorem straysFrom_layout {ps : List Piece} {tail : List UInt8} (h : Layout.Lawful ⟨ps, tail⟩)
    (read : List UInt8) :
    straysFrom read.length (Layout.bytes ⟨ps, tail⟩) =
      ((Layout.tokensAfter read ps).filter Token.isIllegal).map fun t => t.position.offset := by
  induction ps generalizing read with
  | nil =>
    have hsound : ∀ b ∈ tail, isAlphabetic b = true ∧ b ≠ exclamation :=
      fun b hb => sound_of_isBlank b (h.tail_blank b hb)
    have hgap := straysFrom_sound hsound read.length []
    rw [List.append_nil] at hgap
    rw [Layout.bytes_nil, hgap]
    rfl
  | cons p ps ih =>
    have hgap : ∀ b ∈ p.gap, isAlphabetic b = true ∧ b ≠ exclamation :=
      fun b hb => sound_of_isBlank b (h.isGap_head b hb)
    have hlen : read.length + p.gap.length + p.lexeme.bytes.length = (read ++ p.bytes).length := by
      simp [Piece.bytes, Nat.add_assoc]
    rw [Layout.bytes_cons, Piece.bytes, List.append_assoc, straysFrom_sound hgap,
      straysFrom_lexeme h.legal_head (fun c hc => h.not_joins hc), hlen, ih h.tail,
      Layout.tokensAfter, List.filter_cons]
    by_cases hk : p.lexeme.kind = .illegal
    · simp [Token.isIllegal, hk]
    · simp [Token.isIllegal, hk]

/-- **The strays of a source are where its illegal tokens are.** -/
theorem strays_eq (src : List UInt8) :
    strays src = ((tokenize src).filter Token.isIllegal).map fun t => t.position.offset := by
  obtain ⟨⟨ps, tail⟩, hl, rfl⟩ := Layout.exists_lawful src
  have hfrom := straysFrom_layout hl []
  rw [List.length_nil] at hfrom
  rw [tokenize_bytes hl, strays, hfrom, Layout.tokens, List.filter_append]
  simp [Token.isIllegal]

theorem isEndOfFile_of_isIllegal {t : Token} (h : t.isIllegal = true) :
    t.isEndOfFile = false := by
  have hk : t.kind = .illegal := by simpa [Token.isIllegal] using h
  simp [Token.isEndOfFile, hk]

/-- An illegal token is the one byte that stands there. -/
theorem exists_byte_of_isIllegal {src : List UInt8} {t : Token} (ht : t ∈ tokenize src)
    (h : t.isIllegal = true) : ∃ b, t.bytes = [b] ∧ src[t.position.offset]? = some b := by
  have hk : t.kind = .illegal := by simpa [Token.isIllegal] using h
  have hx : t.toLexeme.Legal := legal_of_mem_tokenize ht (isEndOfFile_of_isIllegal h)
  simp only [Lexeme.Legal, hk] at hx
  obtain ⟨b, hb, -⟩ := hx
  obtain ⟨read, hp, -, rest, rfl⟩ := exists_read_of_mem_tokenize ht
  exact ⟨b, hb, by simp [hp, hb]⟩

/-- No stray is a blank. -/
theorem isBlank_eq_false_of_isStray {b : UInt8} {next? : Option UInt8}
    (h : isStray b next? = true) : isBlank b = false := by
  rcases isStray_iff.mp h with hb | ⟨rfl, -⟩
  · simp only [isAlphabetic, Bool.or_eq_false_iff] at hb
    exact hb.1.2
  · rfl

/-- So what an illegal token stands for is none. -/
theorem exists_not_isBlank_of_isIllegal {src : List UInt8} {t : Token} (ht : t ∈ tokenize src)
    (h : t.isIllegal = true) : ∃ b, src[t.position.offset]? = some b ∧ isBlank b = false := by
  have hmem : t.position.offset ∈ strays src := by
    rw [strays_eq]
    exact List.mem_map_of_mem (List.mem_filter.mpr ⟨ht, h⟩)
  obtain ⟨b, hb, hs⟩ := mem_strays_iff.mp hmem
  exact ⟨b, hb, isBlank_eq_false_of_isStray hs⟩

/-- The strays are found from the front to the back, each of them once. -/
theorem strays_pairwise (src : List UInt8) : (strays src).Pairwise (· < ·) := by
  rw [strays_eq, List.pairwise_map]
  refine ((tokenize_pairwise src).filter Token.isIllegal).imp_of_mem fun ht _ hle => ?_
  obtain ⟨hmem, hill⟩ := List.mem_filter.mp ht
  obtain ⟨b, hb, -⟩ := exists_byte_of_isIllegal hmem hill
  rw [hb, List.length_singleton] at hle
  omega

/-- A stray inside a token is all of it. -/
theorem isIllegal_of_mem_strays {src : List UInt8} {t : Token} (ht : t ∈ tokenize src) {i : Nat}
    (hi : i ∈ strays src) (hle : t.position.offset ≤ i)
    (hlt : i < t.position.offset + t.bytes.length) :
    t.isIllegal = true ∧ t.position.offset = i := by
  rw [strays_eq, List.mem_map] at hi
  obtain ⟨u, hu, rfl⟩ := hi
  obtain ⟨humem, hill⟩ := List.mem_filter.mp hu
  obtain ⟨b, hb, -⟩ := exists_byte_of_isIllegal humem hill
  -- two tokens that share a byte are one, since of any other two one ends before the other starts
  have hapart := eq_or_apart_of_mem_tokenize ht humem
  rw [hb, List.length_singleton] at hapart
  rcases hapart with rfl | hbefore | hbehind
  · exact ⟨hill, rfl⟩
  · omega
  · omega

/-! ## 4. What a check says -/

/-- **What is said about a byte of a source**: where it is, by line and column as its token has
them, in which source, and whether it is half an operator. -/
structure Reports (s : Source) (i : Nat) (d : Diagnostic) : Prop where
  offset_eq : d.position.offset = i
  token : ∃ t ∈ s.tokens, t.isIllegal = true ∧ t.position = d.position
  file_eq : d.file = s.name
  cause_eq : d.cause.name =
    if s.bytes[i]? = some exclamation then "IncompleteOperator" else "UnrecognisedToken"

theorem Cause.ofBytes_name (b : UInt8) : (Cause.ofBytes [b]).name =
    if some b = some exclamation then "IncompleteOperator" else "UnrecognisedToken" := by
  have hascii : ascii ['!'] = [exclamation] := rfl
  have hmark : [b] = [exclamation] ↔ some b = some exclamation := by simp
  simp only [Cause.ofBytes, hascii, hmark]
  split <;> rfl

theorem collect_eq_map (file : String) (ts : List Token) :
    Diagnostic.collect file ts =
      (ts.filter Token.isIllegal).map fun t => ⟨.ofBytes t.bytes, t.position, file⟩ := by
  induction ts with
  | nil => rfl
  | cons t ts ih =>
    rw [Diagnostic.collect] at ih ⊢
    cases h : t.isIllegal <;> simp [Diagnostic.ofToken?, h, ih]

/-- The diagnostics of a source, and its strays. -/
theorem forall₂_reports (s : Source) :
    List.Forall₂ (Reports s) (strays s.bytes) (Diagnostic.collect s.name s.tokens) := by
  rw [strays_eq, collect_eq_map, List.forall₂_map_left_iff, List.forall₂_map_right_iff,
    Source.tokens, List.forall₂_same]
  intro t ht
  obtain ⟨hmem, hill⟩ := List.mem_filter.mp ht
  obtain ⟨b, hb, hbyte⟩ := exists_byte_of_isIllegal hmem hill
  exact ⟨rfl, ⟨t, hmem, hill, rfl⟩, rfl, by rw [hbyte, hb, Cause.ofBytes_name]⟩

theorem check_of_strays_eq_nil {s : Source} (h : strays s.bytes = []) :
    check s = .ok s.tokens := by
  have hall := forall₂_reports s
  rw [h, List.forall₂_nil_left_iff] at hall
  rw [check, checkTokens, hall]

theorem check_of_strays_ne_nil {s : Source} (h : strays s.bytes ≠ []) :
    check s = .error (Diagnostic.collect s.name s.tokens) := by
  have hall := forall₂_reports s
  rw [check, checkTokens]
  split
  · next hnil =>
    rw [hnil, List.forall₂_nil_right_iff] at hall
    exact absurd hall h
  · next hcons => rw [hcons]

/-- The check of a source that is laid out. -/
theorem check_bytes {l : Layout} (hl : l.Lawful) (name : String) :
    check ⟨name, l.bytes⟩ = checkTokens name l.tokens := by
  rw [check, Source.tokens, tokenize_bytes hl]

/-- The diagnostics of a check are those of the illegal tokens. -/
theorem eq_map_of_check_eq_error {s : Source} {ds : List Diagnostic} (h : check s = .error ds) :
    ds = (s.tokens.filter Token.isIllegal).map fun t => ⟨.ofBytes t.bytes, t.position, s.name⟩ := by
  rw [← collect_eq_map]
  rw [check, checkTokens] at h
  split at h
  · cases h
  · next hcons =>
    rw [hcons]
    exact (Except.error.inj h).symm

theorem exists_token_of_check_eq_error {s : Source} {ds : List Diagnostic}
    (h : check s = .error ds) {d : Diagnostic} (hd : d ∈ ds) :
    ∃ t ∈ s.tokens, t.isIllegal = true ∧ d = ⟨.ofBytes t.bytes, t.position, s.name⟩ := by
  rw [eq_map_of_check_eq_error h, List.mem_map] at hd
  obtain ⟨t, ht, rfl⟩ := hd
  obtain ⟨hmem, hill⟩ := List.mem_filter.mp ht
  exact ⟨t, hmem, hill, rfl⟩

/-- **A check reports the strays, one by one, and nothing else.**  The strays are read off each
byte and the next one alone.  A source is accepted if it has none, with its tokens; otherwise it
is rejected with a diagnostic for each, in their order.  None of them stands inside a longer
token. -/
theorem check_reports_strays (bytes : List UInt8) (name? : Option String) :
    (strays bytes).Pairwise (· < ·) ∧
      (∀ i, i ∈ strays bytes ↔ ∃ b, bytes[i]? = some b ∧
        (isAlphabetic b = false ∨ b = exclamation ∧ bytes[i + 1]? ≠ some equals)) ∧
      ((∃ ts, check (.ofBytes bytes name?) = .ok ts) ↔ strays bytes = []) ∧
      (∀ ts, check (.ofBytes bytes name?) = .ok ts → ts = tokenize bytes) ∧
      (strays bytes ≠ [] → ∃ ds, check (.ofBytes bytes name?) = .error ds ∧
        List.Forall₂ (Reports ⟨name?.getD "shell", bytes⟩) (strays bytes) ds) ∧
      ∀ t ∈ tokenize bytes, ∀ i ∈ strays bytes, t.position.offset ≤ i →
        i < t.position.offset + t.bytes.length → t.isIllegal = true ∧ t.position.offset = i := by
  refine ⟨strays_pairwise bytes, ?_, ⟨?_, ?_⟩, ?_, ?_, ?_⟩
  · intro i
    simp only [mem_strays_iff, isStray_iff]
  · rintro ⟨ts, hts⟩
    by_contra hne
    rw [check_of_strays_ne_nil (s := .ofBytes bytes name?) hne] at hts
    cases hts
  · intro h
    exact ⟨_, check_of_strays_eq_nil (s := .ofBytes bytes name?) h⟩
  · intro ts hts
    exact (check_eq_ok_iff.mp hts).1
  · intro hne
    exact ⟨_, check_of_strays_ne_nil (s := .ofBytes bytes name?) hne,
      forall₂_reports (.ofBytes bytes name?)⟩
  · intro t ht i hi hle hlt
    exact isIllegal_of_mem_strays ht hi hle hlt

/-- In `!!==` the first mark strays and the second one does not. -/
theorem check_reports_strays_marks :
    strays (ascii ['!', '!', '=', '=']) = [0] ∧
      ∃ ds, check (.ofBytes (ascii ['!', '!', '=', '=']) none) = .error ds ∧
        List.Forall₂ (Reports ⟨"shell", ascii ['!', '!', '=', '=']⟩) [0] ds :=
  ⟨by decide, (check_reports_strays (ascii ['!', '!', '=', '=']) none).2.2.2.2.1 (by decide)⟩

end LexicalAnalysis
