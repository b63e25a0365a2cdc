/-
# The tokens cut the source

Whatever the bytes of a source are, its tokens are a segmentation of it: gaps of blanks and legal
lexemes take turns, nothing is left over and nothing is read twice, and every token says where its
lexeme stands.

* `Layout.mem_tokensAfter_iff`: a token is a piece of the layout with the pieces before it read;
* `Layout.Lawful.not_joins_next`: in a lawful layout the byte right after a lexeme does not join it;
* `tokenize_segments`: the tokens of every source are those of a lawful layout of it.
-/
import LexicalAnalysis.Proofs.Scan

namespace LexicalAnalysis

namespace Layout

/-! ## 1. Where the tokens of a layout stand -/

theorem tokensAfter_append (read : List UInt8) (ps qs : List Piece) :
    tokensAfter read (ps ++ qs) =
      tokensAfter read ps ++ tokensAfter (read ++ ps.flatMap Piece.bytes) qs := by
  induction ps generalizing read with
  | nil => simp [tokensAfter]
  | cons p ps ih => simp [tokensAfter, ih]

/-- A token is the lexeme of a piece, and its position counts all that is in front of it. -/
theorem mem_tokensAfter_iff {read : List UInt8} {ps : List Piece} {t : Token} :
    t ∈ tokensAfter read ps ↔
      ∃ front p back, ps = front ++ p :: back ∧
        t = ⟨p.lexeme, .after (read ++ front.flatMap Piece.bytes ++ p.gap)⟩ := by
  constructor
  · intro h
    induction ps generalizing read with
    | nil => simp [tokensAfter] at h
    | cons p ps ih =>
      rcases List.mem_cons.mp h with rfl | h
      · exact ⟨[], p, ps, rfl, by simp⟩
      · obtain ⟨front, q, back, rfl, rfl⟩ := ih h
        exact ⟨p :: front, q, back, rfl, by simp⟩
  · rintro ⟨front, p, back, rfl, rfl⟩
    rw [tokensAfter_append]
    exact List.mem_append_right _ (List.mem_cons_self ..)

theorem Lawful.of_append {front ps : List Piece} {tail : List UInt8}
    (h : Lawful ⟨front ++ ps, tail⟩) : Lawful ⟨ps, tail⟩ := by
  induction front with
  | nil => exact h
  | cons p front ih => exact ih h.tail

theorem bytes_append (front ps : List Piece) (tail : List UInt8) :
    bytes ⟨front ++ ps, tail⟩ = front.flatMap Piece.bytes ++ bytes ⟨ps, tail⟩ := by
  simp [bytes]

theorem mem_tokens_iff {l : Layout} {t : Token} :
    t ∈ l.tokens ↔
      (∃ front p back, l.pieces = front ++ p :: back ∧
        t = ⟨p.lexeme, .after (front.flatMap Piece.bytes ++ p.gap)⟩) ∨
      t = ⟨⟨.endOfFile, []⟩, .after l.bytes⟩ := by
  rw [tokens, List.mem_append, List.mem_singleton, mem_tokensAfter_iff]
  simp only [List.nil_append]

/-- **Every token ends before the next one starts.** -/
theorem tokensAfter_pairwise (read : List UInt8) (ps : List Piece) :
    (tokensAfter read ps).Pairwise fun t u =>
      t.position.offset + t.bytes.length ≤ u.position.offset := by
  induction ps generalizing read with
  | nil => exact List.Pairwise.nil
  | cons p ps ih =>
    refine List.pairwise_cons.mpr ⟨?_, ih _⟩
    intro u hu
    obtain ⟨front, q, back, rfl, rfl⟩ := mem_tokensAfter_iff.mp hu
    simp only [Position.after_offset, Piece.bytes, List.length_append]
    omega

theorem tokens_pairwise (l : Layout) :
    l.tokens.Pairwise fun t u => t.position.offset + t.bytes.length ≤ u.position.offset := by
  obtain ⟨ps, tail⟩ := l
  refine List.pairwise_append.mpr ⟨tokensAfter_pairwise [] ps, by simp, ?_⟩
  intro t ht u hu
  obtain rfl := List.mem_singleton.mp hu
  obtain ⟨front, p, back, rfl, rfl⟩ := mem_tokensAfter_iff.mp ht
  simp only [Position.after_offset, bytes_append, bytes_cons, Piece.bytes, List.length_append,
    List.length_nil]
  omega

/-! ## 2. Maximal munch, seen from the bytes -/

/-- **The byte right after a lexeme does not join it.**  At the end token there is no such
byte. -/
theorem Lawful.not_joins_next {l : Layout} (h : l.Lawful) {t : Token} (ht : t ∈ l.tokens)
    {c : UInt8} (hc : l.bytes[t.position.offset + t.bytes.length]? = some c) :
    t.joins c = false := by
  obtain ⟨ps, tail⟩ := l
  rcases mem_tokens_iff.mp ht with ⟨front, p, back, rfl, rfl⟩ | rfl
  · have hbytes : bytes ⟨front ++ p :: back, tail⟩ =
        (front.flatMap Piece.bytes ++ p.gap ++ p.lexeme.bytes) ++ bytes ⟨back, tail⟩ := by
      simp [bytes_append, Piece.bytes]
    have hlen : (front.flatMap Piece.bytes ++ p.gap ++ p.lexeme.bytes).length =
        (front.flatMap Piece.bytes ++ p.gap).length + p.lexeme.bytes.length :=
      List.length_append
    rw [hbytes, Position.after_offset, ← hlen,
      List.getElem?_append_right (Nat.le_refl _), Nat.sub_self, ← List.head?_eq_getElem?] at hc
    exact h.of_append.not_joins hc
  · simp at hc

/-! ## 3. What is counted -/

theorem Lawful.not_isEndOfFile {ps : List Piece} {tail : List UInt8} (h : Lawful ⟨ps, tail⟩)
    {read : List UInt8} {t : Token} (ht : t ∈ tokensAfter read ps) : t.isEndOfFile = false := by
  obtain ⟨front, p, back, rfl, rfl⟩ := mem_tokensAfter_iff.mp ht
  have hk : p.lexeme.kind ≠ .endOfFile := (h.lexeme_legal p (by simp)).kind_ne_endOfFile
  simpa [Token.isEndOfFile] using hk

/-- Of the tokens of a lawful layout only the last one ends the source. -/
theorem Lawful.filter_isEndOfFile {l : Layout} (h : l.Lawful) :
    l.tokens.filter Token.isEndOfFile = [⟨⟨.endOfFile, []⟩, .after l.bytes⟩] := by
  have hnone : (tokensAfter [] l.pieces).filter Token.isEndOfFile = [] := by
    rw [List.filter_eq_nil_iff]
    intro t ht
    simp [h.not_isEndOfFile ht]
  rw [tokens, List.filter_append, hnone]
  rfl

/-- No token stands behind that one. -/
theorem Lawful.pairwise_not_isEndOfFile {l : Layout} (h : l.Lawful) :
    l.tokens.Pairwise fun t _ => t.isEndOfFile = false := by
  refine List.pairwise_append.mpr ⟨?_, List.pairwise_singleton _ _, ?_⟩
  · exact List.pairwise_of_forall_mem_list fun t ht _ _ => h.not_isEndOfFile ht
  · intro t ht _ _
    exact h.not_isEndOfFile ht

/-- Every lexeme has a byte of its own that is no blank. -/
theorem Lawful.length_le_countP {ps : List Piece} {tail : List UInt8} (h : Lawful ⟨ps, tail⟩) :
    ps.length ≤ (bytes ⟨ps, tail⟩).countP fun b => !isBlank b := by
  induction ps with
  | nil => simp
  | cons p ps ih =>
    obtain ⟨b, bs, hbs, hb⟩ := h.legal_head.exists_cons
    have hone : 0 < p.bytes.countP fun b => !isBlank b :=
      List.countP_pos_iff.mpr ⟨b, by simp [Piece.bytes, hbs], by simp [hb]⟩
    have hrest := ih h.tail
    rw [bytes_cons, List.countP_append, List.length_cons]
    omega

/-- The kind of a lexeme in a lawful layout is the only one that its bytes are legal for. -/
theorem Lawful.kind_eq_iff {l : Layout} (h : l.Lawful) {p : Piece} (hp : p ∈ l.pieces) (k : Kind) :
    p.lexeme.kind = k ↔ Lexeme.Legal ⟨k, p.lexeme.bytes⟩ := by
  have hx : p.lexeme.Legal := h.lexeme_legal p hp
  constructor
  · rintro rfl
    exact hx
  · intro hk
    exact hx.kind_eq hk

end Layout

/-! ## 4. Every source -/

/-- No byte of a source stands in two of its tokens. -/
theorem tokenize_pairwise (src : List UInt8) :
    (tokenize src).Pairwise fun t u => t.position.offset + t.bytes.length ≤ u.position.offset := by
  obtain ⟨l, hl, rfl⟩ := Layout.exists_lawful src
  rw [tokenize_bytes hl]
  exact l.tokens_pairwise

theorem eq_or_apart_of_mem_tokenize {src : List UInt8} {t u : Token} (ht : t ∈ tokenize src)
    (hu : u ∈ tokenize src) :
    t = u ∨ t.position.offset + t.bytes.length ≤ u.position.offset ∨
      u.position.offset + u.bytes.length ≤ t.position.offset := by
  have hpair := List.pairwise_iff_getElem.mp (tokenize_pairwise src)
  obtain ⟨i, hi, rfl⟩ := List.mem_iff_getElem.mp ht
  obtain ⟨j, hj, rfl⟩ := List.mem_iff_getElem.mp hu
  rcases Nat.lt_trichotomy i j with hij | rfl | hji
  · exact .inr (.inl (hpair i j hi hj hij))
  · exact .inl rfl
  · exact .inr (.inr (hpair j i hj hi hji))

/-- Every token but the end token is a lexeme of its kind. -/
theorem legal_of_mem_tokenize {src : List UInt8} {t : Token} (ht : t ∈ tokenize src)
    (he : t.isEndOfFile = false) : t.toLexeme.Legal := by
  obtain ⟨l, hl, rfl⟩ := Layout.exists_lawful src
  rw [tokenize_bytes hl, Layout.mem_tokens_iff] at ht
  rcases ht with ⟨front, p, back, hps, rfl⟩ | rfl
  · exact hl.lexeme_legal p (by simp [hps])
  · cases he

/-- Every token stands where the bytes before it have been read, and its lexeme is the bytes that
follow them. -/
theorem exists_read_of_mem_tokenize {src : List UInt8} {t : Token} (ht : t ∈ tokenize src) :
    ∃ read, t.position = .after read ∧ newline ∉ t.bytes ∧ read ++ t.bytes <+: src := by
  obtain ⟨⟨ps, tail⟩, hl, rfl⟩ := Layout.exists_lawful src
  rw [tokenize_bytes hl, Layout.mem_tokens_iff] at ht
  rcases ht with ⟨front, p, back, rfl, rfl⟩ | rfl
  · refine ⟨_, rfl, (hl.lexeme_legal p (by simp)).newline_not_mem,
      Layout.bytes ⟨back, tail⟩, ?_⟩
    simp [Layout.bytes_append, Piece.bytes]
  · exact ⟨_, rfl, by simp, by simp⟩

/-- **Two tokens and what is between them**, where the first one ends before the second one
starts. -/
theorem exists_between_of_le {src : List UInt8} {t u : Token} (ht : t ∈ tokenize src)
    (hu : u ∈ tokenize src) (hle : t.position.offset + t.bytes.length ≤ u.position.offset) :
    ∃ read mid, t.position = .after read ∧ newline ∉ t.bytes ∧
      u.position = .after (read ++ (t.bytes ++ mid)) ∧
      read ++ (t.bytes ++ mid) ++ u.bytes <+: src := by
  obtain ⟨read, hread, hnot, htprefix⟩ := exists_read_of_mem_tokenize ht
  obtain ⟨front, hfront, -, huprefix⟩ := exists_read_of_mem_tokenize hu
  have hlen : (read ++ t.bytes).length ≤ front.length := by
    rwa [hread, hfront, Position.after_offset, Position.after_offset, ← List.length_append] at hle
  -- both are read from the front of one source, so the first one is a part of the second one
  obtain ⟨mid, rfl⟩ := List.prefix_of_prefix_length_le htprefix
    ((List.prefix_append front u.bytes).trans huprefix) hlen
  rw [List.append_assoc read] at hfront huprefix
  exact ⟨read, mid, hread, hnot, hfront, huprefix⟩

/-- The end token stands behind all bytes of its source. -/
theorem offset_eq_length_of_isEndOfFile {src : List UInt8} {t : Token} (ht : t ∈ tokenize src)
    (he : t.isEndOfFile = true) : t.position.offset = src.length := by
  obtain ⟨l, hl, rfl⟩ := Layout.exists_lawful src
  rw [tokenize_bytes hl] at ht
  have hmem : t ∈ l.tokens.filter Token.isEndOfFile := List.mem_filter.mpr ⟨ht, he⟩
  rw [hl.filter_isEndOfFile] at hmem
  obtain rfl := List.mem_singleton.mp hmem
  rfl

/-- Every other token stands before one of them. -/
theorem offset_lt_length_of_not_isEndOfFile {src : List UInt8} {t : Token}
    (ht : t ∈ tokenize src) (he : t.isEndOfFile = false) : t.position.offset < src.length := by
  have hpos := List.length_pos_iff.mpr (legal_of_mem_tokenize ht he).bytes_ne_nil
  obtain ⟨read, hp, -, hprefix⟩ := exists_read_of_mem_tokenize ht
  have hle := hprefix.length_le
  rw [List.length_append] at hle
  rw [hp, Position.after_offset]
  omega

/-- No column of a source that words can count is too large for a word. -/
theorem overLexeme_column_toNat {src : List UInt8} (hsrc : Fits src) {t : Token}
    (ht : t ∈ tokenize src) :
    (t.position.overLexeme t.bytes.length).column.toNat =
      t.position.column.toNat + t.bytes.length := by
  obtain ⟨read, hp, hn, hprefix⟩ := exists_read_of_mem_tokenize ht
  have hbehind : Fits (read ++ t.bytes) := hsrc.of_length_le hprefix.length_le
  have hread : Fits read := hbehind.of_length_le (List.prefix_append read t.bytes).length_le
  rw [hp, Position.overLexeme_after hn, Position.after_column_toNat hbehind,
    Position.after_column_toNat hread, Position.lastLine_append hn, List.length_append,
    Nat.add_assoc]

/-- **The tokens of a source are a segmentation of it.**  The source is the gaps and lexemes of a
layout, its tokens are the lexemes with their places and one end token behind them, every lexeme
is of the class of its kind and of no other, and none could be longer. -/
theorem tokenize_segments (src : List UInt8) :
    ∃ l : Layout, l.bytes = src ∧ tokenize src = l.tokens ∧
      (tokenize src).filter Token.isEndOfFile = [⟨⟨.endOfFile, []⟩, .after src⟩] ∧
      l.pieces.length ≤ src.countP (fun b => !isBlank b) ∧
      (∀ p ∈ l.pieces, IsGap p.gap) ∧ IsGap l.tail ∧
      (∀ p ∈ l.pieces, p.lexeme.bytes ≠ [] ∧
        ∀ k, p.lexeme.kind = k ↔ Lexeme.Legal ⟨k, p.lexeme.bytes⟩) ∧
      ∀ t ∈ tokenize src, ∀ c,
        src[t.position.offset + t.bytes.length]? = some c → t.joins c = false := by
  obtain ⟨l, hl, rfl⟩ := Layout.exists_lawful src
  have ht : tokenize l.bytes = l.tokens := tokenize_bytes hl
  refine ⟨l, rfl, ht, ?_, hl.length_le_countP, hl.gap_blank, hl.tail_blank, ?_, ?_⟩
  · rw [ht]
    exact hl.filter_isEndOfFile
  · intro p hp
    exact ⟨(hl.lexeme_legal p hp).bytes_ne_nil, hl.kind_eq_iff hp⟩
  · intro t hmem c hc
    rw [ht] at hmem
    exact hl.not_joins_next hmem hc

end LexicalAnalysis
