/-
# What is appended to a source

A stream looks at most one byte past a lexeme, so what is appended to a source can change little.
A token with a byte behind it is read as before.  The token that touches the end is read from the
same place, and what is appended can only make it longer.

* `Lexeme.first_bytes_isPrefix`: a lexeme only grows when more text follows;
* `TokenStream.pull_touching`: so the token in front of a stream stays where it is, and grows at
  most;
* `TokenStream.drain_front`: the pieces of a layout that are not its last are read as they were;
* `tokenize_append_stable`: the two runs, token by token.
-/
import LexicalAnalysis.Proofs.Segmentation
import Mathlib.Data.List.Basic

namespace LexicalAnalysis

/-! ## 1. A lexeme grows at most -/

theorem takeWhile_isPrefix_append (p : UInt8 → Bool) (bytes more : List UInt8) :
    bytes.takeWhile p <+: (bytes ++ more).takeWhile p := by
  rw [List.takeWhile_append]
  split
  · next h =>
    rw [List.takeWhile_prefix _ |>.eq_of_length h]
    exact List.prefix_append _ _
  · exact List.prefix_rfl

namespace Lexeme

theorem first_eq_cons (b : UInt8) (rest : List UInt8) : ∃ bs, (first b rest).bytes = b :: bs := by
  obtain ⟨c, bs, hc⟩ := List.exists_cons_of_ne_nil (first_ne_nil b rest)
  have hcb : c :: bs <+: b :: rest := hc ▸ first_isPrefix b rest
  exact ⟨bs, by rw [hc, (List.cons_prefix_cons.mp hcb).1]⟩

/-- A symbol that has a byte behind it is read as before, since no symbol is longer than two. -/
theorem ofSymbol_bytes_isPrefix {b : UInt8} (rest more : List UInt8) (hb : isWordByte b = false) :
    (ofSymbol b rest).bytes <+: (ofSymbol b (rest ++ more)).bytes := by
  cases rest with
  | nil =>
    obtain ⟨bs, hbs⟩ := first_eq_cons b more
    rw [first_of_isWordByte_eq_false _ hb] at hbs
    have hone : (ofSymbol b []).bytes = [b] := by
      rcases ofSymbol_bytes b [] with h | h <;> exact h
    rw [hone, List.nil_append, hbs]
    exact List.cons_prefix_cons.mpr ⟨rfl, List.nil_prefix⟩
  | cons c rest =>
    -- of what follows only the next byte is looked at
    have hsame : ofSymbol b (c :: rest) = ofSymbol b (c :: rest ++ more) := rfl
    exact hsame ▸ List.prefix_rfl

/-- **A lexeme only grows when more text follows.** -/
theorem first_bytes_isPrefix (b : UInt8) (rest more : List UInt8) :
    (first b rest).bytes <+: (first b (rest ++ more)).bytes := by
  rcases letter_or_digit_or_other b with h | h | h
  · rw [first_of_isLetter _ h, first_of_isLetter _ h, ofWord_bytes, ofWord_bytes]
    exact List.cons_prefix_cons.mpr ⟨rfl, takeWhile_isPrefix_append _ _ _⟩
  · rw [first_of_isDigit _ h, first_of_isDigit _ h]
    exact List.cons_prefix_cons.mpr ⟨rfl, takeWhile_isPrefix_append _ _ _⟩
  · rw [first_of_isWordByte_eq_false _ h, first_of_isWordByte_eq_false _ h]
    exact ofSymbol_bytes_isPrefix rest more h

end Lexeme

namespace TokenStream

/-! ## 2. One pull -/

/-- **In front of a piece that anything may follow**, the token is where the lexeme was put, and
starts with it. -/
theorem pull_touching {read more : List UInt8} {p : Piece} {finished : Bool} (hg : IsGap p.gap)
    (hx : p.lexeme.Legal) :
    (pull ⟨p.bytes ++ more, .after read, finished⟩).1.position = .after (read ++ p.gap) ∧
      p.lexeme.bytes <+: (pull ⟨p.bytes ++ more, .after read, finished⟩).1.bytes := by
  obtain ⟨b, bs, hbs, hb⟩ := hx.exists_cons
  have hwhole : p.bytes ++ more = p.gap ++ b :: (bs ++ more) := by simp [Piece.bytes, hbs]
  have halone : Lexeme.first b (bs ++ []) = p.lexeme := Lexeme.first_append hx hbs (by simp)
  rw [List.append_nil] at halone
  rw [hwhole, pull_gap_cons hg hb, ← halone]
  exact ⟨rfl, Lexeme.first_bytes_isPrefix b bs more⟩

/-! ## 3. The pieces in front -/

theorem drain_front {front ps : List Piece} {tail : List UInt8}
    (h : Layout.Lawful ⟨front ++ ps, tail⟩) (hne : Layout.bytes ⟨ps, tail⟩ ≠ [])
    (more read : List UInt8) :
    (drain ⟨Layout.bytes ⟨front ++ ps, tail⟩ ++ more, .after read, false⟩).1 =
      Layout.tokensAfter read front ++
        (drain ⟨Layout.bytes ⟨ps, tail⟩ ++ more, .after (read ++ front.flatMap Piece.bytes),
          false⟩).1 := by
  induction front generalizing read with
  | nil => simp [Layout.tokensAfter]
  | cons p front ih =>
    have hnext : Layout.bytes ⟨front ++ ps, tail⟩ ≠ [] := by
      rw [Layout.bytes_append]
      exact List.append_ne_nil_of_right_ne_nil _ hne
    have hclear : ∀ c, (Layout.bytes ⟨front ++ ps, tail⟩ ++ more).head? = some c →
        p.lexeme.joins c = false := by
      intro c hc
      rw [List.head?_append_of_ne_nil _ hnext] at hc
      exact h.not_joins hc
    rw [List.cons_append, Layout.bytes_cons, List.append_assoc, drain_of_not_finished rfl,
      pull_piece h.isGap_head h.legal_head hclear, ih h.tail, List.flatMap_cons,
      List.append_assoc]
    rfl

end TokenStream

/-! ## 4. Two runs -/

/-- A token of some pieces, by its number. -/
theorem Layout.getElem?_tokensAfter {read : List UInt8} {ps : List Piece} {i : Nat} {t : Token}
    (h : (tokensAfter read ps)[i]? = some t) :
    ∃ front p back, ps = front ++ p :: back ∧ (tokensAfter read front).length = i ∧
      t = ⟨p.lexeme, .after (read ++ front.flatMap Piece.bytes ++ p.gap)⟩ := by
  induction ps generalizing read i with
  | nil => simp [tokensAfter] at h
  | cons p ps ih =>
    cases i with
    | zero =>
      obtain rfl : _ = t := Option.some.inj h
      exact ⟨[], p, ps, rfl, rfl, by simp⟩
    | succ i =>
      obtain ⟨front, q, back, rfl, rfl, rfl⟩ := ih h
      exact ⟨p :: front, q, back, rfl, rfl, by simp⟩

/-- A lawful layout that writes nothing has no pieces. -/
theorem Layout.Lawful.pieces_eq_nil {ps : List Piece} {tail : List UInt8} (h : Lawful ⟨ps, tail⟩)
    (hnil : bytes ⟨ps, tail⟩ = []) : ps = [] := by
  cases ps with
  | nil => rfl
  | cons p ps =>
    have hne := h.legal_head.bytes_ne_nil
    simp [Piece.bytes, hne] at hnil

/-- A token that is not the end token is that of a piece, and what it leaves in front of it is read
alike whatever is appended. -/
theorem exists_piece_of_getElem? {a : List UInt8} {i : Nat} {t : Token}
    (ht : (tokenize a)[i]? = some t) (he : t.isEndOfFile = false) :
    ∃ (read : List UInt8) (p : Piece) (rest : List UInt8),
      a = read ++ (p.bytes ++ rest) ∧ IsGap p.gap ∧ p.lexeme.Legal ∧
      (∀ c, rest.head? = some c → p.lexeme.joins c = false) ∧
      (rest = [] → (tokenize a).length = i + 2) ∧
      t = ⟨p.lexeme, .after (read ++ p.gap)⟩ ∧
      ∀ more, (tokenize (a ++ more))[i]? =
        some (TokenStream.pull ⟨p.bytes ++ (rest ++ more), .after read, false⟩).1 := by
  obtain ⟨⟨ps, tail⟩, hl, rfl⟩ := Layout.exists_lawful a
  rw [tokenize_bytes hl, Layout.tokens] at ht
  have hi : i < (Layout.tokensAfter [] ps).length := by
    by_contra hge
    rw [List.getElem?_append_right (Nat.le_of_not_lt hge)] at ht
    obtain rfl := List.mem_singleton.mp (List.mem_of_getElem? ht)
    cases he
  rw [List.getElem?_append_left hi] at ht
  obtain ⟨front, p, back, rfl, rfl, rfl⟩ := Layout.getElem?_tokensAfter ht
  have hp := hl.of_append
  have hne : Layout.bytes ⟨p :: back, tail⟩ ≠ [] := fun hnil =>
    List.cons_ne_nil _ _ (hp.pieces_eq_nil hnil)
  refine ⟨front.flatMap Piece.bytes, p, Layout.bytes ⟨back, tail⟩, ?_, hp.isGap_head,
    hp.legal_head, fun c hc => hp.not_joins hc, ?_, rfl, ?_⟩
  · rw [Layout.bytes_append, Layout.bytes_cons]
  · intro hnil
    obtain rfl : back = [] := hp.tail.pieces_eq_nil hnil
    simp [tokenize_bytes hl, Layout.tokens, Layout.tokensAfter_append, Layout.tokensAfter]
  · intro more
    rw [tokenize, TokenStream.ofBytes, ← Position.after_nil, TokenStream.drain_front hl hne,
      List.getElem?_append_right (Nat.le_refl _), Nat.sub_self, List.nil_append,
      TokenStream.drain_of_not_finished rfl, Layout.bytes_cons, List.append_assoc]
    rfl

/-- **What is appended changes at most the token that touches the end, and only by extending it.**
A token of `a` other than the end token is a token of `a ++ b` with the same number if it ends
before the end of `a`, or if `b` is empty or starts with a blank.  Otherwise it touches the end of
`a`, there is no token but the end token behind it, and with the same number and the same position
there is a token in `a ++ b` that starts with its lexeme. -/
theorem tokenize_append_stable (a b : List UInt8) (i : Nat) (t : Token)
    (ht : (tokenize a)[i]? = some t) (he : t.isEndOfFile = false) :
    (t.position.offset + t.bytes.length < a.length → (tokenize (a ++ b))[i]? = some t) ∧
      (t.position.offset + t.bytes.length = a.length →
        (tokenize a).length = i + 2 ∧
          ∃ u, (tokenize (a ++ b))[i]? = some u ∧ u.position = t.position ∧ t.bytes <+: u.bytes) ∧
      ((∀ c, b.head? = some c → isBlank c = true) → (tokenize (a ++ b))[i]? = some t) ∧
      t.position.offset + t.bytes.length ≤ a.length := by
  obtain ⟨read, p, rest, ha, hg, hx, hr, hlast, rfl, hrun⟩ := exists_piece_of_getElem? ht he
  have hlen : a.length = (read ++ p.gap).length + p.lexeme.bytes.length + rest.length := by
    rw [ha]
    simp only [Piece.bytes, List.length_append]
    omega
  have hsame : (∀ c, (rest ++ b).head? = some c → p.lexeme.joins c = false) →
      (tokenize (a ++ b))[i]? = some ⟨p.lexeme, .after (read ++ p.gap)⟩ := by
    intro hclear
    rw [hrun b, TokenStream.pull_piece hg hx hclear]
  have hbehind : rest ≠ [] → ∀ c, (rest ++ b).head? = some c → p.lexeme.joins c = false := by
    intro hne c hc
    rw [List.head?_append_of_ne_nil _ hne] at hc
    exact hr c hc
  simp only [Position.after_offset]
  refine ⟨?_, ?_, ?_, by omega⟩
  · intro hlt
    refine hsame (hbehind ?_)
    rintro rfl
    rw [List.length_nil] at hlen
    omega
  · intro heq
    have hnil : rest = [] := List.length_eq_zero_iff.mp (by omega)
    exact ⟨hlast hnil, _, hrun b, TokenStream.pull_touching hg hx⟩
  · intro hb
    by_cases hne : rest = []
    · subst hne
      exact hsame fun c hc => Lexeme.joins_of_isBlank (hb c hc)
    · exact hsame (hbehind hne)

/-- Behind `if` the `!` is half an operator, until the other half is appended. -/
theorem tokenize_append_stable_mark :
    let t : Token := ⟨⟨.illegal, ascii ['!']⟩, ⟨2, 1, 3⟩⟩
    (tokenize (ascii ['i', 'f', '!']))[1]? = some t ∧
      ∃ u, (tokenize (ascii ['i', 'f', '!'] ++ ascii ['=']))[1]? = some u ∧
        u.position = t.position ∧ t.bytes <+: u.bytes := by
  let l : Layout :=
    ⟨[⟨[], ⟨.keyword .kwIf, ascii ['i', 'f']⟩⟩, ⟨[], ⟨.illegal, ascii ['!']⟩⟩], []⟩
  have hread : tokenize (ascii ['i', 'f', '!']) = l.tokens := tokenize_bytes (l := l) (by decide)
  have ht : (tokenize (ascii ['i', 'f', '!']))[1]? =
      some ⟨⟨.illegal, ascii ['!']⟩, ⟨2, 1, 3⟩⟩ := by
    rw [hread]
    rfl
  exact ⟨ht, ((tokenize_append_stable _ (ascii ['=']) 1 _ ht rfl).2.1 rfl).2⟩

end LexicalAnalysis
