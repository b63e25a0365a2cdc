/-
# Scanning a laid-out source

What a stream does is settled by two steps and an induction over the pieces of a layout:

* `pull_piece`: in front of a lawful piece the stream yields its lexeme, where it was put, and
  stands behind it;
* `pull_gap`: in front of nothing but a gap it yields the end token;
* `drain_layout`: so it yields the tokens of a lawful layout, and `tokenize_bytes` is that for a
  whole source.

Nothing is lost by looking at layouts only.  Every source is written by a lawful one
(`exists_lawful`), which the scanner's own choice of lexemes gives.
-/
import LexicalAnalysis.Layout
import LexicalAnalysis.Proofs.Lexeme
import LexicalAnalysis.Proofs.Position
import LexicalAnalysis.TokenStream

namespace LexicalAnalysis

/-! ## 1. Cutting a gap off -/

theorem dropWhile_append_of_head? {p : UInt8 → Bool} {bs rest : List UInt8}
    (hb : ∀ b ∈ bs, p b = true) (hr : ∀ c, rest.head? = some c → p c = false) :
    (bs ++ rest).dropWhile p = rest := by
  rw [List.dropWhile_append_of_pos hb]
  cases rest with
  | nil => rfl
  | cons c rest => simp [hr c rfl]

theorem isGap_takeWhile (bytes : List UInt8) : IsGap (bytes.takeWhile isBlank) :=
  fun _ hb => List.mem_takeWhile_imp hb

theorem isGap_of_dropWhile_eq_nil {bytes : List UInt8} (h : bytes.dropWhile isBlank = []) :
    IsGap bytes :=
  List.dropWhile_eq_nil_iff.mp h

namespace Layout

/-! ## 2. Lawful layouts, from the front -/

@[simp] theorem bytes_nil (tail : List UInt8) : bytes ⟨[], tail⟩ = tail := rfl

@[simp] theorem bytes_cons (p : Piece) (ps : List Piece) (tail : List UInt8) :
    bytes ⟨p :: ps, tail⟩ = p.bytes ++ bytes ⟨ps, tail⟩ := by
  simp [bytes]

theorem lawful_nil_iff {tail : List UInt8} : Lawful ⟨[], tail⟩ ↔ IsGap tail :=
  ⟨fun h => h.tail_blank, fun h => ⟨by simp, by simp, h, trivial⟩⟩

theorem Lawful.isGap_head {p : Piece} {ps : List Piece} {tail : List UInt8}
    (h : Lawful ⟨p :: ps, tail⟩) : IsGap p.gap :=
  h.gap_blank p (List.mem_cons_self ..)

theorem Lawful.legal_head {p : Piece} {ps : List Piece} {tail : List UInt8}
    (h : Lawful ⟨p :: ps, tail⟩) : p.lexeme.Legal :=
  h.lexeme_legal p (List.mem_cons_self ..)

/-- What follows a piece of a lawful layout starts with a blank or keeps clear of it. -/
theorem Lawful.not_joins {p : Piece} {ps : List Piece} {tail : List UInt8}
    (h : Lawful ⟨p :: ps, tail⟩) {c : UInt8} (hc : (bytes ⟨ps, tail⟩).head? = some c) :
    p.lexeme.joins c = false := by
  cases ps with
  | nil =>
    exact Lexeme.joins_of_isBlank (h.tail_blank c (List.mem_of_head? hc))
  | cons q ps =>
    have hq : q ∈ p :: q :: ps := by simp
    obtain ⟨b, bs, hb, -⟩ := (h.lexeme_legal q hq).exists_cons
    cases hg : q.gap with
    | nil =>
      have hcb : c = b := by simpa [Piece.bytes, hg, hb] using hc.symm
      exact h.all_clear.1 hg c (by simp [hb, hcb])
    | cons d gap =>
      have hcd : c = d := by simpa [Piece.bytes, hg] using hc.symm
      exact Lexeme.joins_of_isBlank (h.gap_blank q hq c (by simp [hg, hcd]))

theorem Lawful.tail {p : Piece} {ps : List Piece} {tail : List UInt8}
    (h : Lawful ⟨p :: ps, tail⟩) : Lawful ⟨ps, tail⟩ where
  gap_blank q hq := h.gap_blank q (List.mem_cons_of_mem _ hq)
  lexeme_legal q hq := h.lexeme_legal q (List.mem_cons_of_mem _ hq)
  tail_blank := h.tail_blank
  all_clear := by
    cases ps with
    | nil => trivial
    | cons q ps => exact h.all_clear.2

/-- A piece in front of a lawful layout makes a lawful one if what follows does not join it. -/
theorem Lawful.cons {p : Piece} {ps : List Piece} {tail : List UInt8} (hg : IsGap p.gap)
    (hx : p.lexeme.Legal) (hr : ∀ c, (bytes ⟨ps, tail⟩).head? = some c → p.lexeme.joins c = false)
    (h : Lawful ⟨ps, tail⟩) : Lawful ⟨p :: ps, tail⟩ where
  gap_blank q hq := by
    rcases List.mem_cons.mp hq with rfl | hq
    · exact hg
    · exact h.gap_blank q hq
  lexeme_legal q hq := by
    rcases List.mem_cons.mp hq with rfl | hq
    · exact hx
    · exact h.lexeme_legal q hq
  tail_blank := h.tail_blank
  all_clear := by
    cases ps with
    | nil => trivial
    | cons q ps =>
      refine ⟨fun hgap b hb => hr b ?_, h.all_clear⟩
      obtain ⟨c, bs, hc, -⟩ := h.legal_head.exists_cons
      have hbc : c = b := by simpa [hc] using hb
      simp [Piece.bytes, hgap, hc, hbc]

/-- **Every source is written by a lawful layout.**  By induction on the length: a gap, the
lexeme at the front of what follows it, and the layout of the rest. -/
theorem exists_lawful (src : List UInt8) : ∃ l : Layout, l.Lawful ∧ l.bytes = src := by
  cases h : src.dropWhile isBlank with
  | nil => exact ⟨⟨[], src⟩, lawful_nil_iff.mpr (isGap_of_dropWhile_eq_nil h), rfl⟩
  | cons b bs =>
    have hb : isBlank b = false := Lexeme.of_head?_dropWhile (by rw [h]; rfl)
    have hwhole : src.takeWhile isBlank ++ b :: bs = src := by
      rw [← h, List.takeWhile_append_dropWhile]
    have hpos : 0 < (Lexeme.first b bs).bytes.length := Lexeme.first_length_pos b bs
    have hlen : ((b :: bs).drop (Lexeme.first b bs).bytes.length).length < src.length := by
      have hsplit := congrArg List.length hwhole
      simp only [List.length_append, List.length_drop, List.length_cons] at hsplit ⊢
      omega
    obtain ⟨⟨ps, tail⟩, hl, hbytes⟩ :=
      exists_lawful ((b :: bs).drop (Lexeme.first b bs).bytes.length)
    refine ⟨⟨⟨src.takeWhile isBlank, Lexeme.first b bs⟩ :: ps, tail⟩, ?_, ?_⟩
    · refine Lawful.cons (isGap_takeWhile src) (Lexeme.first_legal bs hb) ?_ hl
      intro c hc
      rw [hbytes] at hc
      exact Lexeme.first_not_joins hc
    · rw [bytes_cons, hbytes, Piece.bytes, List.append_assoc, Lexeme.first_append_drop, hwhole]
termination_by src.length
decreasing_by exact hlen

end Layout

/-! ## 3. Lawfulness can be decided -/

instance decidableIsGap : DecidablePred IsGap := fun bytes =>
  decidable_of_iff (bytes.all isBlank = true) List.all_eq_true

namespace Layout

instance decidableClear (p q : Piece) : Decidable (Clear p q) :=
  decidable_of_iff
    (q.gap = [] → (q.lexeme.bytes.head?.all fun b => !p.lexeme.joins b) = true)
    (by simp [Clear, Option.all_eq_true])

instance decidableAllClear : DecidablePred AllClear
  | [] => .isTrue trivial
  | [_] => .isTrue trivial
  | p :: q :: ps =>
    have := decidableAllClear (q :: ps)
    inferInstanceAs (Decidable (Clear p q ∧ AllClear (q :: ps)))

instance decidableLawful : DecidablePred Lawful := fun l =>
  decidable_of_iff
    ((∀ p ∈ l.pieces, IsGap p.gap) ∧ (∀ p ∈ l.pieces, p.lexeme.Legal) ∧ IsGap l.tail ∧
      AllClear l.pieces)
    ⟨fun ⟨hg, hx, ht, hc⟩ => ⟨hg, hx, ht, hc⟩,
      fun h => ⟨h.gap_blank, h.lexeme_legal, h.tail_blank, h.all_clear⟩⟩

end Layout

namespace TokenStream

/-! ## 4. One pull -/

/-- In front of a gap and a byte that is no blank, the stream reads a lexeme from that byte. -/
theorem pull_gap_cons {read gap bs : List UInt8} {b : UInt8} {finished : Bool} (hg : IsGap gap)
    (hb : isBlank b = false) :
    pull ⟨gap ++ b :: bs, .after read, finished⟩ =
      (⟨Lexeme.first b bs, .after (read ++ gap)⟩,
        ⟨(b :: bs).drop (Lexeme.first b bs).bytes.length,
          (Position.after (read ++ gap)).overLexeme (Lexeme.first b bs).bytes.length,
          finished⟩) := by
  have hhead : ∀ c, (b :: bs).head? = some c → isBlank c = false := by
    intro c hc
    obtain rfl : b = c := by simpa using hc
    exact hb
  have htake : (gap ++ b :: bs).takeWhile isBlank = gap :=
    Lexeme.takeWhile_append_of_head? hg hhead
  have hdrop : (gap ++ b :: bs).dropWhile isBlank = b :: bs :=
    dropWhile_append_of_head? hg hhead
  simp only [pull, htake, hdrop, Position.overBlanks_after]

/-- **In front of a lawful piece.** -/
theorem pull_piece {read rest : List UInt8} {p : Piece} {finished : Bool} (hg : IsGap p.gap)
    (hx : p.lexeme.Legal) (hr : ∀ c, rest.head? = some c → p.lexeme.joins c = false) :
    pull ⟨p.bytes ++ rest, .after read, finished⟩ =
      (⟨p.lexeme, .after (read ++ p.gap)⟩, ⟨rest, .after (read ++ p.bytes), finished⟩) := by
  obtain ⟨b, bs, hbs, hb⟩ := hx.exists_cons
  have hwhole : p.bytes ++ rest = p.gap ++ b :: (bs ++ rest) := by simp [Piece.bytes, hbs]
  have hfirst : Lexeme.first b (bs ++ rest) = p.lexeme := Lexeme.first_append hx hbs hr
  have hleft : (b :: (bs ++ rest)).drop p.lexeme.bytes.length = rest := by
    rw [← List.cons_append, ← hbs, List.drop_left]
  rw [hwhole, pull_gap_cons hg hb, hfirst, hleft,
    Position.overLexeme_after hx.newline_not_mem, Piece.bytes, List.append_assoc]

/-- **In front of nothing but a gap.** -/
theorem pull_gap {read gap : List UInt8} {finished : Bool} (hg : IsGap gap) :
    pull ⟨gap, .after read, finished⟩ =
      (⟨⟨.endOfFile, []⟩, .after (read ++ gap)⟩, ⟨[], .after (read ++ gap), true⟩) := by
  have htake : gap.takeWhile isBlank = gap := List.takeWhile_eq_self_iff.mpr hg
  have hdrop : gap.dropWhile isBlank = [] := List.dropWhile_eq_nil_iff.mpr hg
  simp only [pull, htake, hdrop, Position.overBlanks_after]

section Layout

variable {ps : List Piece} {tail : List UInt8}

/-- A pull in front of a lawful layout takes its first piece. -/
theorem pull_layout_cons {p : Piece} (h : Layout.Lawful ⟨p :: ps, tail⟩) (read : List UInt8)
    (finished : Bool) :
    pull ⟨Layout.bytes ⟨p :: ps, tail⟩, .after read, finished⟩ =
      (⟨p.lexeme, .after (read ++ p.gap)⟩,
        ⟨Layout.bytes ⟨ps, tail⟩, .after (read ++ p.bytes), finished⟩) := by
  rw [Layout.bytes_cons]
  exact pull_piece h.isGap_head h.legal_head fun c hc => h.not_joins hc

theorem pull_layout_nil (h : Layout.Lawful ⟨[], tail⟩) (read : List UInt8) (finished : Bool) :
    pull ⟨Layout.bytes ⟨[], tail⟩, .after read, finished⟩ =
      (⟨⟨.endOfFile, []⟩, .after (read ++ tail)⟩, ⟨[], .after (read ++ tail), true⟩) := by
  rw [Layout.bytes_nil]
  exact pull_gap h.tail_blank

end Layout

/-! ## 5. Draining -/

/-- Any fold over a stream is the fold over what draining it gives. -/
theorem foldl_eq_foldl_drain {α : Type} (f : α → Token → α) (acc : α) (s : TokenStream) :
    s.foldl f acc = (s.drain.1.foldl f acc, s.drain.2) := by
  cases h : s.next? with
  | none => simp [drain, foldl_of_next?_eq_none h]
  | some r =>
    obtain ⟨t, s'⟩ := r
    have hlt : s'.pending < s.pending := pending_lt_of_next? h
    have hf := foldl_eq_foldl_drain f (f acc t) s'
    have hcons := foldl_eq_foldl_drain (fun ts t => t :: ts) [t] s'
    simp [drain, foldl_of_next?_eq_some h, hf, hcons]
termination_by s.pending

theorem drain_of_next?_eq_some {s s' : TokenStream} {t : Token} (h : s.next? = some (t, s')) :
    s.drain = (t :: s'.drain.1, s'.drain.2) := by
  have hcons := foldl_eq_foldl_drain (fun ts t => t :: ts) [t] s'
  rw [drain, foldl_of_next?_eq_some h, hcons]
  simp

theorem drain_of_finished {s : TokenStream} (h : s.finished = true) : s.drain = ([], s) := by
  simp [drain, foldl_of_next?_eq_none (next?_eq_none_iff.mpr h)]

theorem drain_of_not_finished {s : TokenStream} (h : s.finished = false) :
    s.drain = (s.pull.1 :: s.pull.2.drain.1, s.pull.2.drain.2) :=
  drain_of_next?_eq_some (next?_eq_some_iff.mpr ⟨h, rfl⟩)

/-- **A stream yields the tokens of a lawful layout that it stands in front of.** -/
theorem drain_layout {ps : List Piece} {tail : List UInt8} (h : Layout.Lawful ⟨ps, tail⟩)
    (read : List UInt8) :
    drain ⟨Layout.bytes ⟨ps, tail⟩, .after read, false⟩ =
      (Layout.tokensAfter read ps ++
          [⟨⟨.endOfFile, []⟩, .after (read ++ Layout.bytes ⟨ps, tail⟩)⟩],
        ⟨[], .after (read ++ Layout.bytes ⟨ps, tail⟩), true⟩) := by
  induction ps generalizing read with
  | nil =>
    rw [drain_of_not_finished rfl, pull_layout_nil h, drain_of_finished rfl]
    rfl
  | cons p ps ih =>
    rw [drain_of_not_finished rfl, pull_layout_cons h, ih h.tail, Layout.bytes_cons,
      List.append_assoc]
    rfl

end TokenStream

/-- **The tokens of a laid-out source are those that were put there.** -/
theorem tokenize_bytes {l : Layout} (h : l.Lawful) : tokenize l.bytes = l.tokens := by
  rw [tokenize, TokenStream.ofBytes, ← Position.after_nil, TokenStream.drain_layout h]
  rfl

end LexicalAnalysis
