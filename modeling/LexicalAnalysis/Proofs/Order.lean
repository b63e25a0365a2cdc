/-
# The order of the tokens

The tokens of a source come in three orders.  The stream has one; positions have one, by offset
first; and people have one, who go by line and column.  They are the same, since every token but
the last has a byte, and reading on goes down a line or to the right.

* `Position.compare_eq_lt_iff`: what the order on positions is;
* `Position.sort_eq_of_perm`: sorting brings back any list that was in order;
* `Token.Precedes`: what a token has to do with one that comes after it;
* `orders_agree`: the three orders are one, for the tokens and for the diagnostics of a check.
-/
import LexicalAnalysis.Proofs.Strays

namespace LexicalAnalysis

namespace Position

/-! ## 1. The order of positions -/

theorem compare_def (p q : Position) :
    compare p q = (compare p.offset q.offset).then
      ((compare p.line.toNat q.line.toNat).then (compare p.column.toNat q.column.toNat)) := rfl

/-- **The order of positions**: by offset, then by line, then by column. -/
theorem compare_eq_lt_iff {p q : Position} :
    compare p q = .lt ↔ p.offset < q.offset ∨
      p.offset = q.offset ∧ (p.line < q.line ∨ p.line = q.line ∧ p.column < q.column) := by
  simp only [compare_def, Ordering.then_eq_lt, Nat.compare_eq_lt, Nat.compare_eq_eq,
    UInt32.lt_iff_toNat_lt, UInt32.toNat_inj]

instance transOrd : Std.TransOrd Position :=
  inferInstanceAs (Std.TransCmp (compareLex (compareOn offset)
    (compareLex (compareOn fun p : Position => p.line.toNat)
      (compareOn fun p : Position => p.column.toNat))))

/-- Positions that compare equal are equal. -/
instance lawfulEqOrd : Std.LawfulEqOrd Position where
  eq_of_compare {p q} h := by
    obtain ⟨offset, line, column⟩ := p
    obtain ⟨offset', line', column'⟩ := q
    simpa only [compare_def, Ordering.then_eq_eq, Nat.compare_eq_eq, UInt32.toNat_inj,
      Position.mk.injEq] using h

theorem sort_pairwise (ps : List Position) :
    (sort ps).Pairwise fun p q => (compare p q).isLE = true := by
  refine List.pairwise_mergeSort ?_ ?_ ps
  · intro p q r hpq hqr
    exact Std.TransCmp.isLE_trans hpq hqr
  · intro p q
    have hswap : compare q p = (compare p q).swap := Std.OrientedOrd.eq_swap
    rw [hswap]
    cases compare p q <;> rfl

/-- **Sorting brings back a list that was in order**, however it was shuffled. -/
theorem sort_eq_of_perm {ps qs : List Position} (hperm : ps.Perm qs)
    (hqs : qs.Pairwise fun p q => compare p q = .lt) : sort ps = qs := by
  have hle : qs.Pairwise fun p q => (compare p q).isLE = true :=
    hqs.imp fun hlt => by rw [hlt]; rfl
  refine List.Perm.eq_of_pairwise ?_ (sort_pairwise ps) hle
    ((List.mergeSort_perm ps _).trans hperm)
  intro p q _ _ hpq hqp
  exact Std.LawfulEqCmp.eq_of_compare (Std.OrientedCmp.isLE_antisymm hpq hqp)

end Position

/-! ## 2. Tokens in order -/

/-- **A token before another one.**  It ends before the other one starts; its position is the
smaller one; and it stands on an earlier line, or on the same line and ends there before the other
one starts. -/
structure Token.Precedes (t u : Token) : Prop where
  offset_le : t.position.offset + t.bytes.length ≤ u.position.offset
  compare_eq : compare t.position u.position = .lt
  place_lt : t.position.line < u.position.line ∨
    t.position.line = u.position.line ∧ t.position.column < u.position.column
  column_le : t.position.line = u.position.line →
    t.position.column.toNat + t.bytes.length ≤ u.position.column.toNat

/-- What is read from one token up to another tells which is first. -/
theorem Token.precedes_of_position {t u : Token} {read mid : List UInt8}
    (hfits : Fits (read ++ (t.bytes ++ mid))) (hne : t.bytes ≠ [])
    (ht : t.position = .after read) (hu : u.position = .after (read ++ (t.bytes ++ mid))) :
    t.Precedes u := by
  have hpos : 0 < t.bytes.length := List.length_pos_iff.mpr hne
  have hoffset : t.position.offset + t.bytes.length ≤ u.position.offset := by
    simp only [ht, hu, Position.after_offset, List.length_append]
    omega
  have hplace := Position.line_lt_or_column_eq hfits
  rw [← ht, ← hu, List.length_append] at hplace
  refine ⟨hoffset, Position.compare_eq_lt_iff.mpr (.inl (by omega)), ?_, ?_⟩
  · rcases hplace with hline | ⟨hline, hcolumn⟩
    · exact .inl hline
    · exact .inr ⟨hline, UInt32.lt_iff_toNat_lt.mpr (by omega)⟩
  · intro hline
    rcases hplace with hlt | ⟨-, hcolumn⟩
    · rw [hline] at hlt
      exact absurd hlt (UInt32.lt_irrefl _)
    · omega

/-- **Every token is before all that come after it**, the end token among them. -/
theorem tokenize_pairwise_precedes {src : List UInt8} (hsrc : Fits src) :
    (tokenize src).Pairwise Token.Precedes := by
  have hlast : (tokenize src).Pairwise fun t _ => t.isEndOfFile = false := by
    obtain ⟨l, hl, rfl⟩ := Layout.exists_lawful src
    rw [tokenize_bytes hl]
    exact hl.pairwise_not_isEndOfFile
  refine ((tokenize_pairwise src).and hlast).imp_of_mem ?_
  rintro t u ht hu ⟨hle, he⟩
  obtain ⟨read, mid, hread, -, hmid, hprefix⟩ := exists_between_of_le ht hu hle
  have hfits : Fits (read ++ (t.bytes ++ mid)) :=
    hsrc.of_length_le ((List.prefix_append _ u.bytes).trans hprefix).length_le
  exact Token.precedes_of_position hfits (legal_of_mem_tokenize ht he).bytes_ne_nil hread hmid

/-! ## 3. Places and positions -/

/-- No two tokens have one line and column. -/
theorem nodup_places {ts : List Token} (h : ts.Pairwise Token.Precedes) :
    (ts.map fun t => (t.position.line, t.position.column)).Nodup := by
  rw [List.Nodup, List.pairwise_map]
  refine h.imp ?_
  intro t u hbefore hplace
  obtain ⟨hline, hcolumn⟩ := Prod.mk.inj hplace
  rcases hbefore.place_lt with hlt | ⟨-, hlt⟩
  · rw [hline] at hlt
    exact UInt32.lt_irrefl _ hlt
  · rw [hcolumn] at hlt
    exact UInt32.lt_irrefl _ hlt

/-- The positions of tokens in order are in order. -/
theorem pairwise_positions {ts : List Token} (h : ts.Pairwise Token.Precedes) :
    (ts.map (·.position)).Pairwise fun p q => compare p q = .lt :=
  List.pairwise_map.mpr (h.imp fun hbefore => hbefore.compare_eq)

/-- The positions of the diagnostics of a check are those of its illegal tokens. -/
theorem map_position_of_check_eq_error {s : Source} {ds : List Diagnostic}
    (h : check s = .error ds) :
    ds.map (·.position) = (s.tokens.filter Token.isIllegal).map (·.position) := by
  rw [eq_map_of_check_eq_error h, List.map_map]
  rfl

/-- **The order of the stream, of the positions and of the text are one.**  Of any two tokens of a
source the earlier one is before the later one by offset, by position, and by line and column.  So
line and column tell a token from all others, and whoever sorts the positions of the tokens, or of
the diagnostics of a check, gets them in the order of the stream. -/
theorem orders_agree (src : List UInt8) (hsrc : Fits src) :
    (tokenize src).Pairwise Token.Precedes ∧
      ((tokenize src).map fun t => (t.position.line, t.position.column)).Nodup ∧
      (∀ ps : List Position, ps.Perm ((tokenize src).map (·.position)) →
        Position.sort ps = (tokenize src).map (·.position)) ∧
      ∀ name? ds, check (.ofBytes src name?) = .error ds →
        ∀ ps : List Position, ps.Perm (ds.map (·.position)) →
          Position.sort ps = ds.map (·.position) := by
  have hbefore := tokenize_pairwise_precedes hsrc
  refine ⟨hbefore, nodup_places hbefore, ?_, ?_⟩
  · intro ps hps
    exact Position.sort_eq_of_perm hps (pairwise_positions hbefore)
  · intro name? ds hcheck ps hps
    refine Position.sort_eq_of_perm hps ?_
    rw [map_position_of_check_eq_error hcheck]
    exact pairwise_positions (hbefore.filter Token.isIllegal)

/-- Two marks on two lines, the first one further to the right, and blanks up to the end. -/
theorem orders_agree_marks :
    let src := ascii ['x', '@', '\n', '@', ' ']
    let x : Token := ⟨⟨.identifier, ascii ['x']⟩, ⟨0, 1, 1⟩⟩
    let mark : Token := ⟨⟨.illegal, ascii ['@']⟩, ⟨1, 1, 2⟩⟩
    let mark' : Token := ⟨⟨.illegal, ascii ['@']⟩, ⟨3, 2, 1⟩⟩
    let last : Token := ⟨⟨.endOfFile, []⟩, ⟨5, 2, 3⟩⟩
    Fits src ∧ tokenize src = [x, mark, mark', last] ∧ x.Precedes mark ∧ mark.Precedes mark' ∧
      mark'.Precedes last ∧
      Position.sort [⟨5, 2, 3⟩, ⟨3, 2, 1⟩, ⟨1, 1, 2⟩, ⟨0, 1, 1⟩] =
        [⟨0, 1, 1⟩, ⟨1, 1, 2⟩, ⟨3, 2, 1⟩, ⟨5, 2, 3⟩] ∧
      Position.sort [⟨3, 2, 1⟩, ⟨1, 1, 2⟩] = [⟨1, 1, 2⟩, ⟨3, 2, 1⟩] := by
  let l : Layout := ⟨[⟨[], ⟨.identifier, ascii ['x']⟩⟩, ⟨[], ⟨.illegal, ascii ['@']⟩⟩,
    ⟨ascii ['\n'], ⟨.illegal, ascii ['@']⟩⟩], ascii [' ']⟩
  have hread : tokenize (ascii ['x', '@', '\n', '@', ' ']) = l.tokens :=
    tokenize_bytes (l := l) (by decide)
  have hcheck : check (.ofBytes (ascii ['x', '@', '\n', '@', ' ']) none) =
      .error [⟨.ofBytes (ascii ['@']), ⟨1, 1, 2⟩, "shell"⟩,
        ⟨.ofBytes (ascii ['@']), ⟨3, 2, 1⟩, "shell"⟩] := check_bytes (l := l) (by decide) "shell"
  obtain ⟨hbefore, -, hsort, hsort'⟩ :=
    orders_agree (ascii ['x', '@', '\n', '@', ' ']) (by decide)
  have htokens := hsort [⟨5, 2, 3⟩, ⟨3, 2, 1⟩, ⟨1, 1, 2⟩, ⟨0, 1, 1⟩]
  rw [hread] at hbefore htokens
  obtain ⟨hx, hbefore⟩ := List.pairwise_cons.mp hbefore
  obtain ⟨hmark, hbefore⟩ := List.pairwise_cons.mp hbefore
  obtain ⟨hmark', -⟩ := List.pairwise_cons.mp hbefore
  exact ⟨by decide, hread, hx _ (.head _), hmark _ (.head _), hmark' _ (.head _),
    htokens (by decide), hsort' none _ hcheck [⟨3, 2, 1⟩, ⟨1, 1, 2⟩] (by decide)⟩

end LexicalAnalysis
