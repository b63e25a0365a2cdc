/-
# A stream is an index into the tokens

All that a stream of a source will ever yield is settled by one number: how many tokens it has
yielded.  `Indexes src i s` says that the stream `s` has yielded `i` tokens of `src`, and every
way of reading moves the index as one would expect of a list:

* `Indexes.pull`: a pull yields the token at the index, and the last one again and again;
* `Indexes.next?_of_lt`, `Indexes.next?_of_length`: `next?` yields each token once;
* `Indexes.take`, `Indexes.nth?`, `Indexes.drain`, `Indexes.count`: the repetitions of `next?`.

The position of a stream is that of the last token it yielded, moved over its lexeme
(`placeAt`).  It is not the position of the next one: the gap between them is read with the
latter.
-/
import LexicalAnalysis.Proofs.Scan

namespace LexicalAnalysis

/-! ## 1. The tokens of a source, by number -/

/-- The token that ends a source. -/
def endToken (src : List UInt8) : Token := ⟨⟨.endOfFile, []⟩, .after src⟩

theorem exists_tokenize_eq_append (src : List UInt8) :
    ∃ ts, tokenize src = ts ++ [endToken src] := by
  obtain ⟨l, hl, rfl⟩ := Layout.exists_lawful src
  exact ⟨_, tokenize_bytes hl⟩

theorem length_tokenize_pos (src : List UInt8) : 0 < (tokenize src).length := by
  obtain ⟨ts, hts⟩ := exists_tokenize_eq_append src
  simp [hts]

/-- The token of a number, and the end token for every number past it. -/
def tokenAt (src : List UInt8) (i : Nat) : Token :=
  (tokenize src).get ⟨min i ((tokenize src).length - 1), by
    have := length_tokenize_pos src
    omega⟩

/-- Where a stream stands that has yielded so many tokens: behind the last of them. -/
def placeAt (src : List UInt8) : Nat → Position
  | 0 => .start
  | i + 1 => (tokenAt src i).position.overLexeme (tokenAt src i).bytes.length

theorem getElem?_tokenAt {src : List UInt8} {i : Nat} (hi : i < (tokenize src).length) :
    (tokenize src)[i]? = some (tokenAt src i) := by
  have hmin : min i ((tokenize src).length - 1) = i := by omega
  simp [tokenAt, hmin, hi]

theorem drop_eq_tokenAt_cons {src : List UInt8} {i : Nat} (hi : i < (tokenize src).length) :
    (tokenize src).drop i = tokenAt src i :: (tokenize src).drop (i + 1) := by
  have hget := getElem?_tokenAt hi
  rw [List.getElem?_eq_getElem hi, Option.some.injEq] at hget
  rw [List.drop_eq_getElem_cons hi, hget]

theorem tokenAt_of_le {src : List UInt8} {i : Nat} (hi : (tokenize src).length ≤ i + 1) :
    tokenAt src i = endToken src := by
  have hmin : min i ((tokenize src).length - 1) = (tokenize src).length - 1 := by omega
  have hlast : (tokenize src)[(tokenize src).length - 1]? = some (endToken src) := by
    obtain ⟨ts, hts⟩ := exists_tokenize_eq_append src
    simp [hts]
  rw [List.getElem?_eq_some_iff] at hlast
  obtain ⟨_, hlast⟩ := hlast
  simp only [tokenAt, hmin]
  exact hlast

theorem placeAt_length (src : List UInt8) :
    placeAt src (tokenize src).length = .after src := by
  obtain ⟨n, hn⟩ := Nat.exists_eq_succ_of_ne_zero (length_tokenize_pos src).ne'
  rw [hn, Nat.succ_eq_add_one, placeAt, tokenAt_of_le (Nat.le_of_eq hn)]
  exact Position.overLexeme_zero _

namespace TokenStream

/-! ## 2. What a stream has read -/

/-- The stream has read the given part of the source: the rest of it is left, the position counts
what was read, and once the end token was yielded nothing is left. -/
structure HasRead (src read : List UInt8) (s : TokenStream) : Prop where
  append_rest : read ++ s.rest = src
  position_eq : s.position = .after read
  rest_eq_nil : s.finished = true → s.rest = []

theorem hasRead_ofBytes (src : List UInt8) : HasRead src [] (ofBytes src) :=
  ⟨rfl, rfl, fun h => by cases h⟩

/-- **A pull reads on.** -/
theorem HasRead.pull {src read : List UInt8} {s : TokenStream} (h : HasRead src read s) :
    ∃ more, HasRead src (read ++ more) s.pull.2 := by
  obtain ⟨rest, position, finished⟩ := s
  obtain rfl : position = .after read := h.position_eq
  obtain ⟨⟨ps, tail⟩, hl, rfl⟩ := Layout.exists_lawful rest
  cases ps with
  | nil =>
    refine ⟨tail, ?_⟩
    rw [pull_layout_nil hl]
    exact ⟨by simpa using h.append_rest, rfl, fun _ => rfl⟩
  | cons p ps =>
    refine ⟨p.bytes, ?_⟩
    rw [pull_layout_cons hl]
    refine ⟨by simpa using h.append_rest, rfl, fun hf => ?_⟩
    have hnil : p.bytes ++ Layout.bytes ⟨ps, tail⟩ = [] := by
      rw [← Layout.bytes_cons]
      exact h.rest_eq_nil hf
    exact (List.append_eq_nil_iff.mp hnil).2

theorem HasRead.atEnd_iff {src read : List UInt8} {s : TokenStream} (h : HasRead src read s) :
    s.atEnd = true ↔ s.position.offset = src.length := by
  rw [atEnd, List.isEmpty_iff, h.position_eq, Position.after_offset, ← h.append_rest,
    List.length_append, ← List.length_eq_zero_iff]
  omega

theorem pull_position (s : TokenStream) :
    s.pull.2.position = s.pull.1.position.overLexeme s.pull.1.bytes.length := by
  simp only [pull]
  split
  · exact (Position.overLexeme_zero _).symm
  · rfl

theorem pull_of_rest_eq_nil {s : TokenStream} (h : s.rest = []) :
    s.pull = (⟨⟨.endOfFile, []⟩, s.position⟩, ⟨[], s.position, true⟩) := by
  simp [pull, h]

/-! ## 3. Streams and numbers -/

/-- **The stream has yielded that many tokens of the source**, and stands behind the last of
them. -/
structure Indexes (src : List UInt8) (i : Nat) (s : TokenStream) : Prop where
  le_length : i ≤ (tokenize src).length
  drain_eq : s.drain.1 = (tokenize src).drop i
  position_eq : s.position = placeAt src i
  hasRead : ∃ read, HasRead src read s

variable {src : List UInt8} {i : Nat} {s : TokenStream}

theorem indexes_ofBytes (src : List UInt8) : Indexes src 0 (ofBytes src) :=
  ⟨Nat.zero_le _, rfl, rfl, [], hasRead_ofBytes src⟩

/-- The end token was yielded exactly if all tokens were. -/
theorem Indexes.finished_iff (h : Indexes src i s) :
    s.finished = true ↔ i = (tokenize src).length := by
  have hle := h.le_length
  have hdrain := h.drain_eq
  constructor
  · intro hf
    rw [drain_of_finished hf] at hdrain
    have hge := List.drop_eq_nil_iff.mp hdrain.symm
    omega
  · rintro rfl
    cases hf : s.finished with
    | true => rfl
    | false =>
      rw [drain_of_not_finished hf, List.drop_length] at hdrain
      cases hdrain

/-- What is left of a stream at an index that has a token. -/
theorem Indexes.next?_of_lt (h : Indexes src i s) (hi : i < (tokenize src).length) :
    ∃ s', s.next? = some (tokenAt src i, s') ∧ s.pull = (tokenAt src i, s') ∧
      Indexes src (i + 1) s' := by
  have hf : s.finished = false := by
    rw [← Bool.not_eq_true, h.finished_iff]
    omega
  have hp : s.next? = some s.pull := next?_eq_some_iff.mpr ⟨hf, rfl⟩
  have hdrain := h.drain_eq
  rw [drain_of_not_finished hf, drop_eq_tokenAt_cons hi] at hdrain
  obtain ⟨htoken, hrest⟩ := List.cons.inj hdrain
  obtain ⟨read, hread⟩ := h.hasRead
  obtain ⟨more, hmore⟩ := hread.pull
  have hpull : s.pull = (tokenAt src i, s.pull.2) := by rw [← htoken]
  refine ⟨s.pull.2, hp.trans (congrArg some hpull), hpull, hi, hrest, ?_, _, hmore⟩
  rw [pull_position, htoken, placeAt]

theorem Indexes.next?_of_length (h : Indexes src (tokenize src).length s) : s.next? = none :=
  next?_eq_none_iff.mpr (h.finished_iff.mpr rfl)

/-- **A pull yields the token at the index**, and the last one again once all were yielded. -/
theorem Indexes.pull (h : Indexes src i s) :
    s.pull.1 = tokenAt src i ∧ Indexes src (min (i + 1) (tokenize src).length) s.pull.2 := by
  rcases Nat.lt_or_eq_of_le h.le_length with hi | rfl
  · obtain ⟨s', -, hp, hs'⟩ := h.next?_of_lt hi
    rw [hp, Nat.min_eq_left hi]
    exact ⟨rfl, hs'⟩
  · have hf : s.finished = true := h.finished_iff.mpr rfl
    obtain ⟨read, hread⟩ := h.hasRead
    have hrest : s.rest = [] := hread.rest_eq_nil hf
    have hs : (⟨[], s.position, true⟩ : TokenStream) = s := by rw [← hrest, ← hf]
    rw [pull_of_rest_eq_nil hrest, hs, Nat.min_eq_right (Nat.le_succ _),
      tokenAt_of_le (Nat.le_succ _), endToken, h.position_eq, placeAt_length]
    exact ⟨rfl, h⟩

/-- A stream has read every byte exactly if its place is at the end of the source. -/
theorem Indexes.atEnd_iff (h : Indexes src i s) :
    s.atEnd = true ↔ (placeAt src i).offset = src.length := by
  obtain ⟨read, hread⟩ := h.hasRead
  rw [hread.atEnd_iff, h.position_eq]

/-- **A stream that has read every byte has nothing but the end token in front of it**, and that
is where it stands. -/
theorem Indexes.of_atEnd (h : Indexes src i s) (he : s.atEnd = true) :
    (tokenize src).length ≤ i + 1 ∧ s.position = .after src := by
  have hrest : s.rest = [] := List.isEmpty_iff.mp he
  obtain ⟨read, hread⟩ := h.hasRead
  have hread_eq : read = src := by
    have happend := hread.append_rest
    rwa [hrest, List.append_nil] at happend
  refine ⟨?_, by rw [hread.position_eq, hread_eq]⟩
  have hleft : s.drain.1.length ≤ 1 := by
    cases hf : s.finished with
    | true => simp [drain_of_finished hf]
    | false =>
      rw [drain_of_not_finished hf, pull_of_rest_eq_nil hrest, drain_of_finished rfl]
      exact Nat.le_refl 1
  rw [h.drain_eq, List.length_drop] at hleft
  omega

/-! ## 4. Many tokens -/

theorem take_go_eq (read : List Token) (n : Nat) (s : TokenStream) :
    take.go read n s = (read.reverse ++ (s.take n).1, (s.take n).2) := by
  induction n generalizing read s with
  | zero => simp [take, take.go]
  | succ n ih =>
    cases h : s.next? with
    | none => simp [take, take.go, h]
    | some r =>
      obtain ⟨t, s'⟩ := r
      simp only [take, take.go, h, ih (t :: read) s', ih [t] s']
      simp

theorem take_succ_of_none {n : Nat} (h : s.next? = none) : s.take (n + 1) = ([], s) := by
  simp [take, take.go, h]

theorem take_succ_of_some {n : Nat} {t : Token} {s' : TokenStream} (h : s.next? = some (t, s')) :
    s.take (n + 1) = (t :: (s'.take n).1, (s'.take n).2) := by
  rw [take, take.go, h]
  simp only [take_go_eq]
  simp

/-- **Taking.** -/
theorem Indexes.take (h : Indexes src i s) (n : Nat) :
    (s.take n).1 = ((tokenize src).drop i).take n ∧
      Indexes src (min (i + n) (tokenize src).length) (s.take n).2 := by
  induction n generalizing i s with
  | zero =>
    rw [List.take_zero, Nat.add_zero, Nat.min_eq_left h.le_length]
    exact ⟨rfl, h⟩
  | succ n ih =>
    rcases Nat.lt_or_eq_of_le h.le_length with hi | rfl
    · obtain ⟨s', hn, -, hs'⟩ := h.next?_of_lt hi
      obtain ⟨htokens, hindex⟩ := ih hs'
      rw [take_succ_of_some hn, drop_eq_tokenAt_cons hi, List.take_succ_cons, htokens,
        ← Nat.add_assoc, Nat.add_right_comm]
      exact ⟨rfl, hindex⟩
    · rw [take_succ_of_none h.next?_of_length, Nat.min_eq_right (Nat.le_add_right _ _)]
      exact ⟨by simp, h⟩

/-- **Skipping.** -/
theorem Indexes.nth? (h : Indexes src i s) (n : Nat) :
    (s.nth? n).1 = (tokenize src)[i + n]? ∧
      Indexes src (min (i + n + 1) (tokenize src).length) (s.nth? n).2 := by
  induction n generalizing i s with
  | zero =>
    rcases Nat.lt_or_eq_of_le h.le_length with hi | rfl
    · obtain ⟨s', hn, -, hs'⟩ := h.next?_of_lt hi
      rw [TokenStream.nth?, hn, Nat.add_zero, getElem?_tokenAt hi, Nat.min_eq_left hi]
      exact ⟨rfl, hs'⟩
    · rw [TokenStream.nth?, h.next?_of_length, Nat.add_zero, Nat.min_eq_right (Nat.le_succ _)]
      exact ⟨by simp, h⟩
  | succ n ih =>
    rcases Nat.lt_or_eq_of_le h.le_length with hi | rfl
    · obtain ⟨s', hn, -, hs'⟩ := h.next?_of_lt hi
      rw [TokenStream.nth?, hn, ← Nat.add_assoc, Nat.add_right_comm]
      exact ih hs'
    · rw [TokenStream.nth?, h.next?_of_length, Nat.min_eq_right (by omega)]
      exact ⟨by simp, h⟩

/-- **Draining.** -/
theorem Indexes.drain (h : Indexes src i s) : Indexes src (tokenize src).length s.drain.2 := by
  obtain ⟨n, hn⟩ := Nat.exists_eq_add_of_le h.le_length
  induction n generalizing i s with
  | zero =>
    obtain rfl : i = (tokenize src).length := hn.symm
    rw [drain_of_finished (h.finished_iff.mpr rfl)]
    exact h
  | succ n ih =>
    obtain ⟨s', hs, -, hs'⟩ := h.next?_of_lt (by omega)
    rw [drain_of_next?_eq_some hs]
    exact ih hs' (by omega)

theorem count_eq (s : TokenStream) : s.count = (s.drain.1.length, s.drain.2) := by
  rw [count, foldl_eq_foldl_drain, List.foldl_add_const]
  simp

/-- **Counting.** -/
theorem Indexes.count (h : Indexes src i s) :
    s.count.1 = (tokenize src).length - i ∧ Indexes src (tokenize src).length s.count.2 := by
  rw [count_eq, h.drain_eq, List.length_drop]
  exact ⟨rfl, h.drain⟩

end TokenStream

end LexicalAnalysis
