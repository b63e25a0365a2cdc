/-
# Segments one by one

Whether some bytes are a segment of a text depends on them and on the one byte that follows them,
not on what is in front of them.  So a text can be cut between any two of its segments, also where
a character breaks off, and both parts keep their segments.

* `Segment.Complete`: what it takes to be a segment, given the byte that follows;
* `chain_segments`: the segments of a text are complete, each in front of the next;
* `segments_joined`: and whatever is so is the segments of what it writes;
* `segments_of_append`: the cut;
* `bytes_eq_of_char_lt`: an ASCII character in a text is an ASCII byte of it, and no other bytes are
  read as one;
* `chars_append_cons_of_lt`: so an ASCII byte stands for itself, whatever is in front of it.
-/
import LexicalAnalysis.Text.Utf8.Lemmas

namespace LexicalAnalysis.Utf8

/-! ## 1. Complete segments -/

/-- The reader behind a text. -/
def reads (bytes : List UInt8) : Reader := bytes.foldl Reader.feed Reader.fresh

/-- What some segments stand for. -/
def joined (segs : List Segment) : List UInt8 := segs.flatMap (·.bytes)

@[simp] theorem joined_nil : joined [] = [] := rfl

@[simp] theorem joined_cons (s : Segment) (segs : List Segment) :
    joined (s :: segs) = s.bytes ++ joined segs := rfl

@[simp] theorem joined_append (segs more : List Segment) :
    joined (segs ++ more) = joined segs ++ joined more := List.flatMap_append

theorem joined_segments (bytes : List UInt8) : joined (segments bytes) = bytes :=
  flatten_segments bytes

/-- **A segment that ends where the given byte follows.**  Its bytes are read as its character, or
they are the start of a character that the byte does not continue. -/
def Segment.Complete (s : Segment) (next? : Option UInt8) : Prop :=
  reads s.bytes = ⟨[s], none⟩ ∨
    ∃ o, reads s.bytes = ⟨[], some o⟩ ∧ s = ⟨o.bytes, replacement⟩ ∧
      ∀ c, next? = some c → o.next.holds c = false

/-- A complete segment is the first one of a text that starts with it. -/
theorem segments_append_of_complete {s : Segment} {rest : List UInt8}
    (h : s.Complete rest.head?) : segments (s.bytes ++ rest) = s :: segments rest := by
  have hdone : ∀ bytes : List UInt8, (bytes.foldl Reader.feed ⟨[s], none⟩).settle.reverse =
      s :: segments bytes := by
    intro bytes
    have hmore := Reader.foldl_feed_done bytes Reader.fresh [s]
    rw [Reader.fresh, List.nil_append] at hmore
    rw [hmore, Reader.settle_append, List.reverse_append]
    rfl
  rcases h with hread | ⟨o, hread, rfl, hnext⟩
  · rw [segments, List.foldl_append, ← reads, hread]
    exact hdone rest
  · rw [segments, List.foldl_append, ← reads, hread]
    cases rest with
    | nil => rfl
    | cons c rest =>
      have hbroken : Reader.feed ⟨[], some o⟩ c =
          Reader.feed ⟨[⟨o.bytes, replacement⟩], none⟩ c := by
        simp [Reader.feed, hnext c rfl, Reader.settle]
      rw [List.foldl_cons, hbroken, ← List.foldl_cons]
      exact hdone (c :: rest)

/-! ## 2. Chains of them -/

/-- Segments that are complete in front of each other, and the last one in front of some bytes. -/
def Chain : List Segment → List UInt8 → Prop
  | [], _ => True
  | s :: segs, rest => s.Complete (joined segs ++ rest).head? ∧ Chain segs rest

theorem chain_append {segs more : List Segment} {rest : List UInt8} :
    Chain (segs ++ more) rest ↔ Chain segs (joined more ++ rest) ∧ Chain more rest := by
  induction segs with
  | nil => simp [Chain]
  | cons s segs ih =>
    rw [List.cons_append, Chain, Chain, ih, joined_append, List.append_assoc, and_assoc]

/-- **A chain is the segments of what it writes.** -/
theorem segments_joined {segs : List Segment} (h : Chain segs []) :
    segments (joined segs) = segs := by
  induction segs with
  | nil => rfl
  | cons s segs ih =>
    obtain ⟨hs, hsegs⟩ := h
    rw [List.append_nil] at hs
    rw [joined_cons, segments_append_of_complete hs, ih hsegs]

/-- What a reader keeps to: what is behind it is a chain in front of whatever follows, and it would
have the character under way from that character's bytes alone. -/
def Reader.Chained (r : Reader) : Prop :=
  match r.opening with
  | none => ∀ rest, Chain r.done.reverse rest
  | some o => reads o.bytes = ⟨[], some o⟩ ∧ ∀ rest, Chain r.done.reverse (o.bytes ++ rest)

theorem reads_singleton (b : UInt8) : reads [b] = Reader.begin [] b := rfl

/-- One segment more behind the reader. -/
theorem chain_reverse_cons {done : List Segment} {s : Segment} {rest : List UInt8}
    (h : Chain done.reverse (s.bytes ++ rest)) (hs : s.Complete rest.head?) :
    Chain (s :: done).reverse rest := by
  rw [List.reverse_cons, chain_append]
  exact ⟨by simpa using h, by simpa [Chain] using hs⟩

theorem Reader.chained_begin {done : List Segment} {b : UInt8}
    (h : ∀ rest, Chain done.reverse (b :: rest)) : (Reader.begin done b).Chained := by
  have hread := reads_singleton b
  simp only [Reader.begin] at hread ⊢
  split
  · next hb =>
    rw [if_pos hb] at hread
    intro rest
    exact chain_reverse_cons (h rest) (.inl hread)
  · next hb =>
    rw [if_neg hb] at hread
    split
    · next o ho =>
      rw [ho] at hread
      rw [← Opening.ofByte?_bytes ho] at hread
      refine ⟨hread, fun rest => ?_⟩
      rw [Opening.ofByte?_bytes ho]
      exact h rest
    · next ho =>
      rw [ho] at hread
      intro rest
      exact chain_reverse_cons (h rest) (.inl hread)

theorem Reader.chained_extend {done : List Segment} {o : Opening} {b : UInt8}
    (ho : reads o.bytes = ⟨[], some o⟩) (hb : o.next.holds b = true)
    (h : ∀ rest, Chain done.reverse (o.bytes ++ rest)) : (Reader.extend done o b).Chained := by
  have hread : reads (o.bytes ++ [b]) = Reader.extend [] o b := by
    rw [reads, List.foldl_append, ← reads, ho]
    simp [Reader.feed, hb]
  have hmore : ∀ rest, Chain done.reverse (o.bytes ++ [b] ++ rest) := by
    intro rest
    rw [List.append_assoc]
    exact h _
  simp only [Reader.extend] at hread ⊢
  split
  · next hlater =>
    rw [hlater] at hread
    intro rest
    exact chain_reverse_cons (hmore rest) (.inl hread)
  · next hlater =>
    rw [hlater] at hread
    exact ⟨hread, hmore⟩

/-- **A reader keeps to it.** -/
theorem Reader.chained_feed {r : Reader} (h : r.Chained) (b : UInt8) : (r.feed b).Chained := by
  obtain ⟨done, opening⟩ := r
  cases opening with
  | none => exact Reader.chained_begin fun rest => h (b :: rest)
  | some o =>
    obtain ⟨hread, hchain⟩ := h
    simp only [Reader.feed]
    split
    · next hb => exact Reader.chained_extend hread hb hchain
    · next hb =>
      -- the character breaks off at `b`, which is why its segment is complete in front of it
      refine Reader.chained_begin fun rest => chain_reverse_cons (hchain (b :: rest)) ?_
      refine .inr ⟨o, hread, rfl, fun c hc => ?_⟩
      obtain rfl : b = c := by simpa using hc
      simpa using hb

theorem Reader.chained_reads (bytes : List UInt8) : (reads bytes).Chained := by
  have hfold : ∀ r : Reader, r.Chained → (bytes.foldl Reader.feed r).Chained := by
    induction bytes with
    | nil => exact fun r h => h
    | cons b bytes ih => exact fun r h => ih _ (Reader.chained_feed h b)
  exact hfold _ fun _ => trivial

/-- **The segments of a text are a chain.** -/
theorem chain_segments (bytes : List UInt8) : Chain (segments bytes) [] := by
  have h := Reader.chained_reads bytes
  rw [segments, ← reads]
  generalize reads bytes = r at h
  obtain ⟨done, opening⟩ := r
  cases opening with
  | none => exact h []
  | some o =>
    obtain ⟨hread, hchain⟩ := h
    exact chain_reverse_cons (hchain []) (.inr ⟨o, hread, rfl, by simp⟩)

/-- A segment that a byte ends is a segment where the text ends. -/
theorem Segment.Complete.at_end {s : Segment} {next? : Option UInt8} (h : s.Complete next?) :
    s.Complete none := by
  rcases h with hread | ⟨o, hread, hs, -⟩
  · exact .inl hread
  · exact .inr ⟨o, hread, hs, by simp⟩

/-- A chain in front of some bytes is one where the text ends. -/
theorem Chain.at_end {segs : List Segment} {rest : List UInt8} (h : Chain segs rest) :
    Chain segs [] := by
  induction segs with
  | nil => trivial
  | cons s segs ih =>
    obtain ⟨hs, hsegs⟩ := h
    refine ⟨?_, ih hsegs⟩
    rw [List.append_nil]
    cases hj : joined segs with
    | nil => exact hs.at_end
    | cons b bs =>
      rw [hj] at hs
      exact hs

/-- **A text can be cut between any two of its segments.** -/
theorem segments_of_append {bytes : List UInt8} {front back : List Segment}
    (h : segments bytes = front ++ back) :
    segments (joined front) = front ∧ segments (joined back) = back := by
  have hchain := chain_segments bytes
  rw [h, chain_append] at hchain
  exact ⟨segments_joined hchain.1.at_end, segments_joined hchain.2⟩

theorem Segment.Complete.ne_nil {s : Segment} {next? : Option UInt8} (h : s.Complete next?) :
    s.bytes ≠ [] := by
  intro hnil
  rw [Segment.Complete, hnil] at h
  rcases h with hread | ⟨o, hread, -⟩ <;> cases hread

theorem Chain.length_le {segs : List Segment} {rest : List UInt8} (h : Chain segs rest) :
    segs.length ≤ (joined segs).length := by
  induction segs with
  | nil => exact Nat.zero_le _
  | cons s segs ih =>
    have hpos : 0 < s.bytes.length := List.length_pos_iff.mpr h.1.ne_nil
    have hle := ih h.2
    rw [List.length_cons, joined_cons, List.length_append]
    omega

/-- **A text has no more characters than bytes.** -/
theorem length_chars_le (bytes : List UInt8) : (chars bytes).length ≤ bytes.length := by
  have hle := (chain_segments bytes).length_le
  rw [joined_segments] at hle
  rwa [chars, List.length_map]

/-! ## 3. The segment that a byte is in -/

/-- **A byte of a text and the segment that it is in**, with the segments on both sides. -/
structure Around (bytes : List UInt8) (i : Nat) (front : List Segment) (x : Segment)
    (back : List Segment) : Prop where
  segments_eq : segments bytes = front ++ x :: back
  le : (joined front).length ≤ i
  lt : i < (joined front).length + x.bytes.length

theorem exists_eq_append_cons_of_lt {segs : List Segment} {i : Nat}
    (h : i < (joined segs).length) :
    ∃ front x back, segs = front ++ x :: back ∧ (joined front).length ≤ i ∧
      i < (joined front).length + x.bytes.length := by
  induction segs generalizing i with
  | nil => exact absurd h (Nat.not_lt_zero i)
  | cons s segs ih =>
    rw [joined_cons, List.length_append] at h
    by_cases hs : i < s.bytes.length
    · exact ⟨[], s, segs, rfl, Nat.zero_le i, by simpa using hs⟩
    · obtain ⟨front, x, back, rfl, hle, hlt⟩ := ih (i := i - s.bytes.length) (by omega)
      refine ⟨s :: front, x, back, rfl, ?_, ?_⟩ <;>
        · rw [joined_cons, List.length_append]
          omega

/-- Every byte of a text is in a segment. -/
theorem exists_around {bytes : List UInt8} {i : Nat} (h : i < bytes.length) :
    ∃ front x back, Around bytes i front x back := by
  rw [← joined_segments bytes] at h
  obtain ⟨front, x, back, hsegs, hle, hlt⟩ := exists_eq_append_cons_of_lt h
  exact ⟨front, x, back, hsegs, hle, hlt⟩

/-! ## 4. ASCII in a text -/

/-- What a character under way may still become: with its last byte a character past ASCII, and
before that enough bits for one. -/
def Opening.Promises (o : Opening) : Prop :=
  ∀ b, o.next.holds b = true →
    match o.later, o.value * 64 + (b.toNat - 0x80) with
    | 0, v => 0x80 ≤ v ∧ v.isValidChar
    | 1, v => 2 ≤ v ∧ v < 0x4400 ∧ (v < 0x360 ∨ 0x37F < v)
    | 2, v => 0x10 ≤ v ∧ v < 0x110
    | _, _ => False

theorem holds_iff {r : ByteRange} {b : UInt8} :
    r.holds b = true ↔ r.low.toNat ≤ b.toNat ∧ b.toNat ≤ r.high.toNat := by
  simp [ByteRange.holds, UInt8.le_iff_toNat_le]

theorem continuation_holds_iff {b : UInt8} :
    continuation.holds b = true ↔ 0x80 ≤ b.toNat ∧ b.toNat ≤ 0xBF := holds_iff

theorem Opening.promises_ofByte? {b : UInt8} {o : Opening} (h : Opening.ofByte? b = some o) :
    o.Promises := by
  simp only [Opening.ofByte?, UInt8.le_iff_toNat_le, ← UInt8.toNat_inj] at h
  repeat' split at h
  all_goals cases h
  all_goals
    intro c hc
    simp [holds_iff, continuation, Nat.isValidChar] at *
    omega

/-- A segment that is read as ASCII is the ASCII byte. -/
def Segment.Plain (s : Segment) : Prop :=
  s.char.toNat < 0x80 → s.bytes = [UInt8.ofNat s.char.toNat]

theorem Segment.plain_of_le {s : Segment} (h : 0x80 ≤ s.char.toNat) : s.Plain :=
  fun hlt => absurd hlt (Nat.not_lt.mpr h)

theorem Segment.plain_replacement (bytes : List UInt8) : Segment.Plain ⟨bytes, replacement⟩ :=
  Segment.plain_of_le (show 0x80 ≤ replacement.toNat by decide)

theorem toNat_ofNat_of_isValidChar {n : Nat} (h : n.isValidChar) : (Char.ofNat n).toNat = n := by
  rw [Char.ofNat, dif_pos h]
  rfl

theorem Segment.plain_byte {b : UInt8} (h : b < 0x80) :
    Segment.Plain ⟨[b], Char.ofNat b.toNat⟩ := by
  have hlt : b.toNat < 0x80 := UInt8.lt_iff_toNat_lt.mp h
  have hvalid : b.toNat.isValidChar := .inl (by omega)
  intro _
  rw [toNat_ofNat_of_isValidChar hvalid, UInt8.ofNat_toNat]

theorem forall_mem_cons_plain {s : Segment} {done : List Segment} (hs : s.Plain)
    (h : ∀ t ∈ done, t.Plain) : ∀ t ∈ s :: done, t.Plain :=
  List.forall_mem_cons.mpr ⟨hs, h⟩

/-- What a reader keeps to: the segments behind it are plain, and the one under way promises to
become one that is. -/
structure Reader.Plain (r : Reader) : Prop where
  done : ∀ s ∈ r.done, s.Plain
  opening : ∀ o, r.opening = some o → o.Promises

theorem Reader.Plain.settle {r : Reader} (h : r.Plain) : ∀ s ∈ r.settle, s.Plain := by
  simp only [Reader.settle]
  split
  · exact h.done
  · exact forall_mem_cons_plain (Segment.plain_replacement _) h.done

theorem Reader.plain_begin {done : List Segment} (h : ∀ s ∈ done, s.Plain) (b : UInt8) :
    (Reader.begin done b).Plain := by
  simp only [Reader.begin]
  split
  · next hb => exact ⟨forall_mem_cons_plain (Segment.plain_byte hb) h, by simp⟩
  · split
    · next o ho =>
      refine ⟨h, fun p hp => ?_⟩
      obtain rfl : o = p := Option.some.inj hp
      exact Opening.promises_ofByte? ho
    · exact ⟨forall_mem_cons_plain (Segment.plain_replacement _) h, by simp⟩

/-- A byte more of what was promised. -/
theorem Opening.Promises.extend {o : Opening} {b : UInt8} {n : Nat} (h : o.Promises)
    (hb : o.next.holds b = true) (hlater : o.later = n + 1) :
    Opening.Promises
      ⟨o.bytes ++ [b], o.value * 64 + (b.toNat - 0x80), continuation, n⟩ := by
  have hv := h b hb
  rw [hlater] at hv
  intro c hc
  rw [continuation_holds_iff] at hc
  match n with
  | 0 =>
    simp only [Nat.isValidChar] at hv ⊢
    omega
  | 1 =>
    simp only at hv ⊢
    omega
  | n + 2 => exact hv.elim

theorem Reader.plain_extend {done : List Segment} {o : Opening} {b : UInt8}
    (h : ∀ s ∈ done, s.Plain) (ho : o.Promises) (hb : o.next.holds b = true) :
    (Reader.extend done o b).Plain := by
  simp only [Reader.extend]
  split
  · next hlater =>
    have hv := ho b hb
    rw [hlater] at hv
    refine ⟨forall_mem_cons_plain (Segment.plain_of_le ?_) h, by simp⟩
    rw [toNat_ofNat_of_isValidChar hv.2]
    exact hv.1
  · next n hlater =>
    refine ⟨h, fun p hp => ?_⟩
    obtain rfl := Option.some.inj hp
    exact ho.extend hb hlater

theorem Reader.Plain.feed {r : Reader} (h : r.Plain) (b : UInt8) : (r.feed b).Plain := by
  simp only [Reader.feed]
  split
  · exact Reader.plain_begin h.done b
  · next o ho =>
    split
    · next hb => exact Reader.plain_extend h.done (h.opening o ho) hb
    · exact Reader.plain_begin h.settle b

theorem Reader.Plain.foldl_feed {r : Reader} (h : r.Plain) (bytes : List UInt8) :
    (bytes.foldl Reader.feed r).Plain := by
  induction bytes generalizing r with
  | nil => exact h
  | cons b bytes ih => exact ih (h.feed b)

/-- **ASCII characters are read from ASCII bytes only.** -/
theorem bytes_eq_of_char_lt {bytes : List UInt8} {s : Segment} (hs : s ∈ segments bytes)
    (h : s.char.toNat < 0x80) : s.bytes = [UInt8.ofNat s.char.toNat] := by
  have hfresh : Reader.fresh.Plain := ⟨by simp [Reader.fresh], by simp [Reader.fresh]⟩
  exact (hfresh.foldl_feed bytes).settle s (List.mem_reverse.mp hs) h

/-- An ASCII character of a text is a byte of it. -/
theorem mem_of_mem_chars {bytes : List UInt8} {c : Char} (hc : c ∈ chars bytes)
    (h : c.toNat < 0x80) : UInt8.ofNat c.toNat ∈ bytes := by
  obtain ⟨s, hs, rfl⟩ := List.mem_map.mp hc
  have hmem : UInt8.ofNat s.char.toNat ∈ joined (segments bytes) :=
    List.mem_flatMap.mpr ⟨s, hs, by simp [bytes_eq_of_char_lt hs h]⟩
  rwa [joined_segments] at hmem

/-- An ASCII byte is a character, whatever follows it. -/
theorem chars_cons_of_lt {b : UInt8} (h : b < 0x80) (bytes : List UInt8) :
    chars (b :: bytes) = Char.ofNat b.toNat :: chars bytes := by
  have hread : reads [b] = ⟨[⟨[b], Char.ofNat b.toNat⟩], none⟩ := by
    rw [reads_singleton, Reader.begin, if_pos h]
  have hfirst : segments ([b] ++ bytes) = ⟨[b], Char.ofNat b.toNat⟩ :: segments bytes :=
    segments_append_of_complete (s := ⟨[b], Char.ofNat b.toNat⟩) (.inl hread)
  rw [chars, ← List.singleton_append, hfirst]
  rfl

theorem startsCharacter_of_lt : ∀ b : UInt8, b < 0x80 → startsCharacter b = true :=
  forall_byte (by decide +kernel)

/-- **An ASCII byte cuts a text on both sides of it.** -/
theorem chars_append_cons_of_lt {b : UInt8} (h : b < 0x80) (xs ys : List UInt8) :
    chars (xs ++ b :: ys) = chars xs ++ Char.ofNat b.toNat :: chars ys := by
  have hcut : chars (xs ++ b :: ys) = chars xs ++ chars (b :: ys) :=
    chars_append fun c hc => Option.some.inj hc ▸ startsCharacter_of_lt b h
  rw [hcut, chars_cons_of_lt h]

end LexicalAnalysis.Utf8
