/-
# Pieces of a text

* `flatten_segments`: the segments of a text are its bytes, cut into pieces;
* `segments_append`: cutting a text before a byte that continues no character cuts its segments
  there.  So what stands before such a byte, whole or broken off, has no say in what follows.
-/
import LexicalAnalysis.Text.Utf8.Basic

namespace LexicalAnalysis.Utf8

/-! ## 1. Segments are pieces of the text -/

/-- The bytes that a reader has read. -/
def Reader.read (r : Reader) : List UInt8 := (r.settle.reverse.map (·.bytes)).flatten

theorem Opening.ofByte?_bytes {b : UInt8} {o : Opening} (h : Opening.ofByte? b = some o) :
    o.bytes = [b] := by
  simp only [Opening.ofByte?] at h
  repeat' split at h
  all_goals first | (cases h; rfl) | cases h

theorem Reader.read_begin (done : List Segment) (b : UInt8) :
    (Reader.begin done b).read = (done.reverse.map (·.bytes)).flatten ++ [b] := by
  simp only [Reader.begin]
  split
  · simp [Reader.read, Reader.settle]
  · split
    · next o ho => simp [Reader.read, Reader.settle, Opening.ofByte?_bytes ho]
    · simp [Reader.read, Reader.settle]

theorem Reader.read_extend (done : List Segment) (o : Opening) (b : UInt8) :
    (Reader.extend done o b).read =
      (done.reverse.map (·.bytes)).flatten ++ (o.bytes ++ [b]) := by
  simp only [Reader.extend]
  split <;> simp [Reader.read, Reader.settle]

theorem Reader.read_feed (r : Reader) (b : UInt8) : (r.feed b).read = r.read ++ [b] := by
  obtain ⟨done, opening⟩ := r
  cases opening with
  | none => simp only [Reader.feed, Reader.read_begin]; rfl
  | some o =>
    simp only [Reader.feed]
    split
    · rw [Reader.read_extend]
      simp [Reader.read, Reader.settle]
    · rw [Reader.read_begin]; rfl

theorem Reader.read_foldl_feed (bytes : List UInt8) (r : Reader) :
    (bytes.foldl Reader.feed r).read = r.read ++ bytes := by
  induction bytes generalizing r with
  | nil => simp
  | cons b bytes ih => simp [ih, Reader.read_feed]

/-- **The segments are the bytes, cut into pieces.** -/
theorem flatten_segments (bytes : List UInt8) :
    ((segments bytes).map (·.bytes)).flatten = bytes := by
  have h := Reader.read_foldl_feed bytes Reader.fresh
  simpa [Reader.read, Reader.fresh, Reader.settle, segments] using h

/-! ## 2. Cutting a text between characters -/

/-- What is behind the reader does not matter to it. -/
theorem Reader.begin_done (done : List Segment) (b : UInt8) :
    Reader.begin done b = ⟨(Reader.begin [] b).done ++ done, (Reader.begin [] b).opening⟩ := by
  simp only [Reader.begin]
  split
  · rfl
  · split <;> rfl

theorem Reader.feed_done (r : Reader) (b : UInt8) (more : List Segment) :
    Reader.feed ⟨r.done ++ more, r.opening⟩ b =
      ⟨(r.feed b).done ++ more, (r.feed b).opening⟩ := by
  obtain ⟨done, opening⟩ := r
  cases opening with
  | none => simp only [Reader.feed]; rw [Reader.begin_done (done ++ more), Reader.begin_done done]; simp
  | some o =>
    simp only [Reader.feed]
    split
    · simp only [Reader.extend]; split <;> rfl
    · simp only [Reader.settle]
      rw [Reader.begin_done (_ :: (done ++ more)), Reader.begin_done (_ :: done)]
      simp

theorem Reader.foldl_feed_done (bytes : List UInt8) (r : Reader) (more : List Segment) :
    bytes.foldl Reader.feed ⟨r.done ++ more, r.opening⟩ =
      ⟨(bytes.foldl Reader.feed r).done ++ more, (bytes.foldl Reader.feed r).opening⟩ := by
  induction bytes generalizing r with
  | nil => rfl
  | cons b bytes ih => simp only [List.foldl_cons, Reader.feed_done, ih]

theorem Reader.settle_append (r : Reader) (more : List Segment) :
    Reader.settle ⟨r.done ++ more, r.opening⟩ = r.settle ++ more := by
  simp only [Reader.settle]
  split <;> rfl

/-- A byte that continues no character. -/
def startsCharacter (b : UInt8) : Bool := !continuation.holds b

/-- Every range of a character under way is of continuation bytes. -/
def Reader.Sound (r : Reader) : Prop :=
  ∀ o, r.opening = some o → ∀ b, o.next.holds b = true → continuation.holds b = true

theorem Opening.ofByte?_sound {b : UInt8} {o : Opening} (h : Opening.ofByte? b = some o) :
    ∀ c, o.next.holds c = true → continuation.holds c = true := by
  simp only [Opening.ofByte?] at h
  repeat' split at h
  all_goals first | (cases h; dsimp only; exact forall_byte (by decide +kernel)) | cases h

theorem Reader.sound_begin (done : List Segment) (b : UInt8) : (Reader.begin done b).Sound := by
  simp only [Reader.begin]
  split
  · intro o ho; cases ho
  · split
    · next o ho => intro o' ho'; cases ho'; exact Opening.ofByte?_sound ho
    · intro o ho; cases ho

theorem Reader.sound_feed {r : Reader} (b : UInt8) : (r.feed b).Sound := by
  simp only [Reader.feed]
  split
  · exact Reader.sound_begin _ b
  · split
    · simp only [Reader.extend]
      split
      · intro o ho; cases ho
      · intro o ho c hc; cases ho; exact hc
    · exact Reader.sound_begin _ b

theorem Reader.sound_foldl_feed (bytes : List UInt8) {r : Reader} (h : r.Sound) :
    (bytes.foldl Reader.feed r).Sound := by
  induction bytes generalizing r with
  | nil => exact h
  | cons b bytes ih => exact ih (Reader.sound_feed b)

/-- **A cut where a character starts cuts the segments.** -/
theorem segments_append {xs ys : List UInt8} (h : ∀ b, ys.head? = some b → startsCharacter b = true) :
    segments (xs ++ ys) = segments xs ++ segments ys := by
  cases ys with
  | nil => simp [segments, Reader.fresh, Reader.settle]
  | cons b ys =>
    have hb : continuation.holds b = false := by simpa [startsCharacter] using h b rfl
    have hs : (xs.foldl Reader.feed Reader.fresh).Sound :=
      Reader.sound_foldl_feed xs (fun o ho => by cases ho)
    have hf : (xs.foldl Reader.feed Reader.fresh).feed b =
        Reader.begin (xs.foldl Reader.feed Reader.fresh).settle b := by
      generalize xs.foldl Reader.feed Reader.fresh = r at hs
      obtain ⟨done, opening⟩ := r
      cases opening with
      | none => rfl
      | some o =>
        have hn : o.next.holds b = false := by
          cases hc : o.next.holds b with
          | false => rfl
          | true => rw [hs o rfl b hc] at hb; cases hb
        simp [Reader.feed, hn]
    simp only [segments, List.foldl_append, List.foldl_cons, hf]
    rw [Reader.begin_done, Reader.foldl_feed_done, Reader.settle_append, List.reverse_append]
    rfl

/-- And so the characters. -/
theorem chars_append {xs ys : List UInt8} (h : ∀ b, ys.head? = some b → startsCharacter b = true) :
    chars (xs ++ ys) = chars xs ++ chars ys := by
  rw [chars, segments_append h, List.map_append]
  rfl

end LexicalAnalysis.Utf8
