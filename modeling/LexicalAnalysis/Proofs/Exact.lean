/-
# Positions are exact

A stream never counts a text again.  It moves its position forward over what it reads, byte by byte
over a gap and in one step over a lexeme, and it would go wrong for good at the first lexeme that
held a newline.  None does, so the position is at all times what counting the text in front of it
gives.

* `Position.Exact`: what the three parts of a position say about a source;
* `TokenStream.HasRead.exact`: they are right wherever a stream stands that has read a part of it;
* `session_positions_exact`: so they are right in every stream of every session, and in every token
  that any stream yields.

The invariant is `TokenStream.HasRead`, which a pull preserves (`HasRead.pull`).
-/
import LexicalAnalysis.Proofs.Session

namespace LexicalAnalysis

namespace Position

/-! ## 1. What a position says -/

/-- **A position that is right about a source**: it is in the source, its line is one more than the
newlines before it, and its column is one more than the bytes between the last of these and it. -/
structure Exact (src : List UInt8) (p : Position) : Prop where
  offset_le : p.offset ≤ src.length
  line_eq : p.line.toNat = 1 + (src.take p.offset).count newline
  column_eq : p.column.toNat = 1 + (lastLine (src.take p.offset)).length

theorem after_exact {read rest : List UInt8} (h : Fits (read ++ rest)) :
    (after read).Exact (read ++ rest) := by
  have hread : Fits read := h.of_length_le (List.prefix_append read rest).length_le
  refine ⟨(List.prefix_append read rest).length_le, ?_, ?_⟩
  · rw [after_offset, List.take_left, after_line_toNat hread]
  · rw [after_offset, List.take_left, after_column_toNat hread]

end Position

/-! ## 2. Streams and tokens -/

/-- **Wherever a stream stands, its position is right**, and what it has left is what the source
has behind that position. -/
theorem TokenStream.HasRead.exact {src read : List UInt8} {s : TokenStream}
    (h : HasRead src read s) (hsrc : Fits src) :
    s.rest = src.drop s.position.offset ∧ s.position.Exact src := by
  obtain rfl : read ++ s.rest = src := h.append_rest
  rw [h.position_eq, Position.after_offset, List.drop_left]
  exact ⟨rfl, Position.after_exact hsrc⟩

/-- **Every token has a right position, and its lexeme stands there.** -/
theorem exact_of_mem_tokenize {src : List UInt8} (hsrc : Fits src) {t : Token}
    (ht : t ∈ tokenize src) :
    t.position.Exact src ∧ t.bytes <+: src.drop t.position.offset := by
  obtain ⟨read, hp, -, rest, rfl⟩ := exists_read_of_mem_tokenize ht
  rw [List.append_assoc] at hsrc ⊢
  rw [hp, Position.after_offset, List.drop_left]
  exact ⟨Position.after_exact hsrc, List.prefix_append _ _⟩

/-! ## 3. Sessions -/

/-- The tokens that an answer hands over. -/
def Answer.yielded : Answer → List Token
  | .token t => [t]
  | .token? t? => t?.toList
  | .tokens ts => ts
  | _ => []

theorem tokenAt_mem (src : List UInt8) (i : Nat) : tokenAt src i ∈ tokenize src := List.get_mem _ _

/-- One step hands over tokens of the source only. -/
theorem IndexSession.mem_tokens_of_step (m : IndexSession) (a : Step) {t : Token}
    (ht : t ∈ (m.step a).1.yielded) : t ∈ m.source.tokens := by
  cases a with
  | pull =>
    obtain rfl := List.mem_singleton.mp ht
    exact tokenAt_mem _ _
  | next =>
    simp only [step] at ht
    split at ht
    · simp [Answer.yielded] at ht
    · obtain rfl := List.mem_singleton.mp ht
      exact tokenAt_mem _ _
  | take n => exact List.mem_of_mem_drop (List.mem_of_mem_take ht)
  | nth n => exact List.mem_of_getElem? (Option.mem_toList.mp ht)
  | drain => exact List.mem_of_mem_drop ht
  | count | position | atEnd | file | copy | use i => simp [step, Answer.yielded] at ht

/-- Steps in a row do so too. -/
theorem IndexSession.mem_tokens_of_run {m : IndexSession} {steps : List Step}
    {sight : Session.Sight} (hs : sight ∈ m.run steps) {t : Token}
    (ht : t ∈ sight.answer.yielded) : t ∈ m.source.tokens := by
  induction steps generalizing m with
  | nil => cases hs
  | cons a steps ih =>
    rcases List.mem_cons.mp hs with rfl | hs
    · exact m.mem_tokens_of_step a ht
    · rw [← m.step_source a]
      exact ih hs

/-- Every stream of a session has read a part of its source. -/
theorem Follows.exists_hasRead {m : IndexSession} {s : Session} (h : Follows m s) {r : TokenStream}
    (hr : r ∈ s.streams) : ∃ read, TokenStream.HasRead s.source.bytes read r := by
  obtain ⟨j, hj, hget⟩ := List.mem_iff_getElem.mp hr
  have hindex : m.indices[j]? = some (m.indices.get ⟨j, h.length_eq ▸ hj⟩) := by
    simp [h.length_eq, hj]
  exact (h.indexes j _ r hindex (by rw [List.getElem?_eq_getElem hj, hget])).hasRead

/-- **Positions are exact in every state that can be reached.**  Whatever steps a session takes
from its start, pulls and requests for the next token in any order among them, every stream of it
stands inside the source, where its position says by offset, line and column; and every token that
was handed over on the way, the end token too, has the right position and its bytes there. -/
theorem session_positions_exact (src : Source) (hsrc : Fits src.bytes) (steps : List Step) :
    (∀ r ∈ ((Session.ofSource src).after steps).streams,
      r.rest = src.bytes.drop r.position.offset ∧ r.position.Exact src.bytes) ∧
      ∀ sight ∈ (Session.ofSource src).run steps, ∀ t ∈ sight.answer.yielded,
        t.position.Exact src.bytes ∧ t.bytes <+: src.bytes.drop t.position.offset := by
  have hstart := Follows.ofSource src
  constructor
  · intro r hr
    obtain ⟨read, hread⟩ := (hstart.after steps).exists_hasRead hr
    rw [Session.after_source] at hread
    exact hread.exact hsrc
  · intro sight hs t ht
    rw [hstart.run steps] at hs
    exact exact_of_mem_tokenize hsrc (IndexSession.mem_tokens_of_run hs ht)

/-- A tab is one column wide: behind it `b` stands in column 2 of the second line. -/
theorem session_positions_exact_tab :
    let src : Source := ⟨"shell", ascii ['a', '\n', '\t', 'b', ' ']⟩
    Fits src.bytes ∧ (⟨4, 2, 3⟩ : Position).Exact src.bytes ∧
      (⟨3, 2, 2⟩ : Position).Exact src.bytes ∧ ascii ['b'] <+: src.bytes.drop 3 := by
  obtain ⟨hstreams, htokens⟩ := session_positions_exact
    ⟨"shell", ascii ['a', '\n', '\t', 'b', ' ']⟩ (by decide) [.pull, .copy, .next]
  have hstream := hstreams ⟨ascii [' '], ⟨4, 2, 3⟩, false⟩ (by decide)
  have htoken := htokens
    ⟨.token? (some ⟨⟨.identifier, ascii ['b']⟩, ⟨3, 2, 2⟩⟩), ⟨4, 2, 3⟩, false⟩
    (.tail _ (.tail _ (.head _))) _ (.head _)
  exact ⟨by decide, hstream.2, htoken⟩

end LexicalAnalysis
