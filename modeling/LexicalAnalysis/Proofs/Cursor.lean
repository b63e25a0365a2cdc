/-
# A cursor cannot fail

A cursor and a stream that have read the same part of a source yield the same tokens, and all that
the cursor does for them is in range, in every source whose places fit their words.

* `getElem?_append_length`: the byte at an offset is the first one of what is left;
* `Cursor.skipBlanks_yields`, `Cursor.runEnd_yields`, `Cursor.scan_yields`: what each part of the
  cursor yields, read off what is left;
* `Cursor.pull_yields`, `Cursor.call_yields`, `Cursor.run_yields`: one token, one call and a run;
* `TokenStream.pending_run_le`: how near a run brings the end;
* `scanning_in_range`: so scanning cannot fail, and it ends.
-/
import LexicalAnalysis.Cursor
import LexicalAnalysis.Proofs.Index

namespace LexicalAnalysis

/-! ## 1. Places in a source that fits -/

theorem getElem?_append_length (read rest : List UInt8) :
    (read ++ rest)[read.length]? = rest.head? := by
  rw [List.getElem?_append_right (Nat.le_refl _), Nat.sub_self, List.head?_eq_getElem?]

namespace Position

/-- Neither the line nor the column is further than one more than the bytes in front. -/
theorem after_line_le {read : List UInt8} (h : Fits read) :
    (after read).line.toNat ≤ read.length + 1 := by
  have hcount : read.count newline ≤ read.length := List.count_le_length
  rw [after_line_toNat h]
  omega

theorem after_column_le {read : List UInt8} (h : Fits read) :
    (after read).column.toNat ≤ read.length + 1 := by
  have hlast := length_lastLine_le read
  rw [after_column_toNat h]
  omega

end Position

namespace Cursor

open Traced (yields_pure)

/-! ## 2. Single steps -/

/-- An offset is counted on in range as long as it is not further than one behind the source. -/
theorem addOffset_length {read rest : List UInt8} {n : Nat} (h : Fits (read ++ rest))
    (hn : n ≤ rest.length + 1) :
    (Traced.addOffset read.length n).Yields (read.length + n) := by
  have hsize : (read ++ rest).length + 2 ≤ UInt32.size := h
  rw [List.length_append, UInt32.size] at hsize
  refine Traced.addOffset_yields ?_
  rw [UInt64.size]
  omega

/-- So is a line or a column that is not further than one more than the bytes in front. -/
theorem addWord_le {read rest : List UInt8} {w : UInt32} {n : Nat} (h : Fits (read ++ rest))
    (hw : w.toNat ≤ read.length + 1) (hn : n ≤ rest.length) :
    (Traced.addWord w (.ofNat n)).Yields (w + .ofNat n) := by
  have hsize : (read ++ rest).length + 2 ≤ UInt32.size := h
  rw [List.length_append] at hsize
  refine Traced.addWord_yields ?_
  rw [UInt32.toNat_ofNat_of_lt' (by omega)]
  omega

/-- **What is there to be stepped over is stepped over**, and the bound is not needed. -/
theorem advance_yields {read rest : List UInt8} {n : Nat} (h : Fits (read ++ rest))
    (hn : n ≤ rest.length) : (advance (read ++ rest) read.length n).Yields (read.length + n) := by
  have hle : read.length + n ≤ (read ++ rest).length := by
    rw [List.length_append]
    exact Nat.add_le_add_left hn _
  exact (addOffset_length h (by omega)).bind (Traced.least_yields hle)

/-- **What is left starts with what is taken out of the source there.** -/
theorem part_of_isPrefix {read rest bytes : List UInt8} (h : bytes <+: rest) :
    (Traced.part (read ++ rest) read.length (read.length + bytes.length)).Yields bytes := by
  obtain ⟨more, rfl⟩ := h
  have hbytes : (read ++ (bytes ++ more)).extract read.length (read.length + bytes.length) =
      bytes := by
    rw [List.extract_eq_take_drop, List.drop_left, Nat.add_sub_cancel_left, List.take_left]
  have hle : read.length + bytes.length ≤ (read ++ (bytes ++ more)).length := by
    simp only [List.length_append]
    omega
  have hpart := Traced.part_yields (Nat.le_add_right read.length bytes.length) hle
  rwa [hbytes] at hpart

/-! ## 3. The loops -/

/-- A blank is stepped over in range. -/
theorem overBlank_yields {read rest : List UInt8} {b : UInt8} (h : Fits (read ++ b :: rest)) :
    (overBlank (.after read) b).Yields (.after (read ++ [b])) := by
  have hread : Fits read := h.of_length_le (List.prefix_append _ _).length_le
  have hoffset := addOffset_length (n := 1) h (by simp)
  have hline := addWord_le (n := 1) h (Position.after_line_le hread) (by simp)
  have hcolumn := addWord_le (n := 1) h (Position.after_column_le hread) (by simp)
  rw [← Position.overBlank_after]
  unfold overBlank Position.overBlank
  refine hoffset.bind ?_
  split
  · exact hline.bind (yields_pure _)
  · exact hcolumn.bind (yields_pure _)

/-- **Over a gap** the cursor moves as a stream does. -/
theorem skipBlanks_yields {read rest : List UInt8} (h : Fits (read ++ rest)) :
    (skipBlanks (read ++ rest) (.after read)).Yields (.after (read ++ rest.takeWhile isBlank)) := by
  induction rest generalizing read with
  | nil =>
    have hnone : (read ++ [])[(Position.after read).offset]? = none :=
      getElem?_append_length read []
    rw [skipBlanks_of_none _ hnone, List.takeWhile_nil, List.append_nil]
    exact yields_pure _
  | cons b rest ih =>
    have hsome : (read ++ b :: rest)[(Position.after read).offset]? = some b :=
      getElem?_append_length read (b :: rest)
    rw [skipBlanks_of_some _ hsome]
    cases hb : isBlank b with
    | false =>
      rw [List.takeWhile_cons_of_neg (by simp [hb]), List.append_nil]
      exact yields_pure _
    | true =>
      have hstep := overBlank_yields h
      have hcons : ∀ bytes, read ++ b :: bytes = read ++ [b] ++ bytes := by simp
      rw [hcons rest] at h ⊢
      rw [List.takeWhile_cons_of_pos hb, hcons (rest.takeWhile isBlank), Position.overBlank_after]
      exact hstep.bind (ih h)

/-- **A run of bytes of one class** is as long as it is in what is left. -/
theorem runEnd_yields (p : UInt8 → Bool) {read rest : List UInt8} (h : Fits (read ++ rest)) :
    (runEnd (read ++ rest) p read.length).Yields (read.length + (rest.takeWhile p).length) := by
  induction rest generalizing read with
  | nil =>
    have hnone : (read ++ [])[read.length]? = none := getElem?_append_length read []
    rw [runEnd_of_none _ hnone]
    exact yields_pure _
  | cons b rest ih =>
    have hsome : (read ++ b :: rest)[read.length]? = some b :=
      getElem?_append_length read (b :: rest)
    rw [runEnd_of_some _ hsome]
    cases hb : p b with
    | false =>
      rw [List.takeWhile_cons_of_neg (by simp [hb])]
      exact yields_pure _
    | true =>
      have hstep := addOffset_length (n := 1) h (by simp)
      have hcons : read ++ b :: rest = read ++ [b] ++ rest := by simp
      have hlen : read.length + 1 = (read ++ [b]).length := by simp
      have hend : read.length + (b :: rest.takeWhile p).length =
          (read ++ [b]).length + (rest.takeWhile p).length := by
        rw [← hlen, List.length_cons]
        omega
      rw [hcons] at h ⊢
      rw [List.takeWhile_cons_of_pos hb, hend]
      refine hstep.bind ?_
      rw [hlen]
      exact ih h

/-! ## 4. Lexemes -/

theorem ofSymbol_pair {b : UInt8} (hb : Lexeme.isExtensible [b] = true) (more : List UInt8) :
    Lexeme.ofSymbol b (equals :: more) = ⟨symbol [b, equals], [b, equals]⟩ := by
  cases hs : Kind.symbol? [b, equals] with
  | none => exact absurd hs (Lexeme.symbol?_of_isExtensible b hb)
  | some k => simp [Lexeme.ofSymbol, symbol, hs]

theorem ofSymbol_single {b : UInt8} {rest : List UInt8}
    (h : ∀ c, rest.head? = some c → (Lexeme.isExtensible [b] && c == equals) = false) :
    Lexeme.ofSymbol b rest = ⟨symbol [b], [b]⟩ := by
  have hone : Lexeme.ofSymbol b [] = ⟨symbol [b], [b]⟩ := by
    cases hs : Kind.symbol? [b] <;> simp [Lexeme.ofSymbol, symbol, hs]
  rcases Lexeme.symbol?_take_one h with hpair | rfl
  · rw [← hone]
    cases hs : Kind.symbol? [b] <;> simp [Lexeme.ofSymbol, hpair, hs]
  · exact hone

variable {read rest : List UInt8} {b : UInt8}

theorem scan_of_isLetter (h : Fits (read ++ b :: rest)) (hb : isLetter b = true) :
    (scan (read ++ b :: rest) read.length b).Yields
      ((Lexeme.first b rest).kind, read.length + (Lexeme.first b rest).bytes.length) := by
  have hword : isWordByte b = true := by simp [isWordByte, hb]
  have hstop := runEnd_yields isWordByte h
  have hprefix : b :: rest.takeWhile isWordByte <+: b :: rest :=
    List.cons_prefix_cons.mpr ⟨rfl, List.takeWhile_prefix _⟩
  rw [List.takeWhile_cons_of_pos hword] at hstop
  rw [scan, if_pos hb, Lexeme.first_of_isLetter rest hb, Lexeme.ofWord_bytes]
  exact hstop.bind ((part_of_isPrefix hprefix).bind (yields_pure _))

theorem scan_of_isDigit (h : Fits (read ++ b :: rest)) (hb : isDigit b = true) :
    (scan (read ++ b :: rest) read.length b).Yields
      ((Lexeme.first b rest).kind, read.length + (Lexeme.first b rest).bytes.length) := by
  have hletter : ¬ isLetter b = true := fun hl =>
    absurd hb (by simp [isDigit_eq_false_of_isLetter b hl])
  have hstop := runEnd_yields isDigit h
  rw [List.takeWhile_cons_of_pos hb] at hstop
  rw [scan, if_neg hletter, if_pos hb, Lexeme.first_of_isDigit rest hb]
  exact hstop.bind (yields_pure _)

/-- One byte is stepped over, or two if the next one was looked at and completes the symbol: then
it is there to be stepped over too. -/
theorem scan_of_symbol (h : Fits (read ++ b :: rest)) (hb : isWordByte b = false) :
    (scan (read ++ b :: rest) read.length b).Yields
      ((Lexeme.first b rest).kind, read.length + (Lexeme.first b rest).bytes.length) := by
  obtain ⟨hletter, hdigit⟩ : isLetter b = false ∧ isDigit b = false := by
    simpa [isWordByte] using hb
  have hone := advance_yields (n := 1) h (by simp)
  rw [scan, if_neg (by simp [hletter]), if_neg (by simp [hdigit]),
    Lexeme.first_of_isWordByte_eq_false rest hb]
  cases hext : Lexeme.isExtensible [b] with
  | false =>
    rw [if_neg (by decide), ofSymbol_single (by simp [hext])]
    exact hone.bind (yields_pure _)
  | true =>
    have hpeek : (read ++ b :: rest)[read.length + 1]? = rest.head? := by
      rw [List.getElem?_append_right (by omega), Nat.add_sub_cancel_left, List.head?_eq_getElem?]
      rfl
    rw [if_pos rfl]
    refine (addOffset_length (n := 1) h (by simp)).bind ?_
    rw [hpeek]
    by_cases hrest : rest.head? = some equals
    · obtain ⟨more, rfl⟩ := List.head?_eq_some_iff.mp hrest
      rw [if_pos (by simp), ofSymbol_pair hext]
      exact (advance_yields (n := 2) h (by simp)).bind (yields_pure _)
    · have hsingle : ∀ c, rest.head? = some c →
          (Lexeme.isExtensible [b] && c == equals) = false := by
        intro c hc
        have hne : c ≠ equals := fun he => hrest (he ▸ hc)
        simp [hne]
      rw [if_neg (by simpa using hrest), ofSymbol_single hsingle]
      exact hone.bind (yields_pure _)

/-- **The lexeme that a byte starts**, by what it is read as and where it stops. -/
theorem scan_yields (h : Fits (read ++ b :: rest)) :
    (scan (read ++ b :: rest) read.length b).Yields
      ((Lexeme.first b rest).kind, read.length + (Lexeme.first b rest).bytes.length) := by
  rcases Lexeme.letter_or_digit_or_other b with hb | hb | hb
  · exact scan_of_isLetter h hb
  · exact scan_of_isDigit h hb
  · exact scan_of_symbol h hb

end Cursor

/-! ## 5. Tokens -/

/-- The cursor that stands where a stream does. -/
def TokenStream.cursor (s : TokenStream) : Cursor := ⟨s.position, s.finished⟩

namespace Cursor

open Traced (yields_pure)
open TokenStream (HasRead)

/-- Where nothing is left, nothing is taken out of the source. -/
theorem pullFrom_nil (read : List UInt8) (finished : Bool) :
    (pullFrom read (.after read) finished).Yields
      (⟨⟨.endOfFile, []⟩, .after read⟩, ⟨.after read, true⟩) := by
  have hnone : read[(Position.after read).offset]? = none :=
    List.getElem?_eq_none (Nat.le_refl _)
  have hpart : (Traced.part (read ++ []) read.length read.length).Yields [] :=
    part_of_isPrefix (List.prefix_refl [])
  rw [List.append_nil] at hpart
  unfold pullFrom
  rw [hnone]
  exact hpart.bind (yields_pure _)

/-- **A lexeme is taken out of the source where it starts and stops**, and what it adds to the
column fits: a line is not longer than its source. -/
theorem pullFrom_cons {read rest : List UInt8} {b : UInt8} (h : Fits (read ++ b :: rest))
    (finished : Bool) :
    (pullFrom (read ++ b :: rest) (.after read) finished).Yields
      (⟨Lexeme.first b rest, .after read⟩,
        ⟨(Position.after read).overLexeme (Lexeme.first b rest).bytes.length, finished⟩) := by
  have hsome : (read ++ b :: rest)[(Position.after read).offset]? = some b :=
    getElem?_append_length read (b :: rest)
  have hread : Fits read := h.of_length_le (List.prefix_append _ _).length_le
  have hle := (Lexeme.first_isPrefix b rest).length_le
  have hsize : (read ++ b :: rest).length + 2 ≤ UInt32.size := h
  rw [List.length_append] at hsize
  have hbytes : (Traced.part (read ++ b :: rest) read.length
      (read.length + (Lexeme.first b rest).bytes.length)).Yields (Lexeme.first b rest).bytes :=
    part_of_isPrefix (Lexeme.first_isPrefix b rest)
  have hwidth := Traced.toWord_yields (n := (Lexeme.first b rest).bytes.length) (by omega)
  have hcolumn := addWord_le h (Position.after_column_le hread) hle
  unfold pullFrom
  rw [hsome]
  exact (scan_yields h).bind (hbytes.bind (hwidth.bind (hcolumn.bind (yields_pure _))))

variable {src read : List UInt8} {s : TokenStream}

/-- **A pull in range**: the cursor yields the token that the stream yields, and goes where it
goes. -/
theorem pull_yields (h : HasRead src read s) (hsrc : Fits src) :
    (pull src s.cursor).Yields (s.pull.1, s.pull.2.cursor) := by
  obtain ⟨rest, position, finished⟩ := s
  obtain rfl : read ++ rest = src := h.append_rest
  obtain rfl : position = .after read := h.position_eq
  have hcut : read ++ rest = read ++ rest.takeWhile isBlank ++ rest.dropWhile isBlank := by
    rw [List.append_assoc, List.takeWhile_append_dropWhile]
  rw [pull, TokenStream.cursor, TokenStream.pull, Position.overBlanks_after]
  refine (skipBlanks_yields hsrc).bind ?_
  rw [hcut] at hsrc ⊢
  cases hdrop : rest.dropWhile isBlank with
  | nil =>
    rw [List.append_nil]
    exact pullFrom_nil _ finished
  | cons b bs =>
    rw [hdrop] at hsrc
    exact pullFrom_cons hsrc finished

/-- **One call** yields from the cursor what it yields from the stream. -/
theorem call_yields (h : HasRead src read s) (hsrc : Fits src) (c : Call) :
    (call src s.cursor c).Yields ((s.call c).1, (s.call c).2.cursor) := by
  have hpull : (call src s.cursor .pull).Yields (some s.pull.1, s.pull.2.cursor) := by
    rw [call]
    exact (pull_yields h hsrc).bind (yields_pure _)
  have hfinished : s.cursor.finished = s.finished := rfl
  rcases s.call_cases c with ⟨rfl, hend, hcall⟩ | ⟨hopen, hcall⟩
  · rw [hcall, call, hfinished, if_pos hend]
    exact yields_pure _
  · rw [hcall]
    cases c with
    | pull => exact hpull
    | next =>
      rw [call, hfinished, hopen rfl]
      exact hpull

end Cursor

/-! ## 6. Runs -/

namespace TokenStream

variable {src read : List UInt8} {s : TokenStream}

/-- A call reads on. -/
theorem HasRead.call (h : HasRead src read s) (c : Call) :
    ∃ more, HasRead src (read ++ more) (s.call c).2 := by
  rcases s.call_cases c with ⟨-, -, hcall⟩ | ⟨-, hcall⟩ <;> rw [hcall]
  · exact ⟨[], by rwa [List.append_nil]⟩
  · exact h.pull

theorem HasRead.run (h : HasRead src read s) (calls : List Call) :
    ∃ more, HasRead src (read ++ more) (s.run calls).2 := by
  induction calls generalizing read s with
  | nil => exact ⟨[], by rwa [List.append_nil]⟩
  | cons c calls ih =>
    obtain ⟨more, hcall⟩ := h.call c
    obtain ⟨later, hrun⟩ := ih hcall
    exact ⟨more ++ later, by rwa [← List.append_assoc]⟩

theorem pending_pull_le (s : TokenStream) : s.pull.2.pending ≤ s.pending - 1 := by
  unfold pending
  rcases s.pull_finished_or_rest_lt with hend | ⟨hsame, hlt⟩
  · rw [if_pos hend]
    exact Nat.zero_le _
  · rw [hsame]
    split <;> omega

/-- **A call brings the end one token nearer**, unless it was reached. -/
theorem pending_call_le (s : TokenStream) (c : Call) : (s.call c).2.pending ≤ s.pending - 1 := by
  rcases s.call_cases c with ⟨-, hend, hcall⟩ | ⟨-, hcall⟩ <;> rw [hcall]
  · rw [pending, if_pos hend]
  · exact s.pending_pull_le

theorem pending_run_le (s : TokenStream) (calls : List Call) :
    (s.run calls).2.pending ≤ s.pending - calls.length := by
  induction calls generalizing s with
  | nil => exact Nat.le_refl _
  | cons c calls ih =>
    have hcall := s.pending_call_le c
    calc (s.run (c :: calls)).2.pending
        = ((s.call c).2.run calls).2.pending := rfl
      _ ≤ (s.call c).2.pending - calls.length := ih _
      _ ≤ s.pending - (c :: calls).length := by
        rw [List.length_cons]
        omega

theorem finished_of_pending_eq_zero (h : s.pending = 0) : s.finished = true := by
  unfold pending at h
  split at h
  · next hend => exact hend
  · cases h

/-- **As many tokens as are pending are all that are left.** -/
theorem take_eq_drain {n : Nat} (h : s.pending ≤ n) : s.take n = s.drain := by
  induction n generalizing s with
  | zero =>
    rw [drain_of_finished (finished_of_pending_eq_zero (Nat.le_zero.mp h))]
    rfl
  | succ n ih =>
    cases hnext : s.next? with
    | none =>
      rw [take_succ_of_none hnext, drain_of_finished (next?_eq_none_iff.mp hnext)]
    | some r =>
      have hlt := pending_lt_of_next? hnext
      rw [take_succ_of_some hnext, drain_of_next?_eq_some hnext, ih (by omega)]

/-- What is pending of a source is no more than its bytes and the end token. -/
theorem HasRead.pending_le (h : HasRead src read s) : s.pending ≤ src.length + 1 := by
  have hlen := congrArg List.length h.append_rest
  rw [List.length_append] at hlen
  unfold pending
  split <;> omega

theorem HasRead.offset_le (h : HasRead src read s) : s.position.offset ≤ src.length := by
  rw [h.position_eq, Position.after_offset, ← h.append_rest, List.length_append]
  exact Nat.le_add_right _ _

/-- **A pull goes forward** by every token but the end token. -/
theorem offset_lt_of_pull (he : s.pull.1.isEndOfFile = false) :
    s.position.offset < s.pull.2.position.offset := by
  unfold pull at he ⊢
  cases hdrop : s.rest.dropWhile isBlank with
  | nil => simp [hdrop, Token.isEndOfFile] at he
  | cons b bs =>
    have hpos := Lexeme.first_length_pos b bs
    simp only [Position.overLexeme_offset, Position.overBlanks_offset]
    omega

/-- So does any call that yields one. -/
theorem offset_lt_of_call {c : Call} {t : Token} (ht : (s.call c).1 = some t)
    (he : t.isEndOfFile = false) : s.position.offset < (s.call c).2.position.offset := by
  rcases s.call_cases c with ⟨-, -, hcall⟩ | ⟨-, hcall⟩ <;> rw [hcall] at ht ⊢
  · cases ht
  · obtain rfl : s.pull.1 = t := Option.some.inj ht
    exact offset_lt_of_pull he

end TokenStream

/-- **A run of calls** yields from the cursor what it yields from the stream. -/
theorem Cursor.run_yields {src read : List UInt8} {s : TokenStream}
    (h : TokenStream.HasRead src read s) (hsrc : Fits src) (calls : List Call) :
    (run src s.cursor calls).Yields ((s.run calls).1, (s.run calls).2.cursor) := by
  induction calls generalizing read s with
  | nil => exact Traced.yields_pure _
  | cons c calls ih =>
    obtain ⟨more, hcall⟩ := h.call c
    rw [run]
    exact (call_yields h hsrc c).bind ((ih hcall).bind (Traced.yields_pure _))

/-! ## 7. Any source that fits -/

/-- **Scanning never fails.**  In a source that fits, whatever calls are made from its start and in
whatever order, all that the cursor reaches for is in range: every lexeme is taken from where it
starts up to where it stops inside the source, no step is held back by the end of the source, no
length is cut down to its word, and neither an offset nor a line nor a column is counted past its
type.  The tokens are those of the stream.  After the calls the stream stands in the source; a call
that yields another token than the end token takes it forward; and as many more calls as the source
has bytes, and one for the end token, are enough to drain it. -/
theorem scanning_in_range (src : List UInt8) (hsrc : Fits src) (calls : List Call) :
    let cursor := Cursor.run src .start calls
    let stream := (TokenStream.ofBytes src).run calls
    (∀ a ∈ cursor.accesses, a.InRange) ∧ cursor.value = (stream.1, stream.2.cursor) ∧
      stream.2.position.offset ≤ src.length ∧
      (∀ c t, (stream.2.call c).1 = some t → t.isEndOfFile = false →
        stream.2.position.offset < (stream.2.call c).2.position.offset) ∧
      (∀ more, src.length + 1 ≤ more.length → (stream.2.run more).2.finished = true) ∧
      stream.2.take (src.length + 1) = stream.2.drain := by
  have hstart := TokenStream.hasRead_ofBytes src
  obtain ⟨hvalue, hsafe⟩ := Cursor.run_yields hstart hsrc calls
  obtain ⟨read, hread⟩ := hstart.run calls
  have hpending := hread.pending_le
  refine ⟨hsafe, hvalue, hread.offset_le, fun c t => TokenStream.offset_lt_of_call, ?_, ?_⟩
  · intro more hmore
    have hrun := TokenStream.pending_run_le ((TokenStream.ofBytes src).run calls).2 more
    exact TokenStream.finished_of_pending_eq_zero (by omega)
  · exact TokenStream.take_eq_drain hpending

/-- Half an operator at the end of a source: the byte behind it is looked for, and is not there. -/
theorem scanning_in_range_end :
    let src := ascii ['a', '\n', '<']
    let cursor := Cursor.run src .start [.next, .pull, .next, .next]
    Fits src ∧ (∀ a ∈ cursor.accesses, a.InRange) ∧ .clamp 3 3 ∈ cursor.accesses ∧
      cursor.value = ([some ⟨⟨.identifier, ascii ['a']⟩, ⟨0, 1, 1⟩⟩,
        some ⟨⟨.operator .lt, ascii ['<']⟩, ⟨2, 2, 1⟩⟩,
        some ⟨⟨.endOfFile, []⟩, ⟨3, 2, 2⟩⟩, none], ⟨⟨3, 2, 2⟩, true⟩) := by
  obtain ⟨hsafe, hvalue, -⟩ := scanning_in_range (ascii ['a', '\n', '<']) (by decide)
    [.next, .pull, .next, .next]
  exact ⟨by decide, hsafe, by decide +kernel, hvalue.trans (by decide)⟩

end LexicalAnalysis
