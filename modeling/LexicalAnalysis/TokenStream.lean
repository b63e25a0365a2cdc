/-
# Streams of tokens

A stream stands somewhere in a source and yields the tokens that follow.  It is a value: a copy
of it is read without moving it.

There are two ways to read.  `pull` always yields a token, and at the end of the source the
end token again and again.  `next?` yields the end token once, and nothing after it, whichever
of the two yielded it.  `take`, `nth?`, `count` and `drain` repeat `next?`.

* `pending`, `pending_lt_of_next?`: what `next?` yields brings the end nearer, so a stream can
  be drained;
* `foldl_of_next?_eq_none`, `foldl_of_next?_eq_some`: a fold unfolds one token at a time.
-/
import LexicalAnalysis.Token

namespace LexicalAnalysis

/-- A stream of tokens. -/
structure TokenStream where
  /-- What is still to be read. -/
  rest : List UInt8
  /-- Where the rest starts. -/
  position : Position
  /-- Whether the end token was yielded. -/
  finished : Bool
  deriving DecidableEq

namespace TokenStream

/-- The stream of a whole source. -/
def ofBytes (bytes : List UInt8) : TokenStream := ⟨bytes, .start, false⟩

/-- Whether every byte was read.  Blanks that no token follows are read with the end token. -/
def atEnd (s : TokenStream) : Bool := s.rest.isEmpty

/-! ## 1. One token -/

/-- The next token, and the stream after it. -/
def pull (s : TokenStream) : Token × TokenStream :=
  let start := s.position.overBlanks (s.rest.takeWhile isBlank)
  match s.rest.dropWhile isBlank with
  | [] => (⟨⟨.endOfFile, []⟩, start⟩, ⟨[], start, true⟩)
  | b :: bs =>
    let lexeme := Lexeme.first b bs
    let width := lexeme.bytes.length
    (⟨lexeme, start⟩, ⟨(b :: bs).drop width, start.overLexeme width, s.finished⟩)

/-- The next token, if the end token was not yielded yet. -/
def next? (s : TokenStream) : Option (Token × TokenStream) :=
  if s.finished then none else some s.pull

/-- A bound on the tokens that `next?` still yields. -/
def pending (s : TokenStream) : Nat := if s.finished then 0 else s.rest.length + 1

theorem pull_finished_or_rest_lt (s : TokenStream) :
    s.pull.2.finished = true ∨
      s.pull.2.finished = s.finished ∧ s.pull.2.rest.length < s.rest.length := by
  simp only [pull]
  have hd : (s.rest.dropWhile isBlank).length ≤ s.rest.length :=
    (List.dropWhile_suffix isBlank).length_le
  split
  · exact Or.inl rfl
  · next b bs h =>
    refine Or.inr ⟨rfl, ?_⟩
    have hw := Lexeme.first_length_pos b bs
    rw [h] at hd
    simp only [List.length_drop, List.length_cons] at hd ⊢
    omega

theorem next?_eq_none_iff {s : TokenStream} : s.next? = none ↔ s.finished = true := by
  simp [next?]

theorem next?_eq_some_iff {s : TokenStream} {r : Token × TokenStream} :
    s.next? = some r ↔ s.finished = false ∧ s.pull = r := by
  simp [next?]

theorem pending_lt_of_next? {s s' : TokenStream} {t : Token} (h : s.next? = some (t, s')) :
    s'.pending < s.pending := by
  obtain ⟨hf, hp⟩ := next?_eq_some_iff.mp h
  have hs : s.pull.2 = s' := congrArg Prod.snd hp
  rcases pull_finished_or_rest_lt s with h' | ⟨h', hl⟩
  · rw [hs] at h'
    simp [pending, h', hf]
  · rw [hs] at h' hl
    simp only [pending, h', hf]
    simp only [Bool.false_eq_true, if_false]
    omega

/-! ## 2. Many tokens -/

/-- Folds over the tokens that are left, up to and with the end token. -/
def foldl {α : Type} (f : α → Token → α) (acc : α) (s : TokenStream) : α × TokenStream :=
  match _h : s.next? with
  | none => (acc, s)
  | some (t, s') => foldl f (f acc t) s'
termination_by s.pending
decreasing_by exact pending_lt_of_next? _h

/-- The tokens that are left. -/
def drain (s : TokenStream) : List Token × TokenStream :=
  let (ts, s') := s.foldl (fun ts t => t :: ts) []
  (ts.reverse, s')

/-- How many tokens are left. -/
def count (s : TokenStream) : Nat × TokenStream := s.foldl (fun n _ => n + 1) 0

/-- The next `n` tokens, or all that are left if they are fewer. -/
def take (n : Nat) (s : TokenStream) : List Token × TokenStream := go [] n s
where
  /-- Reads at most `n` tokens more, with those read before kept last one first. -/
  go (read : List Token) : Nat → TokenStream → List Token × TokenStream
    | 0, s => (read.reverse, s)
    | n + 1, s =>
      match s.next? with
      | none => (read.reverse, s)
      | some (t, s') => go (t :: read) n s'

/-- The token after the next `n`.  The ones before it are read too, all of them if there is no
such token. -/
def nth? : Nat → TokenStream → Option Token × TokenStream
  | 0, s =>
    match s.next? with
    | none => (none, s)
    | some (t, s') => (some t, s')
  | n + 1, s =>
    match s.next? with
    | none => (none, s)
    | some (_, s') => nth? n s'

theorem foldl_of_next?_eq_none {α : Type} {f : α → Token → α} {acc : α} {s : TokenStream}
    (h : s.next? = none) : s.foldl f acc = (acc, s) := by
  rw [foldl]; split <;> simp_all

theorem foldl_of_next?_eq_some {α : Type} {f : α → Token → α} {acc : α} {s s' : TokenStream}
    {t : Token} (h : s.next? = some (t, s')) : s.foldl f acc = s'.foldl f (f acc t) := by
  rw [foldl]; split <;> simp_all

end TokenStream

/-- The tokens of a source, up to and with the end token. -/
def tokenize (bytes : List UInt8) : List Token := (TokenStream.ofBytes bytes).drain.1

end LexicalAnalysis
