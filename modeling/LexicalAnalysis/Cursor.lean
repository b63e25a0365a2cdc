/-
# Scanning by offsets

A stream keeps what is left of its source.  A cursor keeps an offset into a source that stays where
it is: it looks at the byte there and at the next one, counts in words, and takes a lexeme out of
the source by the offsets where that starts and stops.  Each of these can go wrong, so a cursor's
computations are traced.

* `TokenStream.call_cases`: what a stream can do when it is asked for a token;
* `Cursor.skipBlanks`, `Cursor.runEnd`: the two loops, over a gap and over a word or number;
* `Cursor.scan`: where a lexeme stops, and what it is read as;
* `Cursor.pull`, `Cursor.call`, `Cursor.run`: one token, one call and calls in a row.
-/
import LexicalAnalysis.Grammar.Basic
import LexicalAnalysis.TokenStream
import LexicalAnalysis.Traced

namespace LexicalAnalysis

/-- A way to ask for a token: the next one in any case, or unless the end token was yielded. -/
inductive Call where
  | pull
  | next

namespace TokenStream

/-- What one call yields, and the stream after it. -/
def call (s : TokenStream) : Call → Option Token × TokenStream
  | .pull => (some s.pull.1, s.pull.2)
  | .next =>
    match s.next? with
    | none => (none, s)
    | some (t, s') => (some t, s')

/-- **What a call can do**: nothing, behind the end token, or else pull. -/
theorem call_cases (s : TokenStream) (c : Call) :
    (c = .next ∧ s.finished = true ∧ s.call c = (none, s)) ∨
      ((c = .next → s.finished = false) ∧ s.call c = (some s.pull.1, s.pull.2)) := by
  cases c with
  | pull => exact .inr ⟨nofun, rfl⟩
  | next =>
    cases hend : s.finished with
    | true => exact .inl ⟨rfl, rfl, by rw [call, next?_eq_none_iff.mpr hend]⟩
    | false => exact .inr ⟨fun _ => rfl, by rw [call, next?_eq_some_iff.mpr ⟨hend, rfl⟩]⟩

/-- Calls in a row. -/
def run (s : TokenStream) : List Call → List (Option Token) × TokenStream
  | [] => ([], s)
  | c :: cs => ((s.call c).1 :: (run (s.call c).2 cs).1, (run (s.call c).2 cs).2)

end TokenStream

/-- A place in a source, and whether the end token was yielded. -/
structure Cursor where
  position : Position
  finished : Bool
  deriving DecidableEq

namespace Cursor

/-- Where every source is entered. -/
def start : Cursor := ⟨.start, false⟩

/-! ## 1. Moving on -/

/-- The position after one blank. -/
def overBlank (p : Position) (b : UInt8) : Traced Position := do
  let offset ← Traced.addOffset p.offset 1
  if b == newline then
    let line ← Traced.addWord p.line 1
    return ⟨offset, line, 1⟩
  else
    let column ← Traced.addWord p.column 1
    return ⟨offset, p.line, column⟩

@[simp] theorem overBlank_value (p : Position) (b : UInt8) :
    (overBlank p b).value = p.overBlank b := by
  unfold overBlank Position.overBlank
  cases b == newline <;> rfl

variable (src : List UInt8)

/-- The position behind the blanks that start at one. -/
def skipBlanks (p : Position) : Traced Position :=
  match _h : src[p.offset]? with
  | none => pure p
  | some b =>
    if isBlank b then do
      let _ ← overBlank p b
      skipBlanks (overBlank p b).value
    else pure p
termination_by src.length - p.offset
decreasing_by
  obtain ⟨hlt, -⟩ := List.getElem?_eq_some_iff.mp _h
  rw [overBlank_value, Position.overBlank_offset]
  omega

theorem skipBlanks_of_none {p : Position} (h : src[p.offset]? = none) :
    skipBlanks src p = pure p := by
  rw [skipBlanks]
  split <;> simp_all

theorem skipBlanks_of_some {p : Position} {b : UInt8} (h : src[p.offset]? = some b) :
    skipBlanks src p =
      if isBlank b then overBlank p b >>= fun _ => skipBlanks src (p.overBlank b)
      else pure p := by
  rw [skipBlanks]
  split <;> simp_all

/-- The end of the bytes of a class that start at an offset. -/
def runEnd (p : UInt8 → Bool) (i : Nat) : Traced Nat :=
  match _h : src[i]? with
  | none => pure i
  | some b =>
    if p b then do
      let _ ← Traced.addOffset i 1
      runEnd p (i + 1)
    else pure i
termination_by src.length - i
decreasing_by
  obtain ⟨hlt, -⟩ := List.getElem?_eq_some_iff.mp _h
  omega

theorem runEnd_of_none {p : UInt8 → Bool} {i : Nat} (h : src[i]? = none) :
    runEnd src p i = pure i := by
  rw [runEnd]
  split <;> simp_all

theorem runEnd_of_some {p : UInt8 → Bool} {i : Nat} {b : UInt8} (h : src[i]? = some b) :
    runEnd src p i =
      if p b then Traced.addOffset i 1 >>= fun _ => runEnd src p (i + 1) else pure i := by
  rw [runEnd]
  split <;> simp_all

/-- So many bytes on, but not out of the source. -/
def advance (i n : Nat) : Traced Nat := do
  let stop ← Traced.addOffset i n
  Traced.least stop src.length

/-! ## 2. Tokens -/

/-- What the bytes of a symbol are read as. -/
def symbol (bytes : List UInt8) : Kind := (Kind.symbol? bytes).getD .illegal

/-- What the lexeme that starts with a byte is read as, and where it stops. -/
def scan (i : Nat) (b : UInt8) : Traced (Kind × Nat) :=
  if isLetter b then do
    let stop ← runEnd src isWordByte i
    let word ← Traced.part src i stop
    return ((Lexeme.ofWord word).kind, stop)
  else if isDigit b then do
    let stop ← runEnd src isDigit i
    return (.integerLiteral, stop)
  else if Lexeme.isExtensible [b] then do
    let next ← Traced.addOffset i 1
    if src[next]? == some equals then
      let stop ← advance src i 2
      return (symbol [b, equals], stop)
    else
      let stop ← advance src i 1
      return (symbol [b], stop)
  else do
    let stop ← advance src i 1
    return (symbol [b], stop)

/-- The token at a place where no blank is, and the cursor behind it. -/
def pullFrom (p : Position) (finished : Bool) : Traced (Token × Cursor) :=
  match src[p.offset]? with
  | none => do
    let bytes ← Traced.part src p.offset src.length
    return (⟨⟨.endOfFile, bytes⟩, p⟩, ⟨p, true⟩)
  | some b => do
    let (kind, stop) ← scan src p.offset b
    let bytes ← Traced.part src p.offset stop
    let width ← Traced.toWord bytes.length
    let column ← Traced.addWord p.column width
    return (⟨⟨kind, bytes⟩, p⟩, ⟨⟨stop, p.line, column⟩, finished⟩)

/-- The next token, and the cursor behind it. -/
def pull (c : Cursor) : Traced (Token × Cursor) := do
  let p ← skipBlanks src c.position
  pullFrom src p c.finished

/-- What one call yields, and the cursor after it. -/
def call (c : Cursor) : Call → Traced (Option Token × Cursor)
  | .pull => do
    let (t, c) ← pull src c
    return (some t, c)
  | .next =>
    if c.finished then return (none, c)
    else do
      let (t, c) ← pull src c
      return (some t, c)

/-- Calls in a row. -/
def run (c : Cursor) : List Call → Traced (List (Option Token) × Cursor)
  | [] => return ([], c)
  | step :: steps => do
    let (t?, c) ← call src c step
    let (ts, c) ← run c steps
    return (t? :: ts, c)

end Cursor

end LexicalAnalysis
