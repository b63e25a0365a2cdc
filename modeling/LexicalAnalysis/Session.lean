/-
# Sessions

A session reads one source through several streams, one of which is current.  It starts with
one stream, at the start of the source, and every further one is a copy of the current stream
at the time; the copies move on their own.

* `Step`: what a session can be asked, and `Answer`, what it says;
* `Session.step`: one step.  Only `use` changes which stream is current, and only the current
  stream moves;
* `Session.run`: the answers of many steps, each with where the current stream then stands.
-/
import LexicalAnalysis.Source

namespace LexicalAnalysis

/-- A request to the current stream, or about the streams of a session. -/
inductive Step where
  /-- Pulls a token. -/
  | pull
  /-- Asks for the next token. -/
  | next
  /-- Asks for at most the next `n` tokens. -/
  | take (n : Nat)
  /-- Asks for the token after the next `n`. -/
  | nth (n : Nat)
  /-- Asks for all that are left. -/
  | drain
  /-- Counts those that are left, and reads them. -/
  | count
  /-- Where does the stream stand? -/
  | position
  /-- Has it read every byte? -/
  | atEnd
  /-- What is the source called? -/
  | file
  /-- Copies the current stream. -/
  | copy
  /-- Makes the stream of the given number current. -/
  | use (i : Nat)

/-- What a session says to a step. -/
inductive Answer where
  | token (t : Token)
  | token? (t? : Option Token)
  | tokens (ts : List Token)
  | number (n : Nat)
  | position (p : Position)
  | truth (b : Bool)
  | name (s : String)

/-- The streams of a session. -/
structure Session where
  source : Source
  streams : List TokenStream
  /-- The number of the current stream, from 0. -/
  current : Nat
  current_lt : current < streams.length

namespace Session

/-- The session of a source, with one stream at its start. -/
def ofSource (source : Source) : Session := ⟨source, [source.stream], 0, by simp⟩

/-- The current stream. -/
def stream (s : Session) : TokenStream := s.streams.get ⟨s.current, s.current_lt⟩

/-- Puts a stream in the place of the current one. -/
def replace (s : Session) (stream : TokenStream) : Session :=
  ⟨s.source, s.streams.set s.current stream, s.current, by simpa using s.current_lt⟩

/-- Adds a stream behind the others. -/
def append (s : Session) (stream : TokenStream) : Session :=
  ⟨s.source, s.streams ++ [stream], s.current, by have := s.current_lt; simp; omega⟩

/-- Makes the stream of a number current, if there is one. -/
def select (s : Session) (i : Nat) : Session :=
  if h : i < s.streams.length then ⟨s.source, s.streams, i, h⟩ else s

/-- One step. -/
def step (s : Session) : Step → Answer × Session
  | .pull => let (t, r) := s.stream.pull; (.token t, s.replace r)
  | .next =>
    match s.stream.next? with
    | none => (.token? none, s)
    | some (t, r) => (.token? (some t), s.replace r)
  | .take n => let (ts, r) := s.stream.take n; (.tokens ts, s.replace r)
  | .nth n => let (t?, r) := s.stream.nth? n; (.token? t?, s.replace r)
  | .drain => let (ts, r) := s.stream.drain; (.tokens ts, s.replace r)
  | .count => let (n, r) := s.stream.count; (.number n, s.replace r)
  | .position => (.position s.stream.position, s)
  | .atEnd => (.truth s.stream.atEnd, s)
  | .file => (.name s.source.name, s)
  | .copy => (.number s.streams.length, s.append s.stream)
  | .use i => (.number i, s.select i)

/-- What can be seen after a step: its answer, and where the current stream stands. -/
structure Sight where
  answer : Answer
  position : Position
  atEnd : Bool

/-- Steps in a row. -/
def run (s : Session) : List Step → List Sight
  | [] => []
  | step :: steps =>
    let (answer, s) := s.step step
    ⟨answer, s.stream.position, s.stream.atEnd⟩ :: run s steps

end Session

end LexicalAnalysis
