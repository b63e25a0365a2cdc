/-
# Bytes read as text

Any list of bytes can be read as UTF-8 text.  Bytes that encode a character become that
character.  Where they do not, each longest start of a character that then breaks off, and each
byte that no character can start with, becomes one replacement character.

The reader goes byte by byte and keeps the character that is under way, so that what it does
with a byte depends on that character alone.  `segments` keeps for every character the bytes
that it stands for.

* `Opening.ofByte?`: what a first byte of several promises;
* `Reader.feed`: one byte;
* `segments`, `decode`: a whole text.
-/
import LexicalAnalysis.Byte

namespace LexicalAnalysis.Utf8

/-! ## 1. Which bytes follow which -/

/-- The bytes that may stand inside a character. -/
def continuation : ByteRange := ⟨0x80, 0xBF⟩

/-- A character under way: its first bytes are read, and at least one is to come. -/
structure Opening where
  /-- What was read of it. -/
  bytes : List UInt8
  /-- The bits that these bytes carry. -/
  value : Nat
  /-- What the next byte may be.  The range is narrower than `continuation` where a shorter form
  exists, or where the result would be a surrogate or too large. -/
  next : ByteRange
  /-- How many bytes follow that one. -/
  later : Nat

/-- What a first byte of several promises.  None if no character starts with it. -/
def Opening.ofByte? (b : UInt8) : Option Opening :=
  if 0xC2 ≤ b ∧ b ≤ 0xDF then some ⟨[b], b.toNat - 0xC0, continuation, 0⟩
  else if b = 0xE0 then some ⟨[b], 0, ⟨0xA0, 0xBF⟩, 1⟩
  else if b = 0xED then some ⟨[b], 0xD, ⟨0x80, 0x9F⟩, 1⟩
  else if 0xE1 ≤ b ∧ b ≤ 0xEF then some ⟨[b], b.toNat - 0xE0, continuation, 1⟩
  else if b = 0xF0 then some ⟨[b], 0, ⟨0x90, 0xBF⟩, 2⟩
  else if 0xF1 ≤ b ∧ b ≤ 0xF3 then some ⟨[b], b.toNat - 0xF0, continuation, 2⟩
  else if b = 0xF4 then some ⟨[b], 4, ⟨0x80, 0x8F⟩, 2⟩
  else none

/-! ## 2. The reader -/

/-- A character of the text, and the bytes that it stands for. -/
structure Segment where
  bytes : List UInt8
  char : Char
  deriving DecidableEq

/-- The character that stands for bytes that encode none. -/
def replacement : Char := Char.ofNat 0xFFFD

/-- A reader between two bytes: the segments behind it, the last one first, and the character
under way. -/
structure Reader where
  done : List Segment
  opening : Option Opening

/-- The reader at the start of a text. -/
def Reader.fresh : Reader := ⟨[], none⟩

/-- Reads a byte with no character under way. -/
def Reader.begin (done : List Segment) (b : UInt8) : Reader :=
  if b < 0x80 then ⟨⟨[b], Char.ofNat b.toNat⟩ :: done, none⟩
  else
    match Opening.ofByte? b with
    | some o => ⟨done, some o⟩
    | none => ⟨⟨[b], replacement⟩ :: done, none⟩

/-- Reads a byte that continues the character under way. -/
def Reader.extend (done : List Segment) (o : Opening) (b : UInt8) : Reader :=
  let bytes := o.bytes ++ [b]
  let value := o.value * 64 + (b.toNat - 0x80)
  match o.later with
  | 0 => ⟨⟨bytes, Char.ofNat value⟩ :: done, none⟩
  | n + 1 => ⟨done, some ⟨bytes, value, continuation, n⟩⟩

/-- Gives up the character under way, if there is one. -/
def Reader.settle (r : Reader) : List Segment :=
  match r.opening with
  | none => r.done
  | some o => ⟨o.bytes, replacement⟩ :: r.done

/-- Reads a byte.  One that cannot continue the character under way ends it, and is read again
as a first byte. -/
def Reader.feed (r : Reader) (b : UInt8) : Reader :=
  match r.opening with
  | none => begin r.done b
  | some o => if o.next.holds b then extend r.done o b else begin r.settle b

/-- The segments of a text. -/
def segments (bytes : List UInt8) : List Segment :=
  (bytes.foldl Reader.feed Reader.fresh).settle.reverse

/-- The characters of a text. -/
def chars (bytes : List UInt8) : List Char := (segments bytes).map (·.char)

/-- The text that the bytes are read as. -/
def decode (bytes : List UInt8) : String := String.ofList (chars bytes)

end LexicalAnalysis.Utf8
