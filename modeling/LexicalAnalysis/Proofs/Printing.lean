/-
# What is written is read back

Writing lexemes with gaps between them and scanning the result is the identity, as long as no
lexeme touches one that it would run into.  One space between neighbours is always enough, so the
tokens of any source can be written so and scanned again.

* `Layout.spaced`: lexemes with one space between neighbours;
* `tokenize_written`: both statements, for every lawful layout and for every source.
-/
import LexicalAnalysis.Proofs.Scan

namespace LexicalAnalysis

/-- The space, which is the plainest of the blanks. -/
def space : UInt8 := 0x20

/-- The lexemes of some tokens, written with one space between neighbours. -/
def writeSpaced (ts : List Token) : List UInt8 := [space].intercalate (ts.map fun t => t.bytes)

namespace Layout

/-! ## 1. One space between neighbours -/

/-- Lexemes with one space between neighbours. -/
def spaced : List Lexeme → List Piece
  | [] => []
  | x :: xs => ⟨[], x⟩ :: xs.map fun y => ⟨[space], y⟩

theorem isGap_space : IsGap [space] := by
  intro b hb
  obtain rfl : b = space := by simpa using hb
  decide

theorem isGap_nil : IsGap [] := by simp [IsGap]

@[simp] theorem map_lexeme_spaced (xs : List Lexeme) : (spaced xs).map Piece.lexeme = xs := by
  cases xs with
  | nil => rfl
  | cons x xs => simp [spaced, Function.comp_def]

/-- Pieces that all have a space before them keep clear of each other. -/
theorem allClear_map_space (p : Piece) (xs : List Lexeme) :
    AllClear (p :: xs.map fun y => ⟨[space], y⟩) := by
  induction xs generalizing p with
  | nil => trivial
  | cons x xs ih => exact ⟨fun h => absurd h (List.cons_ne_nil _ _), ih ⟨[space], x⟩⟩

theorem lawful_spaced {xs : List Lexeme} {tail : List UInt8} (hx : ∀ x ∈ xs, x.Legal)
    (ht : IsGap tail) : Lawful ⟨spaced xs, tail⟩ where
  gap_blank := by
    cases xs with
    | nil => simp [spaced]
    | cons x xs =>
      intro p hp
      rcases List.mem_cons.mp hp with rfl | hp
      · exact isGap_nil
      · obtain ⟨y, -, rfl⟩ := List.mem_map.mp hp
        exact isGap_space
  lexeme_legal p hp := by
    have hmem : p.lexeme ∈ (spaced xs).map Piece.lexeme := List.mem_map_of_mem hp
    rw [map_lexeme_spaced] at hmem
    exact hx _ hmem
  tail_blank := ht
  all_clear := by
    cases xs with
    | nil => trivial
    | cons x xs => exact allClear_map_space _ xs

theorem intercalate_cons (sep l : List UInt8) (ls : List (List UInt8)) :
    sep.intercalate (l :: ls) = l ++ ls.flatMap fun m => sep ++ m := by
  induction ls generalizing l with
  | nil => simp
  | cons m ls ih => rw [List.intercalate_cons_cons, ih]; simp

theorem bytes_spaced (xs : List Lexeme) (tail : List UInt8) :
    bytes ⟨spaced xs, tail⟩ = [space].intercalate (xs.map Lexeme.bytes) ++ tail := by
  cases xs with
  | nil => rfl
  | cons x xs =>
    rw [List.map_cons, intercalate_cons]
    simp [bytes, spaced, Piece.bytes, List.flatMap_map]

/-! ## 2. The lexemes of the tokens of a layout -/

@[simp] theorem map_toLexeme_tokensAfter (read : List UInt8) (ps : List Piece) :
    (tokensAfter read ps).map Token.toLexeme = ps.map Piece.lexeme := by
  induction ps generalizing read with
  | nil => rfl
  | cons p ps ih => simp [tokensAfter, ih]

theorem map_toLexeme_tokens (l : Layout) :
    l.tokens.map Token.toLexeme = l.pieces.map Piece.lexeme ++ [⟨.endOfFile, []⟩] := by
  simp [tokens]

theorem map_toLexeme_dropLast_tokens (l : Layout) :
    l.tokens.dropLast.map Token.toLexeme = l.pieces.map Piece.lexeme := by
  simp [tokens]

/-! ## 3. What the tokens of a layout write -/

theorem writeSpaced_eq (ts : List Token) :
    writeSpaced ts = [space].intercalate ((ts.map Token.toLexeme).map Lexeme.bytes) := by
  rw [writeSpaced, List.map_map]
  rfl

theorem writeSpaced_dropLast_tokens (l : Layout) :
    writeSpaced l.tokens.dropLast = bytes ⟨spaced (l.pieces.map Piece.lexeme), []⟩ := by
  rw [writeSpaced_eq, map_toLexeme_dropLast_tokens, bytes_spaced, List.append_nil]

/-- The end token has nothing to write, but the space before it is there unless it is alone. -/
theorem writeSpaced_tokens (l : Layout) :
    ∃ tail, IsGap tail ∧
      writeSpaced l.tokens = bytes ⟨spaced (l.pieces.map Piece.lexeme), tail⟩ := by
  rw [writeSpaced_eq, map_toLexeme_tokens]
  cases l.pieces.map Piece.lexeme with
  | nil => exact ⟨[], isGap_nil, rfl⟩
  | cons x xs =>
    refine ⟨[space], isGap_space, ?_⟩
    rw [bytes_spaced, List.map_append, List.map_cons, List.cons_append, intercalate_cons,
      intercalate_cons]
    simp

end Layout

/-! ## 4. Reading it back -/

theorem map_toLexeme_tokenize_spaced {l : Layout} (hl : l.Lawful) {tail : List UInt8}
    (ht : IsGap tail) :
    (tokenize (Layout.bytes ⟨Layout.spaced (l.pieces.map Piece.lexeme), tail⟩)).map
      Token.toLexeme = l.tokens.map Token.toLexeme := by
  have hlegal : ∀ x ∈ l.pieces.map Piece.lexeme, x.Legal := by
    intro x hx
    obtain ⟨p, hp, rfl⟩ := List.mem_map.mp hx
    exact hl.lexeme_legal p hp
  rw [tokenize_bytes (Layout.lawful_spaced hlegal ht), Layout.map_toLexeme_tokens,
    Layout.map_toLexeme_tokens, Layout.map_lexeme_spaced]

/-- **Writing and then scanning is the identity.**  Every lawful layout has its own tokens read
back, each where it was put.  In particular the lexemes of any source can be set one space apart,
with or without the empty one of the end token, and are the same ones when scanned again. -/
theorem tokenize_written :
    (∀ l : Layout, l.Lawful → tokenize l.bytes = l.tokens) ∧
      ∀ src : List UInt8,
        (tokenize (writeSpaced (tokenize src))).map Token.toLexeme =
            (tokenize src).map Token.toLexeme ∧
          (tokenize (writeSpaced (tokenize src).dropLast)).map Token.toLexeme =
            (tokenize src).map Token.toLexeme := by
  refine ⟨fun l h => tokenize_bytes h, fun src => ?_⟩
  obtain ⟨l, hl, rfl⟩ := Layout.exists_lawful src
  obtain ⟨tail, htail, hwrite⟩ := Layout.writeSpaced_tokens l
  rw [tokenize_bytes hl, hwrite, Layout.writeSpaced_dropLast_tokens]
  exact ⟨map_toLexeme_tokenize_spaced hl htail, map_toLexeme_tokenize_spaced hl Layout.isGap_nil⟩

/-- On the second line `12` and `ab` touch, and so do `==` and `!`; only `<` has to be kept clear
of `==`. -/
theorem tokenize_written_touching :
    tokenize (ascii ['\n', '1', '2', 'a', 'b', '<', ' ', '=', '=', '!']) =
      [⟨⟨.integerLiteral, ascii ['1', '2']⟩, ⟨1, 2, 1⟩⟩,
        ⟨⟨.identifier, ascii ['a', 'b']⟩, ⟨3, 2, 3⟩⟩,
        ⟨⟨.operator .lt, ascii ['<']⟩, ⟨5, 2, 5⟩⟩,
        ⟨⟨.operator .eq, ascii ['=', '=']⟩, ⟨7, 2, 7⟩⟩,
        ⟨⟨.illegal, ascii ['!']⟩, ⟨9, 2, 9⟩⟩,
        ⟨⟨.endOfFile, []⟩, ⟨10, 2, 10⟩⟩] :=
  tokenize_written.1
    ⟨[⟨[newline], ⟨.integerLiteral, ascii ['1', '2']⟩⟩, ⟨[], ⟨.identifier, ascii ['a', 'b']⟩⟩,
      ⟨[], ⟨.operator .lt, ascii ['<']⟩⟩, ⟨[space], ⟨.operator .eq, ascii ['=', '=']⟩⟩,
      ⟨[], ⟨.illegal, ascii ['!']⟩⟩], []⟩ (by decide)

end LexicalAnalysis
