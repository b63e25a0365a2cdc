/-
# The lexeme at the front of a text

A lexeme is a run of bytes with the kind it is read as.  `Lexeme.first` reads the one at the
front of a text that does not start with a blank: the longest word, the longest number, or the
longest symbol.  When none is there, the first byte alone is an illegal lexeme, so there is
always one and it is never empty.

* `first_isPrefix`: the lexeme is what the text starts with;
* `first_ne_nil`: it has a byte, so a scanner that steps over it makes progress.
-/
import LexicalAnalysis.Alphabet
import LexicalAnalysis.Kind

namespace LexicalAnalysis

/-- A run of bytes and what it is read as. -/
structure Lexeme where
  kind : Kind
  bytes : List UInt8
  deriving DecidableEq

namespace Lexeme

/-! ## 1. Reading -/

/-- A word is a keyword if it spells one, and an identifier otherwise. -/
def ofWord (word : List UInt8) : Lexeme :=
  match Keyword.ofLexeme? word with
  | some k => ⟨.keyword k, word⟩
  | none => ⟨.identifier, word⟩

/-- The symbol at the front of `b :: rest`: of two bytes if the next one completes it, else of
one.  A byte that is neither is illegal. -/
def ofSymbol (b : UInt8) (rest : List UInt8) : Lexeme :=
  let pair := b :: rest.take 1
  match Kind.symbol? pair with
  | some kind => ⟨kind, pair⟩
  | none =>
    match Kind.symbol? [b] with
    | some kind => ⟨kind, [b]⟩
    | none => ⟨.illegal, [b]⟩

/-- The lexeme at the front of `b :: rest`. -/
def first (b : UInt8) (rest : List UInt8) : Lexeme :=
  if isLetter b then ofWord (b :: rest.takeWhile isWordByte)
  else if isDigit b then ⟨.integerLiteral, b :: rest.takeWhile isDigit⟩
  else ofSymbol b rest

theorem first_of_isLetter {b : UInt8} (rest : List UInt8) (h : isLetter b = true) :
    first b rest = ofWord (b :: rest.takeWhile isWordByte) := by
  simp [first, h]

theorem first_of_isDigit {b : UInt8} (rest : List UInt8) (h : isDigit b = true) :
    first b rest = ⟨.integerLiteral, b :: rest.takeWhile isDigit⟩ := by
  have hl : isLetter b = false := by
    cases hc : isLetter b with
    | false => rfl
    | true => rw [isDigit_eq_false_of_isLetter b hc] at h; cases h
  simp [first, hl, h]

theorem first_of_isWordByte_eq_false {b : UInt8} (rest : List UInt8) (h : isWordByte b = false) :
    first b rest = ofSymbol b rest := by
  simp only [isWordByte, Bool.or_eq_false_iff] at h
  simp [first, h.1, h.2]

/-- The three ways in which a byte starts a lexeme. -/
theorem letter_or_digit_or_other (b : UInt8) :
    isLetter b = true ∨ isDigit b = true ∨ isWordByte b = false := by
  cases hl : isLetter b <;> cases hd : isDigit b <;> simp [isWordByte, hl, hd]

/-! ## 2. What is read is there -/

@[simp] theorem ofWord_bytes (word : List UInt8) : (ofWord word).bytes = word := by
  simp only [ofWord]; split <;> rfl

theorem ofSymbol_bytes (b : UInt8) (rest : List UInt8) :
    (ofSymbol b rest).bytes = b :: rest.take 1 ∨ (ofSymbol b rest).bytes = [b] := by
  simp only [ofSymbol]
  split
  · exact Or.inl rfl
  · split <;> exact Or.inr rfl

theorem first_isPrefix (b : UInt8) (rest : List UInt8) : (first b rest).bytes <+: b :: rest := by
  rcases letter_or_digit_or_other b with h | h | h
  · rw [first_of_isLetter rest h, ofWord_bytes]
    exact List.cons_prefix_cons.mpr ⟨rfl, List.takeWhile_prefix _⟩
  · rw [first_of_isDigit rest h]
    exact List.cons_prefix_cons.mpr ⟨rfl, List.takeWhile_prefix _⟩
  · rw [first_of_isWordByte_eq_false rest h]
    rcases ofSymbol_bytes b rest with hs | hs <;> rw [hs]
    · exact List.cons_prefix_cons.mpr ⟨rfl, List.take_prefix _ _⟩
    · exact List.cons_prefix_cons.mpr ⟨rfl, List.nil_prefix⟩

theorem first_ne_nil (b : UInt8) (rest : List UInt8) : (first b rest).bytes ≠ [] := by
  rcases letter_or_digit_or_other b with h | h | h
  · simp [first_of_isLetter rest h]
  · simp [first_of_isDigit rest h]
  · rw [first_of_isWordByte_eq_false rest h]
    rcases ofSymbol_bytes b rest with hs | hs <;> simp [hs]

theorem first_length_pos (b : UInt8) (rest : List UInt8) : 0 < (first b rest).bytes.length :=
  List.length_pos_iff.mpr (first_ne_nil b rest)

/-- Nothing is lost between a lexeme and what follows it. -/
theorem first_append_drop (b : UInt8) (rest : List UInt8) :
    (first b rest).bytes ++ (b :: rest).drop (first b rest).bytes.length = b :: rest := by
  obtain ⟨t, ht⟩ := first_isPrefix b rest
  rw [← ht, List.drop_left]

end Lexeme

end LexicalAnalysis
