/-
# Keywords

The reserved words of the language.  A word is a keyword if it is spelled exactly like one, so
that a longer word that starts with a keyword is none, and case counts.

`Keyword.ofLexeme?_eq_some_iff`: the look-up finds exactly the keyword that a word spells.
-/
import LexicalAnalysis.Byte

namespace LexicalAnalysis

/-- The reserved words, in alphabetical order. -/
inductive Keyword where
  | kwElse
  | kwIf
  | kwInt
  | kwReturn
  | kwWhile
  deriving DecidableEq

namespace Keyword

/-- Every keyword, in alphabetical order. -/
def all : List Keyword := [kwElse, kwIf, kwInt, kwReturn, kwWhile]

/-- How a keyword is spelled.  Case counts. -/
def letters : Keyword → List Char
  | kwElse => ['e', 'l', 's', 'e']
  | kwIf => ['i', 'f']
  | kwInt => ['i', 'n', 't']
  | kwReturn => ['r', 'e', 't', 'u', 'r', 'n']
  | kwWhile => ['w', 'h', 'i', 'l', 'e']

/-- The spelling as text. -/
def spelling (k : Keyword) : String := String.ofList k.letters

/-- The spelling as the bytes of a source. -/
def lexeme (k : Keyword) : List UInt8 := ascii k.letters

/-- The name of a keyword in messages. -/
def name : Keyword → String
  | kwElse => "Else"
  | kwIf => "If"
  | kwInt => "Int"
  | kwReturn => "Return"
  | kwWhile => "While"

/-- The keyword that a word spells, if it spells one. -/
def ofLexeme? (word : List UInt8) : Option Keyword := all.find? fun k => k.lexeme == word

theorem mem_all (k : Keyword) : k ∈ all := by cases k <;> simp [all]

theorem ofLexeme?_eq_some_iff {word : List UInt8} {k : Keyword} :
    ofLexeme? word = some k ↔ k.lexeme = word := by
  constructor
  · intro h
    simpa using List.find?_some h
  · rintro rfl
    cases k <;> decide

theorem ofLexeme?_eq_none_iff {word : List UInt8} :
    ofLexeme? word = none ↔ ∀ k : Keyword, k.lexeme ≠ word := by
  simp [ofLexeme?, mem_all]

end Keyword

end LexicalAnalysis
