/-
# The kinds of token

Every token has a kind.  Keywords, operators and delimiters have one lexeme each; integers and
identifiers have many; and two sentinels stand for a byte outside the language and for the end
of the source.

* `Kind.name`: the name that messages use, and `Kind.ofName?`, which reads it;
* `Kind.symbol?`: the operator or delimiter that some bytes spell.

`Kind.ofName?_eq_some_iff` and `Kind.symbol?_eq_some_iff` say that the two look-ups find
exactly what is called or spelled so.
-/
import LexicalAnalysis.Keyword
import LexicalAnalysis.Symbol

namespace LexicalAnalysis

/-! ## 1. All kinds -/

/-- What a token is. -/
inductive Kind where
  /-- A byte that starts no lexeme of the language. -/
  | illegal
  /-- The end of the source. -/
  | endOfFile
  | integerLiteral
  | identifier
  | keyword (k : Keyword)
  | operator (o : Operator)
  | delimiter (d : Delimiter)
  deriving DecidableEq

namespace Kind

/-- Every kind. -/
def all : List Kind :=
  [illegal, endOfFile, integerLiteral, identifier] ++
    (Keyword.all.map keyword ++ (Operator.all.map operator ++ Delimiter.all.map delimiter))

/-- The name of a kind in messages. -/
def name : Kind → String
  | illegal => "Illegal"
  | endOfFile => "EndOfFile"
  | integerLiteral => "IntegerLiteral"
  | identifier => "Identifier"
  | keyword k => k.name
  | operator o => o.name
  | delimiter d => d.name

/-- The kind of the given name. -/
def ofName? (name : String) : Option Kind := all.find? fun k => k.name == name

/-- The sentinels: the kinds that are not part of the language. -/
def isSentinel : Kind → Bool
  | illegal | endOfFile => true
  | _ => false

/-- The kinds whose tokens differ in their lexemes. -/
def isLiteral : Kind → Bool
  | integerLiteral | identifier => true
  | _ => false

def isKeyword : Kind → Bool
  | keyword _ => true
  | _ => false

def isOperator : Kind → Bool
  | operator _ => true
  | _ => false

def isDelimiter : Kind → Bool
  | delimiter _ => true
  | _ => false

theorem mem_all (k : Kind) : k ∈ all := by
  cases k <;> simp [all, Keyword.mem_all, Operator.mem_all, Delimiter.mem_all]

/-! ## 2. Symbols, by their spelling -/

/-- The kinds that are not set off by blanks but by their spelling. -/
def symbols : List Kind := Operator.all.map operator ++ Delimiter.all.map delimiter

/-- The one lexeme of a kind that has only one. -/
def lexeme? : Kind → Option (List UInt8)
  | keyword k => some k.lexeme
  | operator o => some o.lexeme
  | delimiter d => some d.lexeme
  | _ => none

/-- The operator or delimiter that the bytes spell, if they spell one. -/
def symbol? (bytes : List UInt8) : Option Kind := symbols.find? fun k => k.lexeme? == some bytes

theorem mem_symbols_iff {k : Kind} :
    k ∈ symbols ↔ k.isOperator = true ∨ k.isDelimiter = true := by
  cases k <;>
    simp [symbols, isOperator, isDelimiter, Operator.mem_all, Delimiter.mem_all]

theorem symbol?_eq_some_iff {bytes : List UInt8} {k : Kind} :
    symbol? bytes = some k ↔ k ∈ symbols ∧ k.lexeme? = some bytes := by
  constructor
  · intro h
    exact ⟨List.mem_of_find?_eq_some h, by simpa using List.find?_some h⟩
  · rintro ⟨hk, hl⟩
    cases k with
    | operator o =>
      obtain rfl : o.lexeme = bytes := by simpa [lexeme?] using hl
      cases o <;> decide
    | delimiter d =>
      obtain rfl : d.lexeme = bytes := by simpa [lexeme?] using hl
      cases d <;> decide
    | _ => simp [symbols] at hk

/-! ## 3. Names identify kinds -/

theorem name_injective {k l : Kind} (h : k.name = l.name) : k = l := by
  have distinct : ∀ k ∈ all, ∀ l ∈ all, k.name = l.name → k = l := by decide +kernel
  exact distinct k (mem_all k) l (mem_all l) h

theorem ofName?_eq_some_iff {name : String} {k : Kind} :
    ofName? name = some k ↔ k.name = name := by
  constructor
  · intro h
    simpa using List.find?_some h
  · rintro rfl
    obtain ⟨l, hl⟩ : ∃ l, ofName? k.name = some l :=
      Option.isSome_iff_exists.mp (List.find?_isSome.mpr ⟨k, mem_all k, by simp⟩)
    have hn : l.name = k.name := by simpa using List.find?_some hl
    rw [hl, name_injective hn]

end Kind

end LexicalAnalysis
