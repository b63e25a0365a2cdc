/-
# Operators and delimiters

The lexemes that need no blanks around them: the operators of expressions, of one byte or two,
and the delimiters, of one byte.  No two have the same spelling.
-/
import LexicalAnalysis.Byte

namespace LexicalAnalysis

/-! ## 1. Operators -/

/-- The operators of expressions. -/
inductive Operator where
  | assign
  | plus
  | minus
  | star
  | slash
  | eq
  | notEq
  | lt
  | ltEq
  | gt
  | gtEq
  deriving DecidableEq

namespace Operator

/-- Every operator. -/
def all : List Operator :=
  [assign, plus, minus, star, slash, eq, notEq, lt, ltEq, gt, gtEq]

/-- How an operator is spelled. -/
def letters : Operator → List Char
  | assign => ['=']
  | plus => ['+']
  | minus => ['-']
  | star => ['*']
  | slash => ['/']
  | eq => ['=', '=']
  | notEq => ['!', '=']
  | lt => ['<']
  | ltEq => ['<', '=']
  | gt => ['>']
  | gtEq => ['>', '=']

/-- The spelling as the bytes of a source. -/
def lexeme (o : Operator) : List UInt8 := ascii o.letters

/-- The name of an operator in messages. -/
def name : Operator → String
  | assign => "Assign"
  | plus => "Plus"
  | minus => "Minus"
  | star => "Star"
  | slash => "Slash"
  | eq => "Eq"
  | notEq => "NotEq"
  | lt => "Lt"
  | ltEq => "LtEq"
  | gt => "Gt"
  | gtEq => "GtEq"

theorem mem_all (o : Operator) : o ∈ all := by cases o <;> simp [all]

end Operator

/-! ## 2. Delimiters -/

/-- The marks that group and separate. -/
inductive Delimiter where
  | semicolon
  | comma
  | lparen
  | rparen
  | lbrace
  | rbrace
  deriving DecidableEq

namespace Delimiter

/-- Every delimiter. -/
def all : List Delimiter := [semicolon, comma, lparen, rparen, lbrace, rbrace]

/-- How a delimiter is spelled. -/
def letters : Delimiter → List Char
  | semicolon => [';']
  | comma => [',']
  | lparen => ['(']
  | rparen => [')']
  | lbrace => ['{']
  | rbrace => ['}']

/-- The spelling as the bytes of a source. -/
def lexeme (d : Delimiter) : List UInt8 := ascii d.letters

/-- The name of a delimiter in messages. -/
def name : Delimiter → String
  | semicolon => "Semicolon"
  | comma => "Comma"
  | lparen => "LParen"
  | rparen => "RParen"
  | lbrace => "LBrace"
  | rbrace => "RBrace"

theorem mem_all (d : Delimiter) : d ∈ all := by cases d <;> simp [all]

end Delimiter

end LexicalAnalysis
