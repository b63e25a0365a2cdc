/-
# Diagnostics

A byte that starts no lexeme is reported: what is wrong with it, where, and in which source.
`check` accepts a source, with its tokens, or rejects it with a diagnostic for every such byte.

* `Cause`: what is wrong.  An exclamation mark on its own is taken for half an operator;
* `Diagnostic.ofToken?`: the diagnostic of a token, which only an illegal one has;
* `check_eq_ok_iff`: a source is accepted exactly if none of its tokens is illegal.
-/
import LexicalAnalysis.Source
import LexicalAnalysis.Text.Escaped

namespace LexicalAnalysis

/-- What is wrong with a piece of a source.  Both carry the piece, ready to be shown. -/
inductive Cause where
  /-- It is no part of the language. -/
  | unrecognised (shown : String)
  /-- It starts an operator that is not there. -/
  | incompleteOperator (shown : String)
  deriving DecidableEq

namespace Cause

/-- The piece that is wrong. -/
def shown : Cause → String
  | unrecognised shown => shown
  | incompleteOperator shown => shown

/-- The name of a cause in messages. -/
def name : Cause → String
  | unrecognised _ => "UnrecognisedToken"
  | incompleteOperator _ => "IncompleteOperator"

/-- What is wrong, in a few words. -/
def message : Cause → String
  | unrecognised shown => "unrecognised token `" ++ shown ++ "`"
  | incompleteOperator shown => "incomplete operator `" ++ shown ++ "`"

/-- What is wrong with the bytes of an illegal token. -/
def ofBytes (bytes : List UInt8) : Cause :=
  if bytes = ascii ['!'] then incompleteOperator (Text.escape bytes)
  else unrecognised (Text.escape bytes)

end Cause

/-- A cause, and where it was found. -/
structure Diagnostic where
  cause : Cause
  position : Position
  /-- The name of the source. -/
  file : String
  deriving DecidableEq

namespace Diagnostic

/-- What to do about it. -/
def tip (d : Diagnostic) : String :=
  match d.cause with
  | .unrecognised shown =>
    "unexpected character '" ++ shown ++ "' at line " ++ d.position.line.toNat.repr ++
      ", column " ++ d.position.column.toNat.repr
  | .incompleteOperator shown =>
    "`" ++ shown ++ "` is not an operator on its own, did you mean `!=`?"

/-- A diagnostic on one line: source, place and cause. -/
def display (d : Diagnostic) : String :=
  d.file ++ ":" ++ d.position.display ++ ": " ++ d.cause.message

/-- The diagnostic of a token, which only an illegal one has. -/
def ofToken? (file : String) (t : Token) : Option Diagnostic :=
  if t.isIllegal then some ⟨.ofBytes t.bytes, t.position, file⟩ else none

/-- The diagnostics of some tokens, in the order of the tokens. -/
def collect (file : String) (ts : List Token) : List Diagnostic := ts.filterMap (ofToken? file)

theorem ofToken?_eq_none_iff {file : String} {t : Token} :
    ofToken? file t = none ↔ t.isIllegal = false := by
  simp [ofToken?]

theorem collect_eq_nil_iff {file : String} {ts : List Token} :
    collect file ts = [] ↔ ∀ t ∈ ts, t.isIllegal = false := by
  simp [collect, ofToken?_eq_none_iff]

end Diagnostic

/-- Accepts tokens none of which is illegal, and otherwise rejects them with a diagnostic for
each one that is. -/
def checkTokens (file : String) (ts : List Token) : Except (List Diagnostic) (List Token) :=
  match Diagnostic.collect file ts with
  | [] => .ok ts
  | d :: ds => .error (d :: ds)

/-- The tokens of a source, or what is wrong with it. -/
def check (s : Source) : Except (List Diagnostic) (List Token) := checkTokens s.name s.tokens

theorem checkTokens_eq_ok_iff {file : String} {ts us : List Token} :
    checkTokens file ts = .ok us ↔ us = ts ∧ ∀ t ∈ ts, t.isIllegal = false := by
  rw [← @Diagnostic.collect_eq_nil_iff file, checkTokens]
  split
  · next h => simp [h, eq_comm]
  · next h => simp [h]

/-- A source is accepted exactly if none of its tokens is illegal. -/
theorem check_eq_ok_iff {s : Source} {ts : List Token} :
    check s = .ok ts ↔ ts = s.tokens ∧ ∀ t ∈ s.tokens, t.isIllegal = false :=
  checkTokens_eq_ok_iff

end LexicalAnalysis
