/-
# Quoted text

Text in double quotes, on one line whatever it holds: the quote and the backslash are escaped,
a few controls have an escape of one letter, and every other character that does not print, or
would be drawn onto the character before it, is written by its code point in hexadecimal.

* `isPlain_of_ascii`: most of ASCII needs no escape;
* `quote_of_plain`: text in which nothing needs one is quoted as it is.
-/
import LexicalAnalysis.Text.Extending
import LexicalAnalysis.Text.Printable

namespace LexicalAnalysis.Text

/-- The letter of a character that has an escape of one letter. -/
def escapeLetter? : Char → Option Char
  | '\x00' => some '0'
  | '\t' => some 't'
  | '\r' => some 'r'
  | '\n' => some 'n'
  | '\"' => some '\"'
  | '\\' => some '\\'
  | _ => none

/-- Whether a character can be read off the page where it stands. -/
def isLegible (c : Char) : Bool := isPrintable c && !isExtending c

/-- A character between quotes. -/
def quoteChar (c : Char) : List Char :=
  match escapeLetter? c with
  | some letter => ['\\', letter]
  | none =>
    if isLegible c then [c] else ['\\', 'u', '{'] ++ (Nat.toDigits 16 c.toNat ++ ['}'])

/-- A text between quotes. -/
def quote (text : String) : String :=
  String.ofList ('\"' :: (text.toList.flatMap quoteChar ++ ['\"']))

/-- A character that is quoted as it is. -/
def isPlain (c : Char) : Bool := (escapeLetter? c).isNone && isLegible c

theorem quoteChar_of_isPlain {c : Char} (h : isPlain c = true) : quoteChar c = [c] := by
  simp only [isPlain, Bool.and_eq_true, Option.isNone_iff_eq_none] at h
  simp [quoteChar, h.1, h.2]

/-- Printable ASCII is legible. -/
theorem isLegible_of_ascii {c : Char} (h : 0x20 ≤ c.toNat ∧ c.toNat ≤ 0x7E) :
    isLegible c = true := by
  rw [isLegible, (isPrintable_iff_of_lt (by omega)).mpr h, isExtending_eq_false_of_lt (by omega)]
  rfl

/-- Printable ASCII is quoted as it is, but for the quotation mark and the backslash. -/
theorem isPlain_of_ascii {c : Char} (h : 0x20 ≤ c.toNat ∧ c.toNat ≤ 0x7E) (hmark : c.toNat ≠ 0x22)
    (hslash : c.toNat ≠ 0x5C) : isPlain c = true := by
  have hletter : escapeLetter? c = none := by
    unfold escapeLetter?
    split
    -- the controls are below the space
    iterate 4 exact absurd h.1 (by decide)
    · exact absurd rfl hmark
    · exact absurd rfl hslash
    · rfl
  rw [isPlain, hletter, isLegible_of_ascii h]
  rfl

theorem flatMap_quoteChar_of_plain {cs : List Char} (h : ∀ c ∈ cs, isPlain c = true) :
    cs.flatMap quoteChar = cs := by
  induction cs with
  | nil => rfl
  | cons c cs ih =>
    rw [List.flatMap_cons, quoteChar_of_isPlain (h c (by simp)),
      ih (fun d hd => h d (List.mem_cons_of_mem _ hd))]
    rfl

/-- Text in which nothing needs an escape is quoted as it is. -/
theorem quote_of_plain {text : String} (h : ∀ c ∈ text.toList, isPlain c = true) :
    quote text = String.ofList ('\"' :: (text.toList ++ ['\"'])) := by
  rw [quote, flatMap_quoteChar_of_plain h]

end LexicalAnalysis.Text
