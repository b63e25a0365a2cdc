/-
# Ranges of characters

A class of characters is given by a table: the ranges of its code points, ascending and apart.
The look-up stops at the first range that begins after the character, so a character near the
front of the table is decided at once.

`covers_eq_false_of_lt`: a character in front of the table is in none of its ranges.
-/

namespace LexicalAnalysis.Text

/-- The code points from `low` to `high`, both included. -/
structure CharRange where
  low : Nat
  high : Nat

namespace CharRange

/-- Whether a character is in the range. -/
def holds (r : CharRange) (c : Char) : Bool := r.low ≤ c.toNat && c.toNat ≤ r.high

/-- Whether a character is in one of the ranges, which ascend. -/
def covers : List CharRange → Char → Bool
  | [], _ => false
  | r :: rs, c => r.low ≤ c.toNat && (c.toNat ≤ r.high || covers rs c)

/-- A character in front of the first range is in none. -/
theorem covers_eq_false_of_lt {r : CharRange} {rs : List CharRange} {c : Char}
    (h : c.toNat < r.low) : covers (r :: rs) c = false := by
  simp only [covers, Bool.and_eq_false_iff, decide_eq_false_iff_not]
  exact Or.inl (by omega)

end CharRange

end LexicalAnalysis.Text
