/-
# Bytes

What a source is made of.  A set of bytes is mostly given by a range, and what is claimed of
every byte can be tried on all 256 of them.
-/

namespace LexicalAnalysis

/-! ## 1. Ranges -/

/-- The bytes from `low` to `high`, both included. -/
structure ByteRange where
  low : UInt8
  high : UInt8
  deriving DecidableEq

/-- Whether a byte is in the range. -/
def ByteRange.holds (r : ByteRange) (b : UInt8) : Bool := r.low ≤ b && b ≤ r.high

/-! ## 2. Characters as bytes -/

/-- The bytes of the given characters, which are all ASCII here. -/
def ascii (cs : List Char) : List UInt8 := cs.map Char.toUInt8

/-! ## 3. All bytes -/

/-- What is claimed of every byte is settled by trying them. -/
theorem forall_byte {p : UInt8 → Prop} [DecidablePred p]
    (h : ((List.range 256).all fun n => decide (p (UInt8.ofNat n))) = true) (b : UInt8) : p b := by
  have hb : p (UInt8.ofNat b.toNat) :=
    of_decide_eq_true (List.all_eq_true.mp h b.toNat (List.mem_range.mpr b.toNat_lt))
  simpa using hb

end LexicalAnalysis
