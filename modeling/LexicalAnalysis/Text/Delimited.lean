/-
# Where a part of a text ends

A text that is put together from parts can be taken apart again if every part shows where it ends:
a run of characters of one class ends at a character of another, and so do the digits of a number.
What is shown for a byte in quotation marks ends at the mark, since nothing that is shown for a
byte is the start of another such text.

* `append_cons_inj`: a run and what follows it;
* `repr_append_cons_inj`: a number and what follows it;
* `escapeByte_append_quote_inj`: a quoted byte and what follows it.
-/
import LexicalAnalysis.Text.Escaped
import Mathlib.Data.List.TakeWhile

namespace LexicalAnalysis.Text

/-- **A run ends at the first element that is not of its class.** -/
theorem append_cons_inj {α : Type} {p : α → Bool} {as bs xs ys : List α} {c d : α}
    (ha : ∀ a ∈ as, p a = true) (hb : ∀ b ∈ bs, p b = true) (hc : p c = false)
    (hd : p d = false) (h : as ++ c :: xs = bs ++ d :: ys) : as = bs ∧ c = d ∧ xs = ys := by
  have hrun : as = bs := by
    have htake := congrArg (List.takeWhile p) h
    rwa [List.takeWhile_append_of_pos ha, List.takeWhile_append_of_pos hb,
      List.takeWhile_cons_of_neg (by simp [hc]), List.takeWhile_cons_of_neg (by simp [hd]),
      List.append_nil, List.append_nil] at htake
  rw [hrun] at h
  exact ⟨hrun, List.cons.inj (List.append_cancel_left h)⟩

/-- A number is printed in digits. -/
theorem isDigit_of_mem_repr {n : Nat} {c : Char} (h : c ∈ n.repr.toList) : c.isDigit = true := by
  rw [Nat.repr_eq_ofList_toDigits, String.toList_ofList] at h
  exact Nat.isDigit_of_mem_toDigits (by decide) (by decide) h

/-- **A number ends at the first character that is no digit**, and its digits tell which one it
is. -/
theorem repr_append_cons_inj {m n : Nat} {c d : Char} {xs ys : List Char}
    (hc : c.isDigit = false) (hd : d.isDigit = false)
    (h : m.repr.toList ++ c :: xs = n.repr.toList ++ d :: ys) : m = n ∧ c = d ∧ xs = ys := by
  have hread : ∀ k : Nat, Nat.ofDigitChars 10 k.repr.toList 0 = k := by
    intro k
    rw [Nat.repr_eq_ofList_toDigits, String.toList_ofList, Nat.ofDigitChars_ten_toDigits]
  obtain ⟨hrepr, hrest⟩ :=
    append_cons_inj (fun _ => isDigit_of_mem_repr) (fun _ => isDigit_of_mem_repr) hc hd h
  exact ⟨by rw [← hread m, hrepr, hread n], hrest⟩

/-- What is shown for a byte is one character or four, of which the second is an `x`. -/
theorem escapeByte_eq (b : UInt8) :
    (∃ c, escapeByte b = [c]) ∨ ∃ high low, escapeByte b = ['\\', 'x', high, low] := by
  simp only [escapeByte]
  split
  · exact .inl ⟨_, rfl⟩
  · exact .inr ⟨_, _, rfl⟩

/-- **A quoted byte ends at the quotation mark.** -/
theorem escapeByte_append_quote_inj {a b : UInt8} {xs ys : List Char}
    (h : escapeByte a ++ '\'' :: xs = escapeByte b ++ '\'' :: ys) :
    escapeByte a = escapeByte b ∧ xs = ys := by
  rcases escapeByte_eq a with ⟨c, ha⟩ | ⟨i, j, ha⟩ <;>
    rcases escapeByte_eq b with ⟨d, hb⟩ | ⟨k, l, hb⟩ <;>
    rw [ha, hb] at h ⊢
  · obtain ⟨rfl, hrest⟩ := List.cons.inj h
    exact ⟨rfl, (List.cons.inj hrest).2⟩
  -- a mark is no `x`, so the two cannot be of different lengths
  · exact absurd (List.cons.inj (List.cons.inj h).2).1 (by decide)
  · exact absurd (List.cons.inj (List.cons.inj h).2).1 (by decide)
  · exact List.append_inj h rfl |>.imp_right fun hrest => (List.cons.inj hrest).2

end LexicalAnalysis.Text
