/-
# White space

The white space of text, which is cut off at the end of a line that is shown.

* `exists_eq_trimEnd_append`: nothing but white space is cut off;
* `trimEnd_append`: and white space at the end makes no difference;
* `getElem?_trimEnd`: a character of another class keeps all in front of it.
-/
import LexicalAnalysis.Text.CharRange

namespace LexicalAnalysis.Text

/-- The characters with the property White_Space. -/
def whiteSpace : List CharRange :=
  [⟨0x09, 0x0D⟩, ⟨0x20, 0x20⟩, ⟨0x85, 0x85⟩, ⟨0xA0, 0xA0⟩, ⟨0x1680, 0x1680⟩,
   ⟨0x2000, 0x200A⟩, ⟨0x2028, 0x2029⟩, ⟨0x202F, 0x202F⟩, ⟨0x205F, 0x205F⟩, ⟨0x3000, 0x3000⟩]

def isWhiteSpace (c : Char) : Bool := CharRange.covers whiteSpace c

/-- A text without the white space at its end. -/
def trimEnd (cs : List Char) : List Char := (cs.reverse.dropWhile isWhiteSpace).reverse

/-- What is cut off is white space. -/
theorem exists_eq_trimEnd_append (cs : List Char) :
    ∃ cut : List Char, cs = trimEnd cs ++ cut ∧ ∀ c ∈ cut, isWhiteSpace c = true := by
  refine ⟨(cs.reverse.takeWhile isWhiteSpace).reverse, ?_, ?_⟩
  · rw [trimEnd, ← List.reverse_append, List.takeWhile_append_dropWhile, List.reverse_reverse]
  · intro c hc
    exact List.all_eq_true.mp List.all_takeWhile c (List.mem_reverse.mp hc)

/-- White space that is added at the end is cut off again. -/
theorem trimEnd_append {cs cut : List Char} (h : ∀ c ∈ cut, isWhiteSpace c = true) :
    trimEnd (cs ++ cut) = trimEnd cs := by
  have hcut : ∀ c ∈ cut.reverse, isWhiteSpace c = true :=
    fun c hc => h c (List.mem_reverse.mp hc)
  rw [trimEnd, List.reverse_append, List.dropWhile_append_of_pos hcut, trimEnd]

theorem length_trimEnd_le (cs : List Char) : (trimEnd cs).length ≤ cs.length := by
  obtain ⟨cut, hcs, -⟩ := exists_eq_trimEnd_append cs
  have hlen := congrArg List.length hcs
  rw [List.length_append] at hlen
  omega

/-- A character that is not white space keeps all in front of it, and itself, from being cut. -/
theorem getElem?_trimEnd {cs rest : List Char} {c : Char}
    (h : ∃ d ∈ c :: rest, isWhiteSpace d = false) :
    (trimEnd (cs ++ c :: rest))[cs.length]? = some c := by
  obtain ⟨cut, hcut, hwhite⟩ := exists_eq_trimEnd_append (cs ++ c :: rest)
  rcases Nat.lt_or_ge cs.length (trimEnd (cs ++ c :: rest)).length with hlt | hge
  · have hleft : (trimEnd (cs ++ c :: rest) ++ cut)[cs.length]? =
        (trimEnd (cs ++ c :: rest))[cs.length]? := List.getElem?_append_left hlt
    rw [← hleft, ← hcut]
    simp
  · obtain ⟨d, hd, hblack⟩ := h
    -- otherwise all from `c` on would be part of what is cut off
    have hdrop := congrArg (List.drop cs.length) hcut
    rw [List.drop_left, List.drop_append, List.drop_of_length_le hge, List.nil_append] at hdrop
    rw [hdrop] at hd
    rw [hwhite d (List.mem_of_mem_drop hd)] at hblack
    cases hblack

end LexicalAnalysis.Text
