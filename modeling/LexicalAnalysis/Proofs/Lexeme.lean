/-
# What legal lexemes are made of

Facts about the grammar alone, which no scanner enters into:

* `Legal.isBlank_eq_false`: no blank stands in a legal lexeme, so none of them ends a line;
* `joins_of_isBlank`: no lexeme goes on in a blank, so that a gap always separates;
* `Legal.kind_eq`: the bytes decide the kind.

The last one is read off the scanner's law `first_append`: a legal lexeme on its own is what is
read there, and one lexeme only is read.  Section 4 makes legality something that can be computed.
-/
import LexicalAnalysis.Grammar.Munch

namespace LexicalAnalysis

/-! ## 1. Blanks against the other classes -/

theorem isWordByte_eq_false_of_isBlank {b : UInt8} (h : isBlank b = true) :
    isWordByte b = false := by
  cases hw : isWordByte b with
  | false => rfl
  | true => rw [isBlank_eq_false_of_isWordByte b hw] at h; cases h

theorem isWordByte_of_isDigit {b : UInt8} (h : isDigit b = true) : isWordByte b = true := by
  simp [isWordByte, h]

theorem isDigit_eq_false_of_isBlank {b : UInt8} (h : isBlank b = true) : isDigit b = false := by
  have hw := isWordByte_eq_false_of_isBlank h
  simp only [isWordByte, Bool.or_eq_false_iff] at hw
  exact hw.2

theorem isBlank_newline : isBlank newline = true := by decide

/-- A stray byte stands in no gap. -/
theorem isBlank_eq_false_of_stray :
    ∀ b : UInt8, (b = exclamation ∨ isAlphabetic b = false) → isBlank b = false :=
  forall_byte (by decide +kernel)

theorem isBlank_eq_false_of_mem_operator (o : Operator) {b : UInt8} (hb : b ∈ o.lexeme) :
    isBlank b = false := by
  have hall : o.lexeme.all (fun b => !isBlank b) = true := by cases o <;> decide
  simpa using List.all_eq_true.mp hall b hb

theorem isBlank_eq_false_of_mem_delimiter (d : Delimiter) {b : UInt8} (hb : b ∈ d.lexeme) :
    isBlank b = false := by
  have hall : d.lexeme.all (fun b => !isBlank b) = true := by cases d <;> decide
  simpa using List.all_eq_true.mp hall b hb

theorem IsWord.isWordByte {bytes : List UInt8} (h : IsWord bytes) :
    ∀ b ∈ bytes, isWordByte b = true := by
  cases bytes with
  | nil => exact h.elim
  | cons b bs =>
    intro c hc
    rcases List.mem_cons.mp hc with rfl | hc
    · simp [LexicalAnalysis.isWordByte, h.1]
    · exact h.2 c hc

theorem IsWord.ne_nil {bytes : List UInt8} (h : IsWord bytes) : bytes ≠ [] := by
  rintro rfl
  exact h

namespace Lexeme

/-! ## 2. Legal lexemes -/

/-- **No blank stands in a legal lexeme.** -/
theorem Legal.isBlank_eq_false {x : Lexeme} (h : x.Legal) : ∀ b ∈ x.bytes, isBlank b = false := by
  obtain ⟨kind, bytes⟩ := x
  intro b hb
  cases kind with
  | illegal =>
    obtain ⟨c, hc, hs⟩ := h
    have hbc : b = c := by simpa [show bytes = [c] from hc] using hb
    exact isBlank_eq_false_of_stray b (hbc ▸ hs)
  | endOfFile => exact h.elim
  | integerLiteral => exact isBlank_eq_false_of_isWordByte b (isWordByte_of_isDigit (h.2 b hb))
  | identifier => exact isBlank_eq_false_of_isWordByte b (h.1.isWordByte b hb)
  | keyword k =>
    obtain rfl : bytes = k.lexeme := h
    exact isBlank_eq_false_of_isWordByte b ((isWord_lexeme k).isWordByte b hb)
  | operator o =>
    obtain rfl : bytes = o.lexeme := h
    exact isBlank_eq_false_of_mem_operator o hb
  | delimiter d =>
    obtain rfl : bytes = d.lexeme := h
    exact isBlank_eq_false_of_mem_delimiter d hb

/-- No lexeme ends a line. -/
theorem Legal.newline_not_mem {x : Lexeme} (h : x.Legal) : newline ∉ x.bytes := by
  intro hn
  have hb := h.isBlank_eq_false newline hn
  rw [isBlank_newline] at hb
  cases hb

theorem Legal.bytes_ne_nil {x : Lexeme} (h : x.Legal) : x.bytes ≠ [] := by
  obtain ⟨kind, bytes⟩ := x
  cases kind with
  | illegal =>
    obtain ⟨c, hc, -⟩ := h
    simp [show bytes = [c] from hc]
  | endOfFile => exact h.elim
  | integerLiteral => exact h.1
  | identifier => exact h.1.ne_nil
  | keyword k => exact h ▸ (isWord_lexeme k).ne_nil
  | operator o =>
    obtain rfl : bytes = o.lexeme := h
    cases o <;> decide
  | delimiter d =>
    obtain rfl : bytes = d.lexeme := h
    cases d <;> decide

theorem Legal.exists_cons {x : Lexeme} (h : x.Legal) :
    ∃ b bs, x.bytes = b :: bs ∧ isBlank b = false := by
  obtain ⟨b, bs, hb⟩ := List.exists_cons_of_ne_nil h.bytes_ne_nil
  exact ⟨b, bs, hb, h.isBlank_eq_false b (by simp [hb])⟩

theorem Legal.kind_ne_endOfFile {x : Lexeme} (h : x.Legal) : x.kind ≠ .endOfFile := by
  intro hk
  simp [Legal, hk] at h

/-- **The bytes of a lexeme decide its kind.** -/
theorem Legal.kind_eq {k l : Kind} {bytes : List UInt8} (hk : Legal ⟨k, bytes⟩)
    (hl : Legal ⟨l, bytes⟩) : k = l := by
  obtain ⟨b, bs, hb, -⟩ := hk.exists_cons
  have hread : ∀ m, Legal ⟨m, bytes⟩ → first b (bs ++ []) = ⟨m, bytes⟩ := fun m hm =>
    first_append hm hb (by simp)
  have hkl : (⟨k, bytes⟩ : Lexeme) = ⟨l, bytes⟩ := (hread k hk).symm.trans (hread l hl)
  exact congrArg kind hkl

/-! ## 3. Where a lexeme ends -/

theorem equals_not_isBlank : isBlank equals = false := by decide

/-- **No lexeme goes on in a blank.** -/
theorem joins_of_isBlank {x : Lexeme} {c : UInt8} (h : isBlank c = true) : x.joins c = false := by
  have he : (c == equals) = false := by
    rw [beq_eq_false_iff_ne]
    rintro rfl
    rw [equals_not_isBlank] at h
    cases h
  have hw := isWordByte_eq_false_of_isBlank h
  have hd := isDigit_eq_false_of_isBlank h
  obtain ⟨kind, bytes⟩ := x
  cases kind <;> simp [joins, he, hw, hd]

end Lexeme

/-! ## 4. Legality can be decided -/

/-- What is claimed of every keyword is settled by trying them. -/
instance decidableForallKeyword {p : Keyword → Prop} [DecidablePred p] : Decidable (∀ k, p k) :=
  decidable_of_iff ((Keyword.all.all fun k => decide (p k)) = true)
    ⟨fun h k => of_decide_eq_true (List.all_eq_true.mp h k (Keyword.mem_all k)),
      fun h => List.all_eq_true.mpr fun k _ => decide_eq_true (h k)⟩

instance decidableIsWord : DecidablePred IsWord
  | [] => .isFalse id
  | b :: bs =>
    decidable_of_iff (isLetter b = true ∧ bs.all isWordByte = true)
      (and_congr_right' List.all_eq_true)

instance decidableIsNumber : DecidablePred IsNumber := fun bytes =>
  decidable_of_iff (bytes ≠ [] ∧ bytes.all isDigit = true) (and_congr_right' List.all_eq_true)

instance Lexeme.decidableLegal : DecidablePred Lexeme.Legal
  | ⟨.illegal, []⟩ => .isFalse fun ⟨_, h, _⟩ => absurd h (List.cons_ne_nil _ _).symm
  | ⟨.illegal, [b]⟩ =>
    decidable_of_iff (b = exclamation ∨ isAlphabetic b = false)
      ⟨fun h => ⟨b, rfl, h⟩, fun ⟨_, hc, h⟩ => (List.cons.inj hc).1 ▸ h⟩
  | ⟨.illegal, _ :: _ :: _⟩ =>
    .isFalse fun ⟨_, h, _⟩ => absurd (List.cons.inj h).2 (List.cons_ne_nil _ _)
  | ⟨.endOfFile, _⟩ => .isFalse id
  | ⟨.integerLiteral, bytes⟩ => inferInstanceAs (Decidable (IsNumber bytes))
  | ⟨.identifier, bytes⟩ =>
    inferInstanceAs (Decidable (IsWord bytes ∧ ∀ k : Keyword, k.lexeme ≠ bytes))
  | ⟨.keyword k, bytes⟩ => inferInstanceAs (Decidable (bytes = k.lexeme))
  | ⟨.operator o, bytes⟩ => inferInstanceAs (Decidable (bytes = o.lexeme))
  | ⟨.delimiter d, bytes⟩ => inferInstanceAs (Decidable (bytes = d.lexeme))

end LexicalAnalysis
