/-
# What quotation marks enclose

A quoted text can be read back.  Every character in quotation marks is shown in one of three ways,
as itself, by a letter or by its number; the first character after a backslash tells the second from
the third, and a brace ends the number.  So nothing that is shown for a character is the start of
what is shown for another one, and none of it starts with a quotation mark.

* `unescapeLetter?`, `readHex`: letters and numbers read back;
* `unquoteChar?_quoteChar`: a quoted character is read back, whatever follows it;
* `quote_append_inj`: a quoted text and what follows it.
-/
import LexicalAnalysis.Text.Delimited
import LexicalAnalysis.Text.Quoted

namespace LexicalAnalysis.Text

/-! ## 1. Letters and numbers -/

/-- The character that an escape of one letter stands for. -/
def unescapeLetter? : Char → Option Char
  | '0' => some '\x00'
  | 't' => some '\t'
  | 'r' => some '\r'
  | 'n' => some '\n'
  | '\"' => some '\"'
  | '\\' => some '\\'
  | _ => none

theorem unescapeLetter?_of_escapeLetter? {c letter : Char} (h : escapeLetter? c = some letter) :
    unescapeLetter? letter = some c := by
  unfold escapeLetter? at h
  split at h <;> first | (cases h; rfl) | cases h

/-- The value of a lower-case hexadecimal digit. -/
def hexValue (c : Char) : Nat := if c.isDigit then c.toNat - 0x30 else c.toNat - 0x57

/-- The number with the given hexadecimal digits. -/
def readHex (cs : List Char) : Nat := cs.foldl (fun n c => 16 * n + hexValue c) 0

theorem hexValue_digitChar : ∀ n < 16, hexValue n.digitChar = n := by decide

theorem readHex_append_singleton (cs : List Char) (c : Char) :
    readHex (cs ++ [c]) = 16 * readHex cs + hexValue c := by
  unfold readHex
  rw [List.foldl_append]
  rfl

/-- A number is read back from its digits. -/
theorem readHex_toDigits (n : Nat) : readHex (Nat.toDigits 16 n) = n := by
  induction n using Nat.strongRecOn with
  | ind n ih =>
    rw [Nat.toDigits_eq_if (by decide)]
    split
    · next hlt =>
      rw [readHex, List.foldl_cons, List.foldl_nil, hexValue_digitChar n hlt]
      omega
    · next hge =>
      rw [readHex_append_singleton, ih (n / 16) (by omega),
        hexValue_digitChar (n % 16) (by omega)]
      omega

theorem digitChar_ne_brace : ∀ n < 16, (n.digitChar != '}') = true := by decide

/-- No digit is taken for the brace that ends them. -/
theorem ne_brace_of_mem_toDigits (n : Nat) : ∀ c ∈ Nat.toDigits 16 n, (c != '}') = true := by
  induction n using Nat.strongRecOn with
  | ind n ih =>
    rw [Nat.toDigits_eq_if (by decide)]
    split
    · next hlt =>
      intro c hc
      obtain rfl := List.mem_singleton.mp hc
      exact digitChar_ne_brace n hlt
    · next hge =>
      intro c hc
      rcases List.mem_append.mp hc with hc | hc
      · exact ih (n / 16) (by omega) c hc
      · obtain rfl := List.mem_singleton.mp hc
        exact digitChar_ne_brace (n % 16) (by omega)

/-! ## 2. Quoted characters -/

/-- **The three ways to show a character**: by a letter, as itself, and by its number. -/
theorem quoteChar_eq (c : Char) :
    (∃ letter, unescapeLetter? letter = some c ∧ quoteChar c = ['\\', letter]) ∨
      (c ≠ '\\' ∧ c ≠ '\"' ∧ quoteChar c = [c]) ∨
      quoteChar c = '\\' :: 'u' :: '{' :: (Nat.toDigits 16 c.toNat ++ ['}']) := by
  unfold quoteChar
  cases hletter : escapeLetter? c with
  | some letter => exact .inl ⟨letter, unescapeLetter?_of_escapeLetter? hletter, rfl⟩
  | none =>
    cases hlegible : isLegible c with
    | true =>
      refine .inr (.inl ⟨?_, ?_, rfl⟩)
      · rintro rfl
        cases hletter
      · rintro rfl
        cases hletter
    | false => exact .inr (.inr rfl)

/-- The character that is shown at the front of a quoted text, and what follows it. -/
def unquoteChar? : List Char → Option (Char × List Char)
  | '\\' :: 'u' :: '{' :: cs =>
    some (Char.ofNat (readHex (cs.takeWhile (· != '}'))), (cs.dropWhile (· != '}')).tail)
  | '\\' :: letter :: cs => (unescapeLetter? letter).map fun c => (c, cs)
  | c :: cs => some (c, cs)
  | [] => none

/-- **A quoted character is read back**, whatever follows it. -/
theorem unquoteChar?_quoteChar (c : Char) (xs : List Char) :
    unquoteChar? (quoteChar c ++ xs) = some (c, xs) := by
  rcases quoteChar_eq c with ⟨letter, hletter, hc⟩ | ⟨hback, -, hc⟩ | hc
  · -- the letter is none that starts a number
    have hu : letter ≠ 'u' := by
      rintro rfl
      cases hletter
    rw [hc]
    simp [unquoteChar?, hu, hletter]
  · rw [hc]
    simp [unquoteChar?, hback]
  · have hdigits := ne_brace_of_mem_toDigits c.toNat
    rw [hc]
    simp only [List.cons_append, List.append_assoc, List.nil_append, unquoteChar?]
    rw [List.takeWhile_append_of_pos hdigits, List.dropWhile_append_of_pos hdigits,
      List.takeWhile_cons_of_neg (by decide), List.dropWhile_cons_of_neg (by decide),
      List.append_nil, readHex_toDigits, Char.ofNat_toNat]
    rfl

theorem quoteChar_append_inj {c d : Char} {xs ys : List Char}
    (h : quoteChar c ++ xs = quoteChar d ++ ys) : c = d ∧ xs = ys := by
  have hread := congrArg unquoteChar? h
  rw [unquoteChar?_quoteChar, unquoteChar?_quoteChar] at hread
  exact Prod.mk.inj (Option.some.inj hread)

/-- What is shown for a character does not start with a quotation mark. -/
theorem quoteChar_append_ne (c : Char) (xs ys : List Char) : quoteChar c ++ xs ≠ '\"' :: ys := by
  rcases quoteChar_eq c with ⟨letter, -, hc⟩ | ⟨-, hquote, hc⟩ | hc <;> rw [hc] <;> intro h
  · exact absurd (List.cons.inj h).1 (by decide)
  · exact hquote (List.cons.inj h).1
  · exact absurd (List.cons.inj h).1 (by decide)

/-! ## 3. Quoted texts -/

/-- **A text ends at the quotation mark.** -/
theorem flatMap_quoteChar_append_inj {cs ds xs ys : List Char}
    (h : cs.flatMap quoteChar ++ '\"' :: xs = ds.flatMap quoteChar ++ '\"' :: ys) :
    cs = ds ∧ xs = ys := by
  induction cs generalizing ds with
  | nil =>
    cases ds with
    | nil => exact ⟨rfl, (List.cons.inj h).2⟩
    | cons d ds =>
      rw [List.flatMap_cons, List.append_assoc] at h
      exact absurd h.symm (quoteChar_append_ne d _ _)
  | cons c cs ih =>
    cases ds with
    | nil =>
      rw [List.flatMap_cons, List.append_assoc] at h
      exact absurd h (quoteChar_append_ne c _ _)
    | cons d ds =>
      rw [List.flatMap_cons, List.flatMap_cons, List.append_assoc, List.append_assoc] at h
      obtain ⟨rfl, hrest⟩ := quoteChar_append_inj h
      obtain ⟨rfl, hxs⟩ := ih hrest
      exact ⟨rfl, hxs⟩

/-- **A quoted text tells which text it is, and where it ends.** -/
theorem quote_append_inj {s t : String} {xs ys : List Char}
    (h : (quote s).toList ++ xs = (quote t).toList ++ ys) : s = t ∧ xs = ys := by
  simp only [quote, String.toList_ofList, List.cons_append, List.append_assoc,
    List.nil_append] at h
  obtain ⟨htext, hrest⟩ := flatMap_quoteChar_append_inj (List.cons.inj h).2
  exact ⟨String.toList_inj.mp htext, hrest⟩

end LexicalAnalysis.Text
