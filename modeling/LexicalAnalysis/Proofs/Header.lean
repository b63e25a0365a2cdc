/-
# The header of a diagnostic

The bytes of an illegal token may be any, and a diagnostic names them in all its texts.  None of
these texts can be broken by them: the bytes are shown in printable ASCII, and whatever else a text
says is printable ASCII too.  So the header is set in two lines, unless the name of the source has a
newline, which is shown as it is.

* `Text.InAscii`: texts of printable ASCII, which put together are such a text again;
* `Diagnostic.inAscii_tip_iff`, `Cause.inAscii_message_iff`: what is said about bytes is printable
  ASCII exactly if the bytes are shown so;
* `Diagnostic.Headed`: a diagnostic is shown under two lines;
* `illegal_bytes_shown_in_ascii`: all of it for the diagnostic of any illegal token, whose bytes can
  be read back from it.
-/
import LexicalAnalysis.Proofs.Rows
import LexicalAnalysis.Text.Unescaped

namespace LexicalAnalysis

/-! ## 1. Printable ASCII -/

namespace Text

/-- **A text of printable ASCII**: the space to the tilde. -/
def InAscii (text : String) : Prop := ∀ c ∈ text.toList, 0x20 ≤ c.toNat ∧ c.toNat ≤ 0x7E

instance (text : String) : Decidable (InAscii text) :=
  decidable_of_iff ((text.toList.all fun c => 0x20 ≤ c.toNat && c.toNat ≤ 0x7E) = true)
    (by simp only [InAscii, List.all_eq_true, Bool.and_eq_true, decide_eq_true_eq])

theorem inAscii_append {s t : String} : InAscii (s ++ t) ↔ InAscii s ∧ InAscii t := by
  simp only [InAscii, String.toList_append, List.forall_mem_append]

theorem inAscii_repr (n : Nat) : InAscii n.repr := by
  intro c hc
  obtain ⟨hlow, hhigh⟩ := Char.isDigit_iff_toNat.mp (isDigit_of_mem_repr hc)
  exact ⟨Nat.le_trans (by decide) hlow, Nat.le_trans hhigh (by decide)⟩

theorem inAscii_escape (bytes : List UInt8) : InAscii (escape bytes) := fun _ => mem_escape

/-- A text of printable ASCII is on one line. -/
theorem InAscii.newline_not_mem {text : String} (h : InAscii text) : '\n' ∉ text.toList :=
  fun hmem => absurd (h '\n' hmem).1 (by decide)

end Text

/-! ## 2. What is said about bytes -/

namespace Cause

theorem inAscii_name (cause : Cause) : Text.InAscii cause.name := by
  cases cause <;> simp only [name] <;> decide

/-- **A message is printable ASCII** exactly if the bytes are shown so. -/
theorem inAscii_message_iff {cause : Cause} :
    Text.InAscii cause.message ↔ Text.InAscii cause.shown := by
  have hend : Text.InAscii "`" := by decide +kernel
  cases cause with
  | unrecognised piece =>
    have hstart : Text.InAscii "unrecognised token `" := by decide +kernel
    show Text.InAscii ("unrecognised token `" ++ piece ++ "`") ↔ Text.InAscii piece
    simp only [Text.inAscii_append, hstart, hend, true_and, and_true]
  | incompleteOperator piece =>
    have hstart : Text.InAscii "incomplete operator `" := by decide +kernel
    show Text.InAscii ("incomplete operator `" ++ piece ++ "`") ↔ Text.InAscii piece
    simp only [Text.inAscii_append, hstart, hend, true_and, and_true]

/-- What a cause shows of the bytes does not depend on what is wrong with them. -/
theorem shown_ofBytes (bytes : List UInt8) : (ofBytes bytes).shown = Text.escape bytes := by
  unfold ofBytes
  split <;> rfl

end Cause

namespace Diagnostic

/-- **A tip is printable ASCII** exactly if the bytes are shown so. -/
theorem inAscii_tip_iff {d : Diagnostic} : Text.InAscii d.tip ↔ Text.InAscii d.cause.shown := by
  obtain ⟨cause, position, file⟩ := d
  cases cause with
  | unrecognised piece =>
    have hstart : Text.InAscii "unexpected character '" := by decide +kernel
    have hline : Text.InAscii "' at line " := by decide +kernel
    have hcolumn : Text.InAscii ", column " := by decide +kernel
    simp only [tip, Cause.shown, Text.inAscii_append, Text.inAscii_repr, hstart, hline, hcolumn,
      true_and, and_true]
  | incompleteOperator piece =>
    have hstart : Text.InAscii "`" := by decide +kernel
    have hend : Text.InAscii "` is not an operator on its own, did you mean `!=`?" := by
      decide +kernel
    simp only [tip, Cause.shown, Text.inAscii_append, hstart, hend, true_and, and_true]

theorem ofToken?_eq_some_iff {file : String} {t : Token} {d : Diagnostic} :
    ofToken? file t = some d ↔
      t.isIllegal = true ∧ d = ⟨.ofBytes t.bytes, t.position, file⟩ := by
  rw [ofToken?]
  split
  · next hill => simp [hill, eq_comm]
  · next hill => simp [hill]

/-! ## 3. Two lines -/

/-- **A diagnostic is shown under two lines**, in any source.  They stand alone or above the
snippet. -/
structure Headed (d : Diagnostic) (first second : String) : Prop where
  first_line : '\n' ∉ first.toList
  second_line : '\n' ∉ second.toList
  alone : ∀ src, Snippet.at? src d.position.offset = none →
    d.render src = first ++ "\n" ++ (second ++ "\n")
  above : ∀ src s, Snippet.at? src d.position.offset = some s →
    d.render src = first ++ "\n" ++ (second ++ "\n") ++ s.render

/-- **A tip in printable ASCII makes a header of two lines**, if the name of the source is on
one line. -/
theorem headed {d : Diagnostic} (htip : Text.InAscii d.tip) (hfile : '\n' ∉ d.file.toList) :
    d.Headed ("Error: " ++ d.cause.name ++ " (" ++ d.tip ++ ")") ("-> " ++ d.file) := by
  have hheader : d.header = "Error: " ++ d.cause.name ++ " (" ++ d.tip ++ ")" ++ "\n" ++
      ("-> " ++ d.file ++ "\n") := by
    have hend : ")\n" = ")" ++ "\n" := rfl
    rw [header_eq, hend]
    simp only [String.append_assoc]
  have hfirst : Text.InAscii ("Error: " ++ d.cause.name ++ " (" ++ d.tip ++ ")") := by
    have hstart : Text.InAscii "Error: " := by decide +kernel
    have hopen : Text.InAscii " (" := by decide +kernel
    have hclose : Text.InAscii ")" := by decide +kernel
    simp only [Text.inAscii_append]
    exact ⟨⟨⟨⟨hstart, d.cause.inAscii_name⟩, hopen⟩, htip⟩, hclose⟩
  refine ⟨hfirst.newline_not_mem, ?_, ?_, ?_⟩
  · rw [String.toList_append, List.mem_append]
    rintro (hmem | hmem)
    · exact absurd hmem (by decide)
    · exact hfile hmem
  · intro src hnone
    rw [render, hnone, hheader]
  · intro src s hsome
    rw [render, hsome, hheader]

end Diagnostic

/-! ## 4. Any illegal token -/

/-- **Whatever the bytes of an illegal token are, its diagnostic can be shown.**  What it shows of
the bytes, its tip and its message are printable ASCII, whatever the source is called; and if the
name of the source is on one line, then the diagnostic is shown under exactly two lines.  Bytes
without a backslash can be read back from what is shown of them, so that two illegal tokens without
one that are shown alike have the same bytes. -/
theorem illegal_bytes_shown_in_ascii (t : Token) (file : String) (ht : t.isIllegal = true) :
    ∃ d, Diagnostic.ofToken? file t = some d ∧
      Text.InAscii d.cause.shown ∧ Text.InAscii d.tip ∧ Text.InAscii d.cause.message ∧
      (Text.backslash ∉ t.bytes →
        Text.unescape d.cause.shown.toList = t.bytes ∧
          ∀ (u : Token) (file' : String) (e : Diagnostic), Diagnostic.ofToken? file' u = some e →
            Text.backslash ∉ u.bytes → d.cause.shown = e.cause.shown → t.bytes = u.bytes) ∧
      ('\n' ∉ file.toList →
        d.Headed ("Error: " ++ d.cause.name ++ " (" ++ d.tip ++ ")") ("-> " ++ file)) := by
  let d : Diagnostic := ⟨.ofBytes t.bytes, t.position, file⟩
  -- the bytes are in the texts as they are shown and in no other way, so the alphabet of what is
  -- shown settles the tip and the message too
  have hshown : d.cause.shown = Text.escape t.bytes := Cause.shown_ofBytes t.bytes
  have hascii : Text.InAscii d.cause.shown := hshown ▸ Text.inAscii_escape t.bytes
  have htip : Text.InAscii d.tip := Diagnostic.inAscii_tip_iff.mpr hascii
  refine ⟨d, Diagnostic.ofToken?_eq_some_iff.mpr ⟨ht, rfl⟩, hascii, htip,
    Cause.inAscii_message_iff.mpr hascii, ?_, Diagnostic.headed htip⟩
  intro hbytes
  refine ⟨by rw [hshown, Text.unescape_escape hbytes], ?_⟩
  intro u file' e he hbytes' heq
  obtain ⟨-, rfl⟩ := Diagnostic.ofToken?_eq_some_iff.mp he
  rw [hshown, Cause.shown_ofBytes] at heq
  exact Text.escape_inj hbytes hbytes' heq

/-- A lexeme that no source has, with a NUL, a newline, half a character and the mark that it is
quoted with; the same one in another place, in a source whose name is on two lines; and what is
shown of the first one under a source that ends in front of it. -/
theorem illegal_bytes_shown_in_ascii_newline :
    let t : Token := ⟨⟨.illegal, [0x00, 0x0A, 0xC3, 0x27]⟩, ⟨8, 2, 0⟩⟩
    let u : Token := ⟨⟨.illegal, [0x00, 0x0A, 0xC3, 0x27]⟩, ⟨0, 1, 1⟩⟩
    let d : Diagnostic := ⟨.unrecognised "\\x00\\x0A\\xC3'", ⟨8, 2, 0⟩, "main.c"⟩
    let e : Diagnostic := ⟨.unrecognised "\\x00\\x0A\\xC3'", ⟨0, 1, 1⟩, "a\nb"⟩
    t.isIllegal = true ∧ Diagnostic.ofToken? "main.c" t = some d ∧
      Diagnostic.ofToken? "a\nb" u = some e ∧ Text.backslash ∉ t.bytes ∧
      Text.backslash ∉ u.bytes ∧ d.cause.shown = e.cause.shown ∧ t.bytes = u.bytes ∧
      Text.unescape d.cause.shown.toList = t.bytes ∧ Text.InAscii d.tip ∧
      '\n' ∉ "main.c".toList ∧ Snippet.at? [0x21] d.position.offset = none ∧
      d.render [0x21] = "Error: " ++ d.cause.name ++ " (" ++ d.tip ++ ")" ++ "\n" ++
        ("-> " ++ "main.c" ++ "\n") := by
  intro t u d e
  have hd : Diagnostic.ofToken? "main.c" t = some d := by decide +kernel
  have he : Diagnostic.ofToken? "a\nb" u = some e := by decide +kernel
  have hbytes : Text.backslash ∉ t.bytes := by decide
  have hfile : '\n' ∉ "main.c".toList := by decide
  have hnone : Snippet.at? [0x21] d.position.offset = none := Snippet.at?_eq_none (by decide)
  obtain ⟨d', hd', -, htip, -, hread, hheaded⟩ := illegal_bytes_shown_in_ascii t "main.c" rfl
  obtain rfl : d = d' := Option.some.inj (hd.symm.trans hd')
  obtain ⟨hread, halike⟩ := hread hbytes
  exact ⟨rfl, hd, he, hbytes, hbytes, rfl, halike u "a\nb" e he hbytes rfl, hread, htip, hfile,
    hnone, (hheaded hfile).alone _ hnone⟩

end LexicalAnalysis
