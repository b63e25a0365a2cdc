/-
# What is printed for a diagnostic

Below the header of a diagnostic stands its snippet, if its offset has a line.  All of it is printed
or nothing is: there is no print where the caret's row is wider than the widest field.

* `Diagnostic.Shows`: the text of a diagnostic that has a snippet;
* `Diagnostic.print?_eq_some_iff`, `Diagnostic.print?_eq_none_iff`: what is printed, and when;
* `Diagnostic.Prints`: such a text, printed.
-/
import LexicalAnalysis.Snippet

namespace LexicalAnalysis

theorem Snippet.at?_of_find? {src : List UInt8} {offset : Nat} {line : Line}
    (h : Line.find? src offset = some line) :
    Snippet.at? src offset = some (Snippet.ofLine src offset line) := by
  rw [Snippet.at?, h, Option.map_some]

namespace Diagnostic

/-! ## 1. The text -/

/-- **A diagnostic is shown with a snippet**: under its header stand the bar alone, the line with
its number before the bar, and the caret behind its dashes. -/
def Shows (d : Diagnostic) (src : List UInt8) (s : Snippet) : Prop :=
  (d.render src).toList =
    d.header.toList ++ (s.gutter ++ ['\n']) ++
      (s.number.repr.toList ++ [' ', '|', ' '] ++ s.shown ++ ['\n']) ++
      (s.gutter ++ [' '] ++ List.replicate s.dashes '-' ++ ['^'])

/-- A diagnostic whose offset has a line is shown with the snippet of that line. -/
theorem shows_of_find? {d : Diagnostic} {src : List UInt8} {line : Line}
    (h : Line.find? src d.position.offset = some line) :
    d.Shows src (Snippet.ofLine src d.position.offset line) := by
  simp only [Shows, render, Snippet.at?_of_find? h, Snippet.render, String.toList_append,
    String.toList_ofList, List.append_assoc]

/-! ## 2. The print -/

/-- **What is printed is the text**, and it is printed if its caret fits. -/
theorem print?_eq_some_iff {d : Diagnostic} {src : List UInt8} {text : String} :
    d.print? src = some text ↔ text = d.render src ∧
      ∀ s, Snippet.at? src d.position.offset = some s → s.caretWidth ≤ widestField := by
  rw [print?, render]
  cases Snippet.at? src d.position.offset with
  | none => simp [eq_comm]
  | some s => simp [eq_comm, and_comm]

/-- **Nothing is printed exactly if the caret does not fit.** -/
theorem print?_eq_none_iff {d : Diagnostic} {src : List UInt8} :
    d.print? src = none ↔
      ∃ s, Snippet.at? src d.position.offset = some s ∧ widestField < s.caretWidth := by
  rw [print?]
  cases Snippet.at? src d.position.offset with
  | none => simp
  | some s => simp

/-- **A diagnostic is printed with a snippet**: its text is, and shows the snippet. -/
structure Prints (d : Diagnostic) (src : List UInt8) (s : Snippet) : Prop where
  print?_eq : d.print? src = some (d.render src)
  shows : d.Shows src s

/-- A diagnostic whose offset has a line is printed with the snippet of that line, if it fits. -/
theorem prints_of_find? {d : Diagnostic} {src : List UInt8} {line : Line}
    (h : Line.find? src d.position.offset = some line)
    (hw : (Snippet.ofLine src d.position.offset line).caretWidth ≤ widestField) :
    d.Prints src (Snippet.ofLine src d.position.offset line) where
  print?_eq := by
    refine print?_eq_some_iff.mpr ⟨rfl, fun s hs => ?_⟩
    obtain rfl := Option.some.inj ((Snippet.at?_of_find? h).symm.trans hs)
    exact hw
  shows := shows_of_find? h

/-- What is not printed at all is not printed with a snippet. -/
theorem not_prints_of_print?_eq_none {d : Diagnostic} {src : List UInt8} (h : d.print? src = none)
    (s : Snippet) : ¬ d.Prints src s := by
  intro hp
  rw [hp.print?_eq] at h
  cases h

end Diagnostic

end LexicalAnalysis
