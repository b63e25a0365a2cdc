/-
# The lines of a source, one after the other

Whoever asks for the line at the start of a source, and then behind each newline, gets every line
once.  The lines are read as text one by one, and still their texts are the text of the source: a
newline is a character of its own, so a character that breaks off at the end of a line breaks off
there in the source too.

* `lineStarts`: the offsets where to ask;
* `Line.findFrom?_numbered`: what the line finder says where a line starts;
* `map_start_numbered`: the lines start at these offsets;
* `flatMap_chars_splitLines`: their characters are those of the source;
* `lines_tile`: all of this for the lines that the finder gives.

The inductions are over the lines of a text (`lines_induction`), and over the lines that the finder
walks.
-/
import LexicalAnalysis.Proofs.Line
import LexicalAnalysis.Text.Utf8.Segments

namespace LexicalAnalysis

/-! ## 1. Where lines start -/

/-- Where the lines of a source start: at its start, and behind every newline that is not its last
byte. -/
def lineStarts (src : List UInt8) : List Nat := 0 :: src.dropLast.idxsOf newline 1

namespace Line

/-- The lines with the given bytes, if the first of them has the given number and start. -/
def numbered (number start : Nat) : List (List UInt8) → List Line
  | [] => []
  | bytes :: more => ⟨number, start, bytes⟩ :: numbered (number + 1) (start + bytes.length) more

theorem map_number_numbered (number start : Nat) (lines : List (List UInt8)) :
    (numbered number start lines).map (·.number) = List.range' number lines.length := by
  induction lines generalizing number start with
  | nil => rfl
  | cons bytes more ih => rw [numbered, List.map_cons, ih, List.length_cons, List.range'_succ]

@[simp] theorem map_bytes_numbered (number start : Nat) (lines : List (List UInt8)) :
    (numbered number start lines).map (·.bytes) = lines := by
  induction lines generalizing number start with
  | nil => rfl
  | cons bytes more ih => rw [numbered, List.map_cons, ih]

@[simp] theorem length_numbered (number start : Nat) (lines : List (List UInt8)) :
    (numbered number start lines).length = lines.length := by
  rw [← List.length_map (·.bytes), map_bytes_numbered]

theorem flatMap_text_numbered (number start : Nat) (lines : List (List UInt8)) :
    ((numbered number start lines).flatMap fun line => line.text.toList) =
      lines.flatMap Utf8.chars := by
  induction lines generalizing number start with
  | nil => rfl
  | cons bytes more ih => rw [numbered, List.flatMap_cons, ih, toList_text, List.flatMap_cons]

theorem le_start_of_mem_numbered {number start : Nat} {lines : List (List UInt8)} {line : Line}
    (h : line ∈ numbered number start lines) : start ≤ line.start := by
  induction lines generalizing number start with
  | nil => cases h
  | cons bytes more ih =>
    rcases List.mem_cons.mp h with rfl | h
    · exact Nat.le_refl _
    · exact Nat.le_trans (Nat.le_add_right _ _) (ih h)

/-- **Where a line starts, the walk over the lines ends at it.** -/
theorem findFrom?_numbered {number start : Nat} {lines : List (List UInt8)}
    (hne : ∀ bytes ∈ lines, bytes ≠ []) {line : Line} (h : line ∈ numbered number start lines) :
    findFrom? line.start number start lines = some line := by
  induction lines generalizing number start with
  | nil => cases h
  | cons bytes more ih =>
    rw [findFrom?]
    rcases List.mem_cons.mp h with rfl | h
    · have hpos : 0 < bytes.length := List.length_pos_iff.mpr (hne bytes (by simp))
      rw [if_pos (Nat.lt_add_of_pos_right hpos)]
    · have hle := le_start_of_mem_numbered h
      rw [if_neg (Nat.not_lt.mpr hle)]
      exact ih (fun bytes hbytes => hne bytes (List.mem_cons_of_mem _ hbytes)) h

/-- A line of a source is what is found at its start, and starts there. -/
theorem find?_of_mem_numbered {src : List UInt8} {line : Line}
    (h : line ∈ numbered 1 0 (splitLines src)) :
    find? src line.start = some line ∧ line.indexOf line.start = 0 := by
  constructor
  · refine findFrom?_numbered ?_ h
    intro bytes hbytes
    exact List.ne_nil_of_mem_splitBy hbytes
  · exact Nat.sub_self _

end Line

theorem idxsOf_newline_of_not_mem {bytes : List UInt8} {start : Nat} (h : newline ∉ bytes) :
    bytes.idxsOf newline start = [] := by
  rw [List.idxsOf_eq_nil_iff]
  intro b hb
  rw [beq_eq_false_iff_ne]
  rintro rfl
  exact h hb

/-- **The lines of a text start at its start and behind the newlines in it**, except for one that
ends the text. -/
theorem map_start_numbered {bytes : List UInt8} (hne : bytes ≠ []) (number start : Nat) :
    (Line.numbered number start (splitLines bytes)).map (·.start) =
      start :: bytes.dropLast.idxsOf newline (start + 1) := by
  induction bytes using lines_induction generalizing number start with
  | last body hbody =>
    have hnone : newline ∉ body.dropLast := fun hmem => hbody (List.dropLast_subset body hmem)
    rw [splitLines_of_not_mem hbody hne, idxsOf_newline_of_not_mem hnone]
    rfl
  | line body rest hbody ih =>
    have hnone : body.idxsOf newline (start + 1) = [] := idxsOf_newline_of_not_mem hbody
    rw [splitLines_append_newline_cons hbody, Line.numbered, List.map_cons]
    by_cases hrest : rest = []
    · subst hrest
      rw [List.dropLast_concat, hnone]
      rfl
    · have hstart : start + (body ++ [newline]).length = start + 1 + body.length := by
        rw [List.length_append, List.length_singleton]
        omega
      rw [ih hrest, List.dropLast_append_of_ne_nil (List.cons_ne_nil _ _),
        List.dropLast_cons_of_ne_nil hrest, List.idxsOf_append, hnone, List.nil_append,
        List.idxsOf_cons, if_pos (beq_self_eq_true _), hstart]

/-! ## 2. What lines are made of -/

/-- Every line but the last ends with its only newline. -/
theorem exists_body_of_mem_dropLast {src line : List UInt8}
    (h : line ∈ (splitLines src).dropLast) :
    ∃ body, line = body ++ [newline] ∧ newline ∉ body := by
  induction src using lines_induction with
  | last body hbody =>
    by_cases hne : body = []
    · subst hne
      cases h
    · rw [splitLines_of_not_mem hbody hne] at h
      cases h
  | line body rest hbody ih =>
    rw [splitLines_append_newline_cons hbody] at h
    by_cases hrest : splitLines rest = []
    · rw [hrest] at h
      cases h
    · rw [List.dropLast_cons_of_ne_nil hrest] at h
      rcases List.mem_cons.mp h with rfl | h
      · exact ⟨body, rfl, hbody⟩
      · exact ih h

/-- **The characters of the lines are those of the source.**  A newline cuts what is read on both
sides of it. -/
theorem flatMap_chars_splitLines (src : List UInt8) :
    (splitLines src).flatMap Utf8.chars = Utf8.chars src := by
  induction src using lines_induction with
  | last body hbody =>
    by_cases hne : body = []
    · subst hne
      rfl
    · rw [splitLines_of_not_mem hbody hne, List.flatMap_singleton]
  | line body rest hbody ih =>
    have hline : Utf8.chars (body ++ [newline]) = Utf8.chars body ++ ['\n'] :=
      Utf8.chars_append_cons_of_lt (by decide) body []
    have hwhole : Utf8.chars (body ++ newline :: rest) =
        Utf8.chars body ++ '\n' :: Utf8.chars rest :=
      Utf8.chars_append_cons_of_lt (by decide) body rest
    rw [splitLines_append_newline_cons hbody, List.flatMap_cons, ih, hline, hwhole,
      List.append_assoc, List.singleton_append]

theorem Utf8.newline_not_mem_chars {bytes : List UInt8} (h : newline ∉ bytes) :
    '\n' ∉ chars bytes :=
  fun hmem => h (mem_of_mem_chars hmem (by decide))

/-! ## 3. All lines -/

/-- **The lines tile the source.**  The line finder, asked at the start of a source that has a byte
and behind each newline that is not the last one, gives lines that start where it was asked; they
have the numbers from 1 on; the text of every line but the last ends with a newline and has no
other; and the texts, one behind the other, are the text of the source. -/
theorem lines_tile (src : List UInt8) (hne : src ≠ []) :
    ∃ lines : List Line,
      List.Forall₂ (fun offset line =>
        Line.find? src offset = some line ∧ line.indexOf offset = 0) (lineStarts src) lines ∧
      lines.map (·.number) = List.range' 1 lines.length ∧
      (∀ line ∈ lines.dropLast, ∃ body, line.text.toList = body ++ ['\n'] ∧ '\n' ∉ body) ∧
      String.join (lines.map Line.text) = Utf8.decode src := by
  refine ⟨Line.numbered 1 0 (splitLines src), ?_, ?_, ?_, ?_⟩
  · rw [lineStarts, ← map_start_numbered hne 1 0, List.forall₂_map_left_iff, List.forall₂_same]
    intro line hline
    exact Line.find?_of_mem_numbered hline
  · rw [Line.map_number_numbered, Line.length_numbered]
  · intro line hline
    have hmem : line.bytes ∈ (splitLines src).dropLast := by
      rw [← Line.map_bytes_numbered 1 0 (splitLines src), ← List.map_dropLast]
      exact List.mem_map_of_mem hline
    obtain ⟨body, hbytes, hbody⟩ := exists_body_of_mem_dropLast hmem
    refine ⟨Utf8.chars body, ?_, Utf8.newline_not_mem_chars hbody⟩
    rw [Line.toList_text, hbytes]
    exact Utf8.chars_append_cons_of_lt (by decide) body []
  · rw [← String.toList_inj, String.toList_join, List.flatMap_map, Line.flatMap_text_numbered,
      flatMap_chars_splitLines, Utf8.decode, String.toList_ofList]

/-- A character that breaks off at the end of a line, a line that is empty, and one that goes on
with a byte which would have continued that character. -/
theorem lines_tile_broken :
    let src : List UInt8 := [0xC3, 0x0A, 0x0A, 0xA9]
    src ≠ [] ∧ lineStarts src = [0, 2, 3] ∧ ∃ lines : List Line,
      List.Forall₂ (fun offset line =>
        Line.find? src offset = some line ∧ line.indexOf offset = 0) [0, 2, 3] lines ∧
      lines.map (·.number) = [1, 2, 3] ∧
      String.join (lines.map Line.text) = Utf8.decode src := by
  obtain ⟨lines, hfind, hnumber, -, hjoin⟩ := lines_tile [0xC3, 0x0A, 0x0A, 0xA9] (by decide)
  have hlength : lines.length = 3 := hfind.length_eq.symm
  rw [hlength] at hnumber
  exact ⟨by decide, by decide, lines, hfind, hnumber, hjoin⟩

end LexicalAnalysis
