/-
# No two diagnostics look alike

What is printed for a diagnostic is put together from its texts, among them the name of the source,
which may hold anything.  Still no two diagnostics of a check are printed alike, neither on one line
nor in the source, and for different reasons.

* The line and the column tell a place, and they can be read off what is printed: the name of the
  source is the same for all, and behind it a number ends where its digits do.
* What is printed for half an operator in the source names no column.  If two of them have one line
  number, then the caret of the second one stands further to the right: the exclamation mark of the
  first one is a character of its own, whatever stands around it.

So `display_ne` and `render_ne` tell any two illegal tokens apart, and `diagnostics_look_different`
says it of a check.
-/
import LexicalAnalysis.Proofs.Snippet

namespace LexicalAnalysis

/-! ## 1. Places -/

namespace Position

/-- **Line and column tell a place.**  Reading on goes down a line or to the right. -/
theorem eq_nil_of_same_place {read bytes : List UInt8} (h : Fits (read ++ bytes))
    (hline : (after read).line = (after (read ++ bytes)).line)
    (hcolumn : (after read).column = (after (read ++ bytes)).column) : bytes = [] := by
  rcases line_lt_or_column_eq h with hlt | ⟨-, heq⟩
  · rw [hline] at hlt
    exact absurd hlt (UInt32.lt_irrefl _)
  · rw [hcolumn] at heq
    exact List.eq_nil_of_length_eq_zero (by omega)

/-- A place can be read off a text that starts with it. -/
theorem display_append_inj {p q : Position} {c d : Char} {xs ys : List Char}
    (hc : c.isDigit = false) (hd : d.isDigit = false)
    (h : p.display.toList ++ c :: xs = q.display.toList ++ d :: ys) :
    p.line = q.line ∧ p.column = q.column := by
  have hcolon : ":".toList = [':'] := rfl
  simp only [display, String.toList_append, hcolon, List.append_assoc, List.cons_append,
    List.nil_append] at h
  obtain ⟨hline, -, hrest⟩ := Text.repr_append_cons_inj (by decide) (by decide) h
  obtain ⟨hcolumn, -, -⟩ := Text.repr_append_cons_inj hc hd hrest
  exact ⟨UInt32.toNat_inj.mp hline, UInt32.toNat_inj.mp hcolumn⟩

end Position

/-! ## 2. What is printed -/

namespace Diagnostic

theorem toList_display (d : Diagnostic) :
    d.display.toList = d.file.toList ++
      ':' :: (d.position.display.toList ++ ':' :: ' ' :: d.cause.message.toList) := by
  simp [display]

/-- **What is printed on one line tells the place**, among the diagnostics of one source. -/
theorem place_of_display {d e : Diagnostic} (h : d.display = e.display) (hfile : d.file = e.file) :
    d.position.line = e.position.line ∧ d.position.column = e.position.column := by
  have hchars := congrArg String.toList h
  rw [toList_display, toList_display, hfile] at hchars
  have hplace := (List.cons.inj (List.append_cancel_left hchars)).2
  exact Position.display_append_inj (by decide) (by decide) hplace

theorem exists_toList_render (d : Diagnostic) (src : List UInt8) :
    ∃ more, (d.render src).toList = "Error: ".toList ++
      (d.cause.name.toList ++ ' ' :: '(' :: (d.tip.toList ++ ')' :: more)) := by
  have hopen : " (".toList = [' ', '('] := rfl
  have hclose : ")\n-> ".toList = ')' :: "\n-> ".toList := rfl
  rw [render]
  split <;>
    simp only [header, String.toList_append, hopen, hclose, List.append_assoc, List.cons_append,
      List.nil_append] <;>
    exact ⟨_, rfl⟩

/-- What is printed in the source starts with the name of the cause and with the tip. -/
theorem name_and_tip_of_render {d e : Diagnostic} {src : List UInt8}
    (h : d.render src = e.render src) : d.cause.name = e.cause.name ∧
      ∃ more more', d.tip.toList ++ ')' :: more = e.tip.toList ++ ')' :: more' := by
  have hletters : ∀ cause : Cause, ∀ c ∈ cause.name.toList, (c != ' ') = true := by
    intro cause
    refine List.all_eq_true.mp ?_
    cases cause <;> simp only [Cause.name] <;> decide
  obtain ⟨more, hd⟩ := d.exists_toList_render src
  obtain ⟨more', he⟩ := e.exists_toList_render src
  have hchars := congrArg String.toList h
  rw [hd, he] at hchars
  obtain ⟨hname, -, hrest⟩ := Text.append_cons_inj (hletters _) (hletters _) (by decide)
    (by decide) (List.append_cancel_left hchars)
  exact ⟨String.toList_inj.mp hname, more, more', (List.cons.inj hrest).2⟩

/-- **The tip about a byte that is no part of the language tells the place.** -/
theorem place_of_tip {d e : Diagnostic} {a b : UInt8} {xs ys : List Char}
    (hd : d.cause = .unrecognised (Text.escape [a]))
    (he : e.cause = .unrecognised (Text.escape [b]))
    (h : d.tip.toList ++ ')' :: xs = e.tip.toList ++ ')' :: ys) :
    d.position.line = e.position.line ∧ d.position.column = e.position.column := by
  have hquote : "' at line ".toList = '\'' :: " at line ".toList := rfl
  have hcomma : ", column ".toList = ',' :: " column ".toList := rfl
  simp only [tip, hd, he, Text.escape, List.flatMap_singleton, String.toList_append,
    String.toList_ofList, hquote, hcomma, List.append_assoc, List.cons_append] at h
  obtain ⟨-, hrest⟩ := Text.escapeByte_append_quote_inj (List.append_cancel_left h)
  obtain ⟨hline, -, hmore⟩ :=
    Text.repr_append_cons_inj (by decide) (by decide) (List.append_cancel_left hrest)
  obtain ⟨hcolumn, -, -⟩ :=
    Text.repr_append_cons_inj (by decide) (by decide) (List.append_cancel_left hmore)
  exact ⟨UInt32.toNat_inj.mp hline, UInt32.toNat_inj.mp hcolumn⟩

/-- Where the headers are equal, the snippets are what differs. -/
theorem snippet_of_render {d e : Diagnostic} {src : List UInt8} (hheader : d.header = e.header)
    (hd : d.position.offset < src.length) (he : e.position.offset < src.length)
    (h : d.render src = e.render src) :
    Snippet.at? src d.position.offset = Snippet.at? src e.position.offset := by
  have hdline := Snippet.at?_of_find? (Line.find?_of_lt hd)
  have heline := Snippet.at?_of_find? (Line.find?_of_lt he)
  rw [render, render, hdline, heline, hheader] at h
  have hchars := congrArg String.toList h
  rw [String.toList_append, String.toList_append] at hchars
  have hsnippet := String.toList_inj.mp (List.append_cancel_left hchars)
  rw [hdline, heline, Snippet.render_injective hsnippet]

end Diagnostic

/-! ## 3. Two bytes of a source -/

theorem Utf8.length_chars_lt_append (xs : List UInt8) {b : UInt8} (bytes : List UInt8)
    (hb : startsCharacter b = true) :
    (chars xs).length < (chars (xs ++ b :: bytes)).length := by
  have hcut : chars (xs ++ b :: bytes) = chars xs ++ chars (b :: bytes) :=
    chars_append fun c hc => Option.some.inj hc ▸ hb
  have hne : chars (b :: bytes) ≠ [] := by
    intro hnil
    have hjoined := joined_segments (b :: bytes)
    rw [List.map_eq_nil_iff.mp hnil] at hjoined
    cases hjoined
  rw [hcut, List.length_append]
  exact Nat.lt_add_of_pos_right (List.length_pos_iff.mpr hne)

/-- **A caret moves on.**  Behind a character that is no indentation there is another snippet: it
has a larger number, or more dashes. -/
theorem Snippet.at?_ne (read mid : List UInt8) {b : UInt8} {bytes : List UInt8}
    (hindent : isIndentByte b = false) (hstart : Utf8.startsCharacter b = true)
    (hbytes : bytes ≠ []) :
    at? (read ++ b :: (mid ++ bytes)) read.length ≠
      at? (read ++ b :: (mid ++ bytes)) (read ++ b :: mid).length := by
  intro h
  have hsecond := at?_append (read ++ b :: mid) hbytes
  rw [List.append_assoc, List.cons_append] at hsecond
  rw [at?_append read (List.cons_ne_nil _ _), hsecond, Option.some.injEq, Snippet.mk.injEq] at h
  obtain ⟨hnumber, -, hdashes⟩ := h
  have hnone : newline ∉ b :: mid := by
    rw [← List.count_eq_zero]
    rw [List.count_append] at hnumber
    omega
  rw [Position.lastLine_append hnone, dropWhile_append_cons hindent] at hdashes
  have hlt := Utf8.length_chars_lt_append ((Position.lastLine read).dropWhile isIndentByte) mid
    hstart
  omega

theorem Cause.ofBytes_singleton (b : UInt8) :
    (b = exclamation ∧ ofBytes [b] = .incompleteOperator (Text.escape [b])) ∨
      ofBytes [b] = .unrecognised (Text.escape [b]) := by
  by_cases hb : b = exclamation
  · subst hb
    exact .inl ⟨rfl, rfl⟩
  · have hmark : [b] ≠ ascii ['!'] := fun h => hb (List.cons.inj h).1
    exact .inr (if_neg hmark)

section Bytes

variable {read mid rest : List UInt8} {b c : UInt8}

/-- What is printed on one line for a byte and for a later one differs. -/
theorem Diagnostic.display_ne (h : Fits (read ++ b :: (mid ++ c :: rest))) (file : String) :
    display ⟨.ofBytes [b], .after read, file⟩ ≠
      display ⟨.ofBytes [c], .after (read ++ b :: mid), file⟩ := by
  intro heq
  obtain ⟨hline, hcolumn⟩ := place_of_display heq rfl
  have hfits : Fits (read ++ b :: mid) := h.of_length_le (by simp)
  exact List.cons_ne_nil _ _ (Position.eq_nil_of_same_place hfits hline hcolumn)

/-- What is printed in the source for a byte and for a later one differs. -/
theorem Diagnostic.render_ne (h : Fits (read ++ b :: (mid ++ c :: rest))) (file : String) :
    render ⟨.ofBytes [b], .after read, file⟩ (read ++ b :: (mid ++ c :: rest)) ≠
      render ⟨.ofBytes [c], .after (read ++ b :: mid), file⟩
        (read ++ b :: (mid ++ c :: rest)) := by
  intro heq
  obtain ⟨hname, more, more', htip⟩ := name_and_tip_of_render heq
  rcases Cause.ofBytes_singleton b with ⟨rfl, hb⟩ | hb <;>
    rcases Cause.ofBytes_singleton c with ⟨rfl, hc⟩ | hc
  · have hheader : header ⟨.ofBytes [exclamation], .after read, file⟩ =
        header ⟨.ofBytes [exclamation], .after (read ++ exclamation :: mid), file⟩ := rfl
    have hsnippet := snippet_of_render hheader (by simp) (by simp) heq
    exact Snippet.at?_ne read mid (by decide) (by decide) (List.cons_ne_nil _ _) hsnippet
  · simp [hb, hc, Cause.name] at hname
  · simp [hb, hc, Cause.name] at hname
  · obtain ⟨hline, hcolumn⟩ := place_of_tip hb hc htip
    have hfits : Fits (read ++ b :: mid) := h.of_length_le (by simp)
    exact List.cons_ne_nil _ _ (Position.eq_nil_of_same_place hfits hline hcolumn)

end Bytes

/-! ## 4. Checks -/

/-- What differs for any two bytes of a source differs for any two diagnostics of a check. -/
theorem nodup_map_of_check_eq_error {s : Source} {ds : List Diagnostic} (h : check s = .error ds)
    {f : Diagnostic → String}
    (hf : ∀ read b mid c rest, s.bytes = read ++ b :: (mid ++ c :: rest) →
      f ⟨.ofBytes [b], .after read, s.name⟩ ≠ f ⟨.ofBytes [c], .after (read ++ b :: mid), s.name⟩) :
    (ds.map f).Nodup := by
  rw [eq_map_of_check_eq_error h, List.map_map, List.Nodup, List.pairwise_map]
  refine ((tokenize_pairwise s.bytes).filter Token.isIllegal).imp_of_mem fun {t u} ht hu hle => ?_
  obtain ⟨htmem, htill⟩ := List.mem_filter.mp ht
  obtain ⟨humem, huill⟩ := List.mem_filter.mp hu
  obtain ⟨b, hb, -⟩ := exists_byte_of_isIllegal htmem htill
  obtain ⟨c, hc, -⟩ := exists_byte_of_isIllegal humem huill
  obtain ⟨read, mid, hread, -, hmid, rest, hrest⟩ := exists_between_of_le htmem humem hle
  rw [hb, List.singleton_append] at hmid hrest
  rw [hc] at hrest
  simp only [Function.comp_apply, hb, hc, hread, hmid]
  exact hf read b mid c rest (by simp [← hrest])

/-- **No two diagnostics of a check look alike**, whatever the source is called: they are printed
differently on one line, and differently in the source.  And that although the tip about half an
operator is the same everywhere. -/
theorem diagnostics_look_different (s : Source) (hs : Fits s.bytes) {ds : List Diagnostic}
    (h : check s = .error ds) :
    (ds.map Diagnostic.display).Nodup ∧ (ds.map fun d => d.render s.bytes).Nodup ∧
      ∀ d ∈ ds, ∀ shown, d.cause = .incompleteOperator shown →
        d.tip = "`!` is not an operator on its own, did you mean `!=`?" := by
  refine ⟨nodup_map_of_check_eq_error h ?_, nodup_map_of_check_eq_error h ?_, ?_⟩
  · intro read b mid c rest hsrc
    exact Diagnostic.display_ne (hsrc ▸ hs) s.name
  · intro read b mid c rest hsrc
    simp only [hsrc] at hs ⊢
    exact Diagnostic.render_ne hs s.name
  · intro d hd shown hcause
    obtain ⟨t, ht, hill, rfl⟩ := exists_token_of_check_eq_error h hd
    obtain ⟨b, hb, -⟩ := exists_byte_of_isIllegal ht hill
    rw [hb] at hcause ⊢
    rcases Cause.ofBytes_singleton b with ⟨rfl, -⟩ | hshown
    · rfl
    · rw [hshown] at hcause
      cases hcause

/-- Half an operator twice on one line, with the start of a character in between, in a source whose
name looks like a place. -/
theorem diagnostics_look_different_marks :
    let s : Source := ⟨"a:1:1", ascii ['!'] ++ [0xC3] ++ ascii ['!']⟩
    let ds : List Diagnostic := [⟨.ofBytes (ascii ['!']), ⟨0, 1, 1⟩, "a:1:1"⟩,
      ⟨.ofBytes [0xC3], ⟨1, 1, 2⟩, "a:1:1"⟩, ⟨.ofBytes (ascii ['!']), ⟨2, 1, 3⟩, "a:1:1"⟩]
    Fits s.bytes ∧ check s = .error ds ∧ (ds.map Diagnostic.display).Nodup ∧
      (ds.map fun d => d.render s.bytes).Nodup := by
  let l : Layout := ⟨[⟨[], ⟨.illegal, ascii ['!']⟩⟩, ⟨[], ⟨.illegal, [0xC3]⟩⟩,
    ⟨[], ⟨.illegal, ascii ['!']⟩⟩], []⟩
  have hcheck : check ⟨"a:1:1", ascii ['!'] ++ [0xC3] ++ ascii ['!']⟩ =
      .error [⟨.ofBytes (ascii ['!']), ⟨0, 1, 1⟩, "a:1:1"⟩,
        ⟨.ofBytes [0xC3], ⟨1, 1, 2⟩, "a:1:1"⟩, ⟨.ofBytes (ascii ['!']), ⟨2, 1, 3⟩, "a:1:1"⟩] :=
    check_bytes (l := l) (by decide) "a:1:1"
  obtain ⟨hdisplay, hrender, -⟩ := diagnostics_look_different
    ⟨"a:1:1", ascii ['!'] ++ [0xC3] ++ ascii ['!']⟩ (by decide) hcheck
  exact ⟨by decide, hcheck, hdisplay, hrender⟩

end LexicalAnalysis
