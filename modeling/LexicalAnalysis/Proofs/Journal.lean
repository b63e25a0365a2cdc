/-
# What a scan notes

A scan notes its tokens as it reads them, and a check picks its diagnostics out of the tokens when
all are read.  The two agree: a journal holds a record for every token but the end token, in their
order, and those that matter most are the diagnostics again, with their count behind them.

* `Record.ofToken`, `Record.ofVerdict`: the records that are due;
* `Journal.records_noteToken`: what noting one token does to a journal, whatever is in it, and
  `Journal.records_foldl_noteToken`, what noting many does;
* `records_tokenizeNoting`, `records_checkNoting`: the journal of a whole scan, at every threshold;
* `journal_mirrors_scan`: read against the tokens and the diagnostics.
-/
import LexicalAnalysis.Journal
import LexicalAnalysis.Proofs.Strays

namespace LexicalAnalysis

/-! ## 1. The records that are due -/

namespace Record

/-- The record of a token: an illegal one is noted with its place and its text, and every other one
as it is displayed. -/
def ofToken (file : String) (t : Token) : Record :=
  if t.isIllegal then
    ⟨.debug, file ++ ":" ++ t.position.display ++ ": illegal byte sequence " ++
      Text.quote t.text⟩
  else ⟨.trace, file ++ ": " ++ t.display⟩

/-- The records of some tokens: one for each, but none for the end token. -/
def ofTokens (file : String) (ts : List Token) : List Record :=
  (ts.filter fun t => !t.isEndOfFile).map (ofToken file)

/-- The record of a verdict, which only a rejected source has. -/
def ofVerdict (file : String) : Except (List Diagnostic) (List Token) → List Record
  | .ok _ => []
  | .error ds => [⟨.debug, file ++ ": rejected with " ++ ds.length.repr ++ " lexical error(s)"⟩]

theorem ofTokens_cons (file : String) (t : Token) (ts : List Token) :
    ofTokens file (t :: ts) = ofTokens file [t] ++ ofTokens file ts := by
  rw [ofTokens, ← List.singleton_append, List.filter_append, List.map_append]
  rfl

theorem severity_ofToken (file : String) (t : Token) :
    (ofToken file t).severity = if t.isIllegal then .debug else .trace := by
  rw [ofToken]
  split <;> rfl

/-- The records that matter most are those of the illegal tokens. -/
theorem filter_ofTokens (file : String) (ts : List Token) :
    (ofTokens file ts).filter (fun r => r.severity == .debug) =
      (ts.filter Token.isIllegal).map (ofToken file) := by
  induction ts with
  | nil => rfl
  | cons t ts ih =>
    rw [ofTokens_cons, List.filter_append, ih, List.filter_cons]
    cases hill : t.isIllegal with
    | true => simp [ofTokens, isEndOfFile_of_isIllegal hill, severity_ofToken, hill]
    | false => cases he : t.isEndOfFile <;> simp [ofTokens, he, severity_ofToken, hill]

end Record

/-- The records that a threshold lets through. -/
def Threshold.kept (θ : Threshold) (rs : List Record) : List Record :=
  rs.filter fun r => θ.admits r.severity

theorem Threshold.kept_append (θ : Threshold) (rs more : List Record) :
    θ.kept (rs ++ more) = θ.kept rs ++ θ.kept more := by
  rw [kept, kept, kept, List.filter_append]

@[simp] theorem Threshold.kept_trace (rs : List Record) : trace.kept rs = rs :=
  List.filter_eq_self.mpr fun _ _ => rfl

theorem Threshold.kept_debug (rs : List Record) :
    debug.kept rs = rs.filter fun r => r.severity == .debug := by
  refine List.filter_congr fun r _ => ?_
  cases r.severity <;> rfl

/-! ## 2. Noting -/

namespace Journal

/-- **One token**: the journal keeps its record behind the others, if there is one and it is let
through. -/
theorem records_noteToken (file : String) (j : Journal) (t : Token) :
    (j.noteToken file t).threshold = j.threshold ∧
      (j.noteToken file t).records.toList =
        j.records.toList ++ j.threshold.kept (Record.ofTokens file [t]) := by
  have hnote : j.noteToken file t =
      if t.isEndOfFile then j else j.emit (Record.ofToken file t) := by
    obtain ⟨⟨kind, bytes⟩, position⟩ := t
    cases kind <;> rfl
  cases he : t.isEndOfFile with
  | true => simp [hnote, he, Record.ofTokens, Threshold.kept]
  | false => simp [hnote, he, Record.ofTokens, records_emit, Threshold.kept]

/-- **Many tokens.** -/
theorem records_foldl_noteToken (file : String) (ts : List Token) (j : Journal) :
    (ts.foldl (noteToken file) j).threshold = j.threshold ∧
      (ts.foldl (noteToken file) j).records.toList =
        j.records.toList ++ j.threshold.kept (Record.ofTokens file ts) := by
  induction ts generalizing j with
  | nil => simp [Record.ofTokens, Threshold.kept]
  | cons t ts ih =>
    obtain ⟨hthreshold, hrecords⟩ := j.records_noteToken file t
    obtain ⟨hthreshold', hrecords'⟩ := ih (j.noteToken file t)
    rw [List.foldl_cons, hthreshold', hrecords', hthreshold, hrecords,
      Record.ofTokens_cons file t ts, Threshold.kept_append, List.append_assoc]
    exact ⟨rfl, rfl⟩

theorem records_noteVerdict (file : String) (j : Journal)
    (v : Except (List Diagnostic) (List Token)) :
    (j.noteVerdict file v).records.toList =
      j.records.toList ++ j.threshold.kept (Record.ofVerdict file v) := by
  cases v with
  | ok ts => simp [noteVerdict, Record.ofVerdict, Threshold.kept]
  | error ds => exact records_emit j _

end Journal

/-! ## 3. Whole scans -/

theorem foldl_noteToken_tokens (file : String) (ts us : List Token) (j : Journal) :
    ts.foldl (fun (us, j) t => (t :: us, j.noteToken file t)) (us, j) =
      (ts.reverse ++ us, ts.foldl (Journal.noteToken file) j) := by
  induction ts generalizing us j with
  | nil => rfl
  | cons t ts ih => rw [List.foldl_cons, ih, List.reverse_cons, List.append_assoc]; rfl

/-- Noting does not change what is read, and it is done token by token. -/
theorem tokenizeNoting_eq (j : Journal) (s : Source) :
    tokenizeNoting j s = (s.tokens, s.tokens.foldl (Journal.noteToken s.name) j) := by
  have hdrain : s.stream.drain.1 = s.tokens := rfl
  rw [tokenizeNoting, TokenStream.foldl_eq_foldl_drain, hdrain, foldl_noteToken_tokens]
  simp

theorem checkNoting_eq (j : Journal) (s : Source) :
    checkNoting j s = (check s, (tokenizeNoting j s).2.noteVerdict s.name (check s)) := by
  rw [checkNoting, tokenizeNoting_eq]
  rfl

/-- **The journal of a scan.** -/
theorem records_tokenizeNoting (θ : Threshold) (s : Source) :
    (tokenizeNoting (.empty θ) s).2.records.toList =
      θ.kept (Record.ofTokens s.name s.tokens) := by
  rw [tokenizeNoting_eq]
  exact (Journal.records_foldl_noteToken s.name s.tokens (.empty θ)).2

/-- **The journal of a check.** -/
theorem records_checkNoting (θ : Threshold) (s : Source) :
    (checkNoting (.empty θ) s).2.records.toList =
      θ.kept (Record.ofTokens s.name s.tokens ++ Record.ofVerdict s.name (check s)) := by
  have hthreshold : (tokenizeNoting (.empty θ) s).2.threshold = θ := by
    rw [tokenizeNoting_eq]
    exact (Journal.records_foldl_noteToken s.name s.tokens (.empty θ)).1
  rw [checkNoting_eq, Journal.records_noteVerdict, records_tokenizeNoting, hthreshold,
    Threshold.kept_append]

/-! ## 4. Records and diagnostics -/

/-- **A record that announces a diagnostic**: both start with the source and the place. -/
def Diagnostic.Announces (r : Record) (d : Diagnostic) : Prop :=
  r.severity = .debug ∧
    ∃ noted, r.message = d.file ++ ":" ++ d.position.display ++ ": " ++ noted ∧
      d.display = d.file ++ ":" ++ d.position.display ++ ": " ++ d.cause.message

theorem announces_ofToken {t : Token} (h : t.isIllegal = true) (file : String) :
    Diagnostic.Announces (Record.ofToken file t) ⟨.ofBytes t.bytes, t.position, file⟩ := by
  have hsplit : ": illegal byte sequence " = ": " ++ "illegal byte sequence " := by decide
  refine ⟨by rw [Record.severity_ofToken, if_pos h],
    "illegal byte sequence " ++ Text.quote t.text, ?_, rfl⟩
  rw [Record.ofToken, if_pos h, hsplit]
  simp only [String.append_assoc]

/-- **A journal mirrors its scan.**  Noting changes neither the tokens nor the verdict.  With
nothing held back there is one record for each token but the end token, in their order: an illegal
one weighs more than the others.  A check has the same records, and if it rejects its source one
more behind them, with the number of its diagnostics, which is that of the weighty records in front
of it.  At any other threshold the records are those of all that it lets through.  So a check that
holds back all but the weighty ones is silent on a source that it accepts; and on one that it
rejects it announces its diagnostics one by one, and then their number. -/
theorem journal_mirrors_scan (s : Source) :
    (∀ θ, (tokenizeNoting (.empty θ) s).1 = s.tokens ∧
      (checkNoting (.empty θ) s).1 = check s) ∧
      (tokenizeNoting (.empty .trace) s).2.records.toList =
        (s.tokens.filter fun t => !t.isEndOfFile).map (Record.ofToken s.name) ∧
      (checkNoting (.empty .trace) s).2.records.toList =
        (tokenizeNoting (.empty .trace) s).2.records.toList ++
          Record.ofVerdict s.name (check s) ∧
      (∀ ds, check s = .error ds →
        ds.length = (tokenizeNoting (.empty .trace) s).2.records.toList.countP
          fun r => r.severity == .debug) ∧
      (∀ θ : Threshold,
        (tokenizeNoting (.empty θ) s).2.records.toList =
            (tokenizeNoting (.empty .trace) s).2.records.toList.filter
              (fun r => θ.admits r.severity) ∧
          (checkNoting (.empty θ) s).2.records.toList =
            (checkNoting (.empty .trace) s).2.records.toList.filter
              fun r => θ.admits r.severity) ∧
      (∀ ts, check s = .ok ts → (checkNoting (.empty .debug) s).2.records.toList = []) ∧
      ∀ ds, check s = .error ds → ∃ rs,
        (checkNoting (.empty .debug) s).2.records.toList =
            rs ++ [⟨.debug, s.name ++ ": rejected with " ++ ds.length.repr ++
              " lexical error(s)"⟩] ∧
          List.Forall₂ Diagnostic.Announces rs ds := by
  have htrace : (tokenizeNoting (.empty .trace) s).2.records.toList =
      Record.ofTokens s.name s.tokens := by
    rw [records_tokenizeNoting, Threshold.kept_trace]
  have hcheck : (checkNoting (.empty .trace) s).2.records.toList =
      Record.ofTokens s.name s.tokens ++ Record.ofVerdict s.name (check s) := by
    rw [records_checkNoting, Threshold.kept_trace]
  have hdebug : (checkNoting (.empty .debug) s).2.records.toList =
      (s.tokens.filter Token.isIllegal).map (Record.ofToken s.name) ++
        Threshold.debug.kept (Record.ofVerdict s.name (check s)) := by
    rw [records_checkNoting, Threshold.kept_append, Threshold.kept_debug (Record.ofTokens _ _),
      Record.filter_ofTokens]
  rw [htrace, hcheck]
  refine ⟨fun θ => ⟨by rw [tokenizeNoting_eq], by rw [checkNoting_eq]⟩, rfl, rfl, ?_, ?_, ?_, ?_⟩
  · intro ds hds
    rw [List.countP_eq_length_filter, Record.filter_ofTokens, eq_map_of_check_eq_error hds,
      List.length_map, List.length_map]
  · intro θ
    exact ⟨records_tokenizeNoting θ s, records_checkNoting θ s⟩
  · intro ts hts
    have hnone : s.tokens.filter Token.isIllegal = [] := by
      rw [List.filter_eq_nil_iff]
      intro t ht
      simp [(check_eq_ok_iff.mp hts).2 t ht]
    rw [hdebug, hts, hnone]
    rfl
  · intro ds hds
    refine ⟨_, by rw [hdebug, hds]; rfl, ?_⟩
    rw [eq_map_of_check_eq_error hds, List.forall₂_map_left_iff, List.forall₂_map_right_iff,
      List.forall₂_same]
    intro t ht
    exact announces_ofToken (List.mem_filter.mp ht).2 s.name

/-- A source whose name has a colon, and half an operator in it. -/
theorem journal_mirrors_scan_mark :
    let s : Source := ⟨"a:b", ascii ['x', ' ', '!']⟩
    let d : Diagnostic := ⟨.ofBytes (ascii ['!']), ⟨2, 1, 3⟩, "a:b"⟩
    check s = .error [d] ∧
      ∃ rs, (checkNoting (.empty .debug) s).2.records.toList =
          rs ++ [⟨.debug, "a:b: rejected with 1 lexical error(s)"⟩] ∧
        List.Forall₂ Diagnostic.Announces rs [d] := by
  let l : Layout := ⟨[⟨[], ⟨.identifier, ascii ['x']⟩⟩,
    ⟨ascii [' '], ⟨.illegal, ascii ['!']⟩⟩], []⟩
  have hcheck : check ⟨"a:b", ascii ['x', ' ', '!']⟩ =
      .error [⟨.ofBytes (ascii ['!']), ⟨2, 1, 3⟩, "a:b"⟩] :=
    check_bytes (l := l) (by decide) "a:b"
  exact ⟨hcheck, (journal_mirrors_scan ⟨"a:b", ascii ['x', ' ', '!']⟩).2.2.2.2.2.2 _ hcheck⟩

end LexicalAnalysis
