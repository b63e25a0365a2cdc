/-
# The journal of a scan

A scan can note what it does.  Each token read is a record, and so is a source that is turned
down; the end token is none.  A journal keeps the records whose severity its threshold admits,
in the order they were made.

* `noteToken`, `noteVerdict`: what is noted;
* `tokenizeNoting`, `checkNoting`: a scan and a check that note as they go;
* `records_emit`: a record is kept, behind the others, or it is not.
-/
import LexicalAnalysis.Diagnostic

namespace LexicalAnalysis

/-- How much a record matters: `debug` more than `trace`. -/
inductive Severity where
  | debug
  | trace
  deriving DecidableEq

/-- What a journal is to keep. -/
inductive Threshold where
  | off
  | error
  | warn
  | info
  | debug
  | trace
  deriving DecidableEq

/-- Whether records of a severity are kept. -/
def Threshold.admits : Threshold → Severity → Bool
  | trace, _ => true
  | debug, .debug => true
  | _, _ => false

/-- An entry of a journal. -/
structure Record where
  severity : Severity
  message : String
  deriving DecidableEq

/-- The records that were kept, and which ones are. -/
structure Journal where
  threshold : Threshold
  records : Array Record

namespace Journal

/-- A journal with no record. -/
def empty (threshold : Threshold) : Journal := ⟨threshold, #[]⟩

/-- Keeps a record behind the others, if it is admitted. -/
def emit (j : Journal) (r : Record) : Journal :=
  if j.threshold.admits r.severity then { j with records := j.records.push r } else j

/-- Notes a token of the source of the given name. -/
def noteToken (file : String) (j : Journal) (t : Token) : Journal :=
  match t.kind with
  | .endOfFile => j
  | .illegal =>
    j.emit ⟨.debug, file ++ ":" ++ t.position.display ++ ": illegal byte sequence " ++
      Text.quote t.text⟩
  | _ => j.emit ⟨.trace, file ++ ": " ++ t.display⟩

/-- Notes how many diagnostics a source was rejected with. -/
def noteVerdict (file : String) (j : Journal) :
    Except (List Diagnostic) (List Token) → Journal
  | .ok _ => j
  | .error ds =>
    j.emit ⟨.debug, file ++ ": rejected with " ++ ds.length.repr ++ " lexical error(s)"⟩

@[simp] theorem threshold_emit (j : Journal) (r : Record) :
    (j.emit r).threshold = j.threshold := by
  simp only [emit]; split <;> rfl

theorem records_emit (j : Journal) (r : Record) :
    (j.emit r).records.toList =
      j.records.toList ++ [r].filter fun r => j.threshold.admits r.severity := by
  simp only [emit]
  split
  · next h => simp [h]
  · next h => simp [h]

end Journal

/-- The tokens of a source, each noted when it is read. -/
def tokenizeNoting (j : Journal) (s : Source) : List Token × Journal :=
  let ((ts, j), _) :=
    s.stream.foldl (fun (ts, j) t => (t :: ts, j.noteToken s.name t)) (([], j) : List Token × Journal)
  (ts.reverse, j)

/-- The tokens of a source or what is wrong with it, with every token noted, and the verdict
after them. -/
def checkNoting (j : Journal) (s : Source) :
    Except (List Diagnostic) (List Token) × Journal :=
  let (ts, j) := tokenizeNoting j s
  let verdict := checkTokens s.name ts
  (verdict, j.noteVerdict s.name verdict)

end LexicalAnalysis
