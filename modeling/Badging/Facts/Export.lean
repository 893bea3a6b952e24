import Badging.Facts.Snapshot
import Badging.Text.Blank
import Badging.Text.Delimited
import Badging.Time.Reading

/-!
# Completion exports

An export is a delimited text whose first record names the columns. Each further record
states one completion or one grade, and importing records them one after the other into a
snapshot, so the last row for a key counts. The first row that cannot be used stops the
import, and the rows before it stay.

A row is malformed if it does not fit the columns: too few or too many fields, a column
that is missing or repeated, a field that is no number where the column has numbers. All
columns are converted before the kind of the row is looked at. A row that fits can
still be refused, for a reason that names its line.
-/

namespace Badging

/-- Why a row that fits the columns is refused. -/
inductive RowFault where
  | unknownKind (kind : String)
  | noCompletedAt
  | badCompletedAt (text : String)
  | unknownState (text : String)
  | noGrade
deriving DecidableEq, Repr

def RowFault.message : RowFault → String
  | .unknownKind kind => "unknown row kind '" ++ kind ++ "'"
  | .noCompletedAt => "missing completed_at"
  | .badCompletedAt text => "could not parse completed_at '" ++ text ++ "'"
  | .unknownState text => "unknown completion state '" ++ text ++ "'"
  | .noGrade => "grade rows need a grade"

/-- Why an import stopped, with the line at which it did; the columns are line 1. -/
inductive ExportError where
  | malformed (line : Nat)
  | invalidRow (line : Nat) (fault : RowFault)
deriving DecidableEq, Repr

/-- A row after its columns were converted; an empty optional field is absent. -/
structure ExportRow where
  kind : String
  target : Int
  learner : Int
  state : Option String
  completedAt : Option String
  grade : Option Binary64
deriving DecidableEq

namespace ExportRow

/-- A whole number, which may be in hexadecimal digits after `0x`. -/
def readNumber? (s : String) : Option Int :=
  match s.toList with
  | '0' :: 'x' :: cs =>
    (Number.readHexInteger? cs).filter fun n => decide (Number.InInt64 n)
  | cs => Number.readInt64? cs

/-- The field of a column, if the column is there. A repeated column has no answer. -/
def column? (name : String) (fields : List (String × String)) : Option (Option String) :=
  match fields.filter (·.1 == name) with
  | [] => some none
  | [(_, v)] => some (some v)
  | _ => none

/-- A text that counts as absent when it is empty. -/
def nonempty (s : Option String) : Option String := s.filter (· ≠ "")

def read? (columns fields : List String) : Option ExportRow := do
  if columns.length ≠ fields.length then none
  else
    let named := columns.zip fields
    let kind ← (← column? "kind" named)
    let target ← (← column? "target" named).bind readNumber?
    let learner ← (← column? "learner" named).bind readNumber?
    let state ← column? "state" named
    let completedAt ← column? "completed_at" named
    let grade ← column? "grade" named
    let grade ← match nonempty grade with
      | none => some none
      | some s => (Binary64.read? s.toList).map some
    return ⟨kind, target, learner, nonempty state, nonempty completedAt, grade⟩

def state? (s : String) : Option CompletionState :=
  match Text.lower (Text.trim s) with
  | "0" | "incomplete" => some .incomplete
  | "1" | "complete" => some .complete
  | "2" | "complete_pass" | "pass" => some .completePass
  | "3" | "complete_fail" | "fail" => some .completeFail
  | _ => none

def completion (r : ExportRow) : Except RowFault Instant :=
  match r.completedAt with
  | none => .error .noCompletedAt
  | some s =>
    match Instant.readExported? s.toList with
    | some t => .ok t
    | none => .error (.badCompletedAt s)

def apply (r : ExportRow) (s : Snapshot) : Except RowFault Snapshot :=
  let kind := Text.lower r.kind
  if kind = "activity" then do
    let t ← r.completion
    let state ← match r.state with
      | none => .ok .complete
      | some text =>
        match state? text with
        | some state => .ok state
        | none => .error (.unknownState text)
    return s.recordActivity ⟨⟨r.target⟩, ⟨r.learner⟩, state, t⟩
  else if kind = "course" then do
    let t ← r.completion
    return s.recordCourse ⟨⟨r.target⟩, ⟨r.learner⟩, t⟩
  else if kind = "grade" then
    match r.grade with
    | none => .error .noGrade
    | some g => .ok (s.recordGrade ⟨⟨r.target⟩, ⟨r.learner⟩, g⟩)
  else .error (.unknownKind kind)

end ExportRow

/-- An import that has ended: the snapshot as it is now, and the number of rows that were
applied or what stopped it. -/
structure Imported where
  snapshot : Snapshot
  result : Except ExportError Nat

namespace Snapshot

/-- Imports the rows from a line on, of which `applied` came before. -/
def importRows (columns : List String) (applied : Nat) (s : Snapshot) :
    List (List String) → Imported
  | [] => ⟨s, .ok applied⟩
  | fields :: rows =>
    match ExportRow.read? columns (fields.map Text.trim) with
    | none => ⟨s, .error (.malformed (applied + 2))⟩
    | some row =>
      match row.apply s with
      | .error fault => ⟨s, .error (.invalidRow (applied + 2) fault)⟩
      | .ok s => importRows columns (applied + 1) s rows

def importExport (s : Snapshot) (text : String) : Imported :=
  match Text.Delimited.records text with
  | [] => ⟨s, .ok 0⟩
  | columns :: rows => s.importRows (columns.map Text.trim) 0 rows

end Snapshot

/-- Why a snapshot could not be loaded or completed. -/
inductive SnapshotError where
  | unreadable (reason : String)
  | notJson
  | exportFault (e : ExportError)
deriving DecidableEq, Repr

/-- The error in words; what is wrong with JSON or delimited text is not told. -/
def SnapshotError.message : SnapshotError → String
  | .unreadable reason => "failed to read facts snapshot: " ++ reason
  | .notJson => "invalid facts snapshot JSON: "
  | .exportFault (.malformed _) => "invalid completion CSV data: "
  | .exportFault (.invalidRow line fault) =>
    "completion export line " ++ Number.integerText line ++ ": " ++ fault.message

end Badging
