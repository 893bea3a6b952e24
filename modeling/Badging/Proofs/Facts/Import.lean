import Badging.Facts.Export
import Badging.Proofs.Except
import Badging.Proofs.Facts.Merge
import Badging.Proofs.Text.Delimited

/-!
# What an import leaves

A row of an export states one thing about one key, or there is a reason why it does not. So when
it goes through, an import is the recording of as many statements as there are rows, one after the
other, and of those about one key the last one wins, for each of the three lists on its own. An
interrupted import has recorded what the rows before state: it leaves what the import of a beginning
of the text leaves, the one that ends with them.
-/

namespace Badging

/-- What a row of an export states. -/
inductive Statement where
  | activity (e : ActivityCompletionEntry)
  | course (e : CourseCompletionEntry)
  | grade (e : GradeEntry)

namespace Statement

def activity? : Statement → Option ActivityCompletionEntry
  | .activity e => some e
  | _ => none

def course? : Statement → Option CourseCompletionEntry
  | .course e => some e
  | _ => none

def grade? : Statement → Option GradeEntry
  | .grade e => some e
  | _ => none

end Statement

def ActivityCompletionEntry.key (e : ActivityCompletionEntry) : ActivityId × LearnerId :=
  (e.activity, e.learner)

def CourseCompletionEntry.key (e : CourseCompletionEntry) : CourseId × LearnerId :=
  (e.course, e.learner)

def GradeEntry.key (e : GradeEntry) : CourseId × LearnerId := (e.course, e.learner)

namespace ExportRow

/-- The row says when something was completed. -/
def CompletedAt (r : ExportRow) (t : Instant) : Prop :=
  ∃ text, r.completedAt = some text ∧ Instant.readExported? text.toList = some t

/-- What the row states, by its kind. An activity without a state is complete. -/
def States (r : ExportRow) : Statement → Prop
  | .activity e => Text.lower r.kind = "activity" ∧ e.key = (⟨r.target⟩, ⟨r.learner⟩) ∧
      r.CompletedAt e.completedAt ∧
      (r.state = none ∧ e.state = .complete ∨
        ∃ text, r.state = some text ∧ state? text = some e.state)
  | .course e => Text.lower r.kind = "course" ∧ e.key = (⟨r.target⟩, ⟨r.learner⟩) ∧
      r.CompletedAt e.completedAt
  | .grade e => Text.lower r.kind = "grade" ∧ e.key = (⟨r.target⟩, ⟨r.learner⟩) ∧
      r.grade = some e.grade

/-- Why the row states nothing. -/
def Fails (r : ExportRow) : RowFault → Prop
  | .unknownKind kind => kind = Text.lower r.kind ∧ kind ∉ ["activity", "course", "grade"]
  | .noCompletedAt => Text.lower r.kind ∈ ["activity", "course"] ∧ r.completedAt = none
  | .badCompletedAt text => Text.lower r.kind ∈ ["activity", "course"] ∧
      r.completedAt = some text ∧ Instant.readExported? text.toList = none
  | .unknownState text => Text.lower r.kind = "activity" ∧ (∃ t, r.CompletedAt t) ∧
      r.state = some text ∧ state? text = none
  | .noGrade => Text.lower r.kind = "grade" ∧ r.grade = none

end ExportRow

/-- A snapshot in which a statement was recorded. -/
def Snapshot.record (s : Snapshot) : Statement → Snapshot
  | .activity e => s.recordActivity e
  | .course e => s.recordCourse e
  | .grade e => s.recordGrade e

namespace ExportRow

variable {r : ExportRow} {s s' : Snapshot}

theorem completion_eq_ok_iff {t : Instant} : r.completion = .ok t ↔ r.CompletedAt t := by
  unfold completion CompletedAt
  constructor
  · intro h
    split at h
    · cases h
    · next text htext =>
      split at h
      · next t' ht =>
        cases h
        exact ⟨text, htext, ht⟩
      · cases h
  · rintro ⟨text, htext, ht⟩
    simp only [htext, ht]

theorem completion_eq_error {f : RowFault} (h : r.completion = .error f) :
    f = .noCompletedAt ∧ r.completedAt = none ∨ ∃ text, f = .badCompletedAt text ∧
      r.completedAt = some text ∧ Instant.readExported? text.toList = none := by
  unfold completion at h
  split at h
  · next hnone =>
    cases h
    exact .inl ⟨rfl, hnone⟩
  · next text htext =>
    split at h
    · cases h
    · next hread =>
      cases h
      exact .inr ⟨text, rfl, htext, hread⟩

/-- A row that is applied records what it states. -/
theorem states_of_apply (h : r.apply s = .ok s') : ∃ x, r.States x ∧ s' = s.record x := by
  unfold apply at h
  dsimp only at h
  split at h
  · next hkind =>
    obtain ⟨t, ht, h⟩ := bind_eq_ok_iff.1 h
    have hat := completion_eq_ok_iff.1 ht
    split at h
    · next hnone =>
      cases h
      exact ⟨.activity _, ⟨hkind, rfl, hat, .inl ⟨hnone, rfl⟩⟩, rfl⟩
    · next text htext =>
      split at h
      · next state hread =>
        cases h
        exact ⟨.activity _, ⟨hkind, rfl, hat, .inr ⟨text, htext, hread⟩⟩, rfl⟩
      · cases h
  · split at h
    · next hkind =>
      obtain ⟨t, ht, h⟩ := bind_eq_ok_iff.1 h
      cases h
      exact ⟨.course _, ⟨hkind, rfl, completion_eq_ok_iff.1 ht⟩, rfl⟩
    · split at h
      · next hkind =>
        split at h
        · cases h
        · next g hg =>
          cases h
          exact ⟨.grade _, ⟨hkind, rfl, hg⟩, rfl⟩
      · cases h

theorem apply_of_states {r : ExportRow} {x : Statement} (h : r.States x) (s : Snapshot) :
    r.apply s = .ok (s.record x) := by
  cases x with
  | activity e =>
    obtain ⟨a, l, state, t⟩ := e
    obtain ⟨hkind, hkey, hat, hstate⟩ := h
    cases hkey
    have hcompletion : r.completion = .ok t := completion_eq_ok_iff.2 hat
    rcases hstate with ⟨hnone, rfl⟩ | ⟨text, htext, hread⟩
    · simp only [apply, hkind, if_true, hcompletion, hnone]
      rfl
    · simp only [apply, hkind, if_true, hcompletion, htext, hread]
      rfl
  | course e =>
    obtain ⟨c, l, t⟩ := e
    obtain ⟨hkind, hkey, hat⟩ := h
    cases hkey
    have hcompletion : r.completion = .ok t := completion_eq_ok_iff.2 hat
    simp only [apply, hkind, hcompletion]
    rfl
  | grade e =>
    obtain ⟨c, l, g⟩ := e
    obtain ⟨hkind, hkey, hgrade⟩ := h
    cases hkey
    simp only [apply, hkind, hgrade]
    rfl

theorem fails_of_apply {f : RowFault} (h : r.apply s = .error f) : r.Fails f := by
  unfold apply at h
  dsimp only at h
  have hcompletion : ∀ kind ∈ ["activity", "course"], Text.lower r.kind = kind →
      r.completion = .error f → r.Fails f := fun kind hmem hkind hfails => by
    rw [← hkind] at hmem
    rcases completion_eq_error hfails with ⟨rfl, hnone⟩ | ⟨text, rfl, htext⟩
    · exact ⟨hmem, hnone⟩
    · exact ⟨hmem, htext⟩
  split at h
  · next hkind =>
    rcases bind_eq_error_iff.1 h with h | ⟨t, ht, h⟩
    · exact hcompletion _ (by simp) hkind h
    · split at h
      · cases h
      · next text htext =>
        split at h
        · cases h
        · next hread =>
          cases h
          exact ⟨hkind, ⟨t, completion_eq_ok_iff.1 ht⟩, htext, hread⟩
  · next hactivity =>
    split at h
    · next hkind =>
      rcases bind_eq_error_iff.1 h with h | ⟨_, -, ⟨⟩⟩
      exact hcompletion _ (by simp) hkind h
    · next hcourse =>
      split at h
      · next hkind =>
        split at h
        · next hnone =>
          cases h
          exact ⟨hkind, hnone⟩
        · cases h
      · next hgrade =>
        cases h
        exact ⟨rfl, by simp [hactivity, hcourse, hgrade]⟩

end ExportRow

/-- The names of the columns. -/
def exportColumns (text : String) : List String :=
  ((Text.Delimited.records text).headD []).map Text.trim

/-- The records behind the names of the columns. -/
def exportRecords (text : String) : List (List String) := (Text.Delimited.records text).tail

/-- The records before another one are those of a beginning of the text. -/
theorem exists_export_before {text : String} {before after : List (List String)}
    {fields : List String} (h : exportRecords text = before ++ fields :: after) :
    ∃ text' : String, text'.toList <+: text.toList ∧ exportColumns text' = exportColumns text ∧
      exportRecords text' = before := by
  have hlength : before.length < (Text.Delimited.records text).length := by
    have htail := congrArg List.length h
    rw [exportRecords, List.length_tail, List.length_append, List.length_cons] at htail
    omega
  obtain ⟨text', hbeginning, hrecords⟩ := Text.Delimited.exists_records_take hlength
  obtain ⟨columns, rows, hall⟩ := List.exists_cons_of_length_pos (Nat.zero_lt_of_lt hlength)
  have hrows : rows = before ++ fields :: after := by rw [← h, exportRecords, hall, List.tail_cons]
  have htake : Text.Delimited.records text' = columns :: before := by
    rw [hrecords, hall, List.take_succ_cons, hrows, List.take_left]
  refine ⟨text', hbeginning, ?_, ?_⟩
  · rw [exportColumns, exportColumns, htake, hall]
    rfl
  · rw [exportRecords, htake, List.tail_cons]

/-- A record is a row that states something. -/
def RecordStates (columns fields : List String) (x : Statement) : Prop :=
  ∃ row, ExportRow.read? columns (fields.map Text.trim) = some row ∧ row.States x

namespace ExportError

def line : ExportError → Nat
  | .malformed line => line
  | .invalidRow line _ => line

/-- The record is the reason why an import stopped. -/
def IsAt (columns fields : List String) : ExportError → Prop
  | .malformed _ => ExportRow.read? columns (fields.map Text.trim) = none
  | .invalidRow _ fault =>
    ∃ row, ExportRow.read? columns (fields.map Text.trim) = some row ∧ row.Fails fault

end ExportError

namespace Snapshot

/-- What a snapshot has become after statements were recorded in it. -/
structure Merges (s : Snapshot) (xs : List Statement) (s' : Snapshot) : Prop where
  activities : LastWins ActivityCompletionEntry.key s.activityCompletions
    (xs.filterMap Statement.activity?) s'.activityCompletions
  courses : LastWins CourseCompletionEntry.key s.courseCompletions
    (xs.filterMap Statement.course?) s'.courseCompletions
  grades : LastWins GradeEntry.key s.grades (xs.filterMap Statement.grade?) s'.grades
  rest : s' = { s with
    activityCompletions := s'.activityCompletions
    courseCompletions := s'.courseCompletions
    grades := s'.grades }

/-- What a snapshot answers after statements were recorded in it: the last statement about the key,
or what it answered before. -/
structure AnswersLast (s : Snapshot) (xs : List Statement) (s' : Snapshot) : Prop where
  activity : ∀ a l, s'.answer (.activityCompletion a l) =
    (((xs.filterMap Statement.activity?).reverse.find? fun e => e.key = (a, l)).map
      fun e => ⟨e.state, e.completedAt⟩).or (s.answer (.activityCompletion a l))
  course : ∀ c l, s'.answer (.courseCompletion c l) =
    (((xs.filterMap Statement.course?).reverse.find? fun e => e.key = (c, l)).map
      (·.completedAt)).or (s.answer (.courseCompletion c l))
  grade : ∀ c l, s'.answer (.courseGrade c l) =
    (((xs.filterMap Statement.grade?).reverse.find? fun e => e.key = (c, l)).map
      (·.grade)).or (s.answer (.courseGrade c l))
  other : ∀ q : Query, (∀ a l, q ≠ .activityCompletion a l) → (∀ c l, q ≠ .courseCompletion c l) →
    (∀ c l, q ≠ .courseGrade c l) → s'.answer q = s.answer q

variable {s s' : Snapshot}

theorem beq_and_beq_eq {α β : Type} [DecidableEq α] [DecidableEq β] (a a' : α) (b b' : β) :
    (a == a' && b == b') = decide ((a, b) = (a', b')) := by
  rw [Bool.eq_iff_iff]
  simp

theorem record_eq (s : Snapshot) (x : Statement) : s.record x = { s with
    activityCompletions := x.activity?.toList.foldl
      (recordBy ActivityCompletionEntry.key) s.activityCompletions
    courseCompletions := x.course?.toList.foldl
      (recordBy CourseCompletionEntry.key) s.courseCompletions
    grades := x.grade?.toList.foldl (recordBy GradeEntry.key) s.grades } := by
  cases x with
  | activity e =>
    have hagrees : e.agrees = fun y => decide (y.key = e.key) := funext fun y => beq_and_beq_eq ..
    rw [record, recordActivity, hagrees]
    rfl
  | course e =>
    have hagrees : e.agrees = fun y => decide (y.key = e.key) := funext fun y => beq_and_beq_eq ..
    rw [record, recordCourse, hagrees]
    rfl
  | grade e =>
    have hagrees : e.agrees = fun y => decide (y.key = e.key) := funext fun y => beq_and_beq_eq ..
    rw [record, recordGrade, hagrees]
    rfl

/-- Statements about one list are recorded in it and leave the others. -/
theorem foldl_record (s : Snapshot) (xs : List Statement) : xs.foldl record s = { s with
    activityCompletions := (xs.filterMap Statement.activity?).foldl
      (recordBy ActivityCompletionEntry.key) s.activityCompletions
    courseCompletions := (xs.filterMap Statement.course?).foldl
      (recordBy CourseCompletionEntry.key) s.courseCompletions
    grades := (xs.filterMap Statement.grade?).foldl (recordBy GradeEntry.key) s.grades } := by
  induction xs generalizing s with
  | nil => rfl
  | cons x xs ih =>
    rw [List.foldl_cons, ih, record_eq]
    cases x <;> rfl

theorem merges_foldl (s : Snapshot) (xs : List Statement) : s.Merges xs (xs.foldl record s) := by
  rw [foldl_record]
  exact ⟨.foldl _ _ _, .foldl _ _ _, .foldl _ _ _, rfl⟩

theorem answer_activityCompletion (s : Snapshot) (a : ActivityId) (l : LearnerId) :
    s.answer (.activityCompletion a l) =
      (s.activityCompletions.find? fun e => e.key = (a, l)).map
        fun e => ⟨e.state, e.completedAt⟩ := by
  have hkey : (fun e : ActivityCompletionEntry => e.activity == a && e.learner == l) =
      fun e => decide (e.key = (a, l)) := funext fun e => beq_and_beq_eq ..
  rw [answer, hkey]

theorem answer_courseCompletion (s : Snapshot) (c : CourseId) (l : LearnerId) :
    s.answer (.courseCompletion c l) =
      (s.courseCompletions.find? fun e => e.key = (c, l)).map (·.completedAt) := by
  have hkey : (fun e : CourseCompletionEntry => e.course == c && e.learner == l) =
      fun e => decide (e.key = (c, l)) := funext fun e => beq_and_beq_eq ..
  rw [answer, hkey]

theorem answer_courseGrade (s : Snapshot) (c : CourseId) (l : LearnerId) :
    s.answer (.courseGrade c l) = (s.grades.find? fun e => e.key = (c, l)).map (·.grade) := by
  have hkey : (fun e : GradeEntry => e.course == c && e.learner == l) =
      fun e => decide (e.key = (c, l)) := funext fun e => beq_and_beq_eq ..
  rw [answer, hkey]

theorem Merges.answersLast {xs : List Statement} (h : s.Merges xs s') : s.AnswersLast xs s' where
  activity a l := by
    rw [answer_activityCompletion, h.activities.lookup, Option.map_or, answer_activityCompletion]
  course c l := by
    rw [answer_courseCompletion, h.courses.lookup, Option.map_or, answer_courseCompletion]
  grade c l := by
    rw [answer_courseGrade, h.grades.lookup, Option.map_or, answer_courseGrade]
  other q hactivity hcourse hgrade := by
    rw [h.rest]
    cases q with
    | activityCompletion a l => exact absurd rfl (hactivity a l)
    | courseCompletion c l => exact absurd rfl (hcourse c l)
    | courseGrade c l => exact absurd rfl (hgrade c l)
    | _ => rfl

variable {columns : List String} {rows : List (List String)} {applied n : Nat} {e : ExportError}

theorem stated_of_importRows (h : importRows columns applied s rows = ⟨s', .ok n⟩) :
    n = applied + rows.length ∧ ∃ xs, List.Forall₂ (RecordStates columns) rows xs ∧
      s' = xs.foldl record s := by
  induction rows generalizing applied s with
  | nil =>
    cases h
    exact ⟨rfl, [], .nil, rfl⟩
  | cons fields rows ih =>
    unfold importRows at h
    split at h
    · cases h
    · next row hrow =>
      split at h
      · cases h
      · next s₁ happly =>
        obtain ⟨x, hx, rfl⟩ := ExportRow.states_of_apply happly
        obtain ⟨hn, xs, hxs, hs'⟩ := ih h
        refine ⟨?_, x :: xs, .cons ⟨row, hrow, hx⟩ hxs, hs'⟩
        rw [hn, List.length_cons]
        omega

theorem importRows_of_states {columns : List String} {rows : List (List String)}
    {xs : List Statement} (h : List.Forall₂ (RecordStates columns) rows xs) (applied : Nat)
    (s : Snapshot) :
    importRows columns applied s rows = ⟨xs.foldl record s, .ok (applied + xs.length)⟩ := by
  induction h generalizing applied s with
  | nil => rfl
  | cons hx _ ih =>
    obtain ⟨row, hrow, hstates⟩ := hx
    simp only [importRows, hrow, ExportRow.apply_of_states hstates, ih, List.foldl_cons,
      List.length_cons, Nat.add_assoc, Nat.add_comm 1]

/-- An import that stops was at a record that is the reason, and the records before it are imported
as far as it came. -/
theorem stopped_of_importRows (h : importRows columns applied s rows = ⟨s', .error e⟩) :
    ∃ before fields after, rows = before ++ fields :: after ∧
      e.line = applied + before.length + 2 ∧ e.IsAt columns fields ∧
      importRows columns applied s before = ⟨s', .ok (applied + before.length)⟩ := by
  induction rows generalizing applied s with
  | nil => cases h
  | cons fields rows ih =>
    unfold importRows at h
    split at h
    · next hnone =>
      cases h
      exact ⟨[], fields, rows, rfl, rfl, hnone, rfl⟩
    · next row hrow =>
      split at h
      · next fault happly =>
        cases h
        exact ⟨[], fields, rows, rfl, rfl, ⟨row, hrow, ExportRow.fails_of_apply happly⟩, rfl⟩
      · next s₁ happly =>
        obtain ⟨before, fields', after, rfl, hline, hat, hbefore⟩ := ih h
        refine ⟨fields :: before, fields', after, rfl, ?_, hat, ?_⟩
        · rw [hline, List.length_cons]
          omega
        · rw [importRows, hrow]
          dsimp only
          rw [happly]
          dsimp only
          rw [hbefore, List.length_cons, Nat.add_right_comm, Nat.add_assoc]

theorem importExport_eq (s : Snapshot) (text : String) :
    s.importExport text = s.importRows (exportColumns text) 0 (exportRecords text) := by
  unfold importExport exportColumns exportRecords
  cases Text.Delimited.records text <;> rfl

theorem importExport_congr (s : Snapshot) {text text' : String}
    (hcolumns : exportColumns text' = exportColumns text)
    (hrecords : exportRecords text' = exportRecords text) :
    s.importExport text' = s.importExport text := by
  rw [importExport_eq, importExport_eq, hcolumns, hrecords]

/-- What the import of an export comes to. It goes through exactly if every record states
something. -/
structure ImportsLast (s : Snapshot) (text : String) : Prop where
  done : ∀ s' n, s.importExport text = ⟨s', .ok n⟩ → n = (exportRecords text).length ∧
    ∃ xs, List.Forall₂ (RecordStates (exportColumns text)) (exportRecords text) xs ∧
      s.Merges xs s' ∧ s.AnswersLast xs s'
  stopped : ∀ s' e, s.importExport text = ⟨s', .error e⟩ → ∃ before fields after,
    exportRecords text = before ++ fields :: after ∧ e.line = before.length + 2 ∧
      e.IsAt (exportColumns text) fields ∧
      ∃ text' : String, text'.toList <+: text.toList ∧ exportColumns text' = exportColumns text ∧
        exportRecords text' = before ∧ s.importExport text' = ⟨s', .ok before.length⟩
  imported : ∀ xs, List.Forall₂ (RecordStates (exportColumns text)) (exportRecords text) xs →
    ∃ s', s.importExport text = ⟨s', .ok xs.length⟩ ∧ s.Merges xs s' ∧ s.AnswersLast xs s'

/-- An import merges what the rows state, and the last row about a key wins. One that stops leaves
what importing the rows before leaves. -/
theorem importExport_last_wins (s : Snapshot) (text : String) : s.ImportsLast text := by
  refine ⟨fun s' n h => ?_, fun s' e h => ?_, fun xs hxs => ?_⟩
  · rw [importExport_eq] at h
    obtain ⟨hn, xs, hxs, rfl⟩ := stated_of_importRows h
    have hmerges := merges_foldl s xs
    exact ⟨by rw [hn, Nat.zero_add], xs, hxs, hmerges, hmerges.answersLast⟩
  · rw [importExport_eq] at h
    obtain ⟨before, fields, after, hrows, hline, hat, hbefore⟩ := stopped_of_importRows h
    rw [Nat.zero_add] at hline hbefore
    obtain ⟨text', hbeginning, hcolumns, hrecords⟩ := exists_export_before hrows
    refine ⟨before, fields, after, hrows, hline, hat, text', hbeginning, hcolumns, hrecords, ?_⟩
    rw [importExport_eq, hcolumns, hrecords, hbefore]
  · have hmerges := merges_foldl s xs
    refine ⟨xs.foldl record s, ?_, hmerges, hmerges.answersLast⟩
    rw [importExport_eq, importRows_of_states hxs, Nat.zero_add]

/-- Activity 7 was recorded twice, before and after activity 8. -/
def doubledSnapshot : Snapshot :=
  let first := (Instant.ofDate? ⟨2024, 4, 1⟩ 0).get (by decide)
  let second := (Instant.ofDate? ⟨2024, 4, 2⟩ 0).get (by decide)
  { empty with activityCompletions :=
    [⟨⟨7⟩, ⟨11⟩, .incomplete, first⟩, ⟨⟨8⟩, ⟨11⟩, .complete, first⟩,
      ⟨⟨7⟩, ⟨11⟩, .completeFail, second⟩] }

/-- Two rows about activity 7, with one about the course of the same number between them. -/
def doubledRows : String :=
  "kind,target,learner,state,completed_at\nactivity,7,11,fail,2024-04-03\n" ++
    "course,7,11,,2024-04-04\nactivity,7,11,pass,2024-04-05\n"

/-- The same, then a row of a kind that there is not, then one more about activity 7. -/
def refusedRows : String := doubledRows ++ "exam,7,11,,\nactivity,7,11,,2024-04-07\n"

def doubledColumns : List String := ["kind", "target", "learner", "state", "completed_at"]

def doubledRecords : List (List String) :=
  [["activity", "7", "11", "fail", "2024-04-03"], ["course", "7", "11", "", "2024-04-04"],
    ["activity", "7", "11", "pass", "2024-04-05"]]

theorem records_doubledRows :
    Text.Delimited.records doubledRows = doubledColumns :: doubledRecords := by decide +kernel

theorem records_refusedRows : Text.Delimited.records refusedRows =
    doubledColumns :: (doubledRecords ++
      [["exam", "7", "11", "", ""], ["activity", "7", "11", "", "2024-04-07"]]) := by
  decide +kernel

def doubledStatements : List Statement :=
  let third := (Instant.ofDate? ⟨2024, 4, 3⟩ 0).get (by decide)
  let fourth := (Instant.ofDate? ⟨2024, 4, 4⟩ 0).get (by decide)
  let fifth := (Instant.ofDate? ⟨2024, 4, 5⟩ 0).get (by decide)
  [.activity ⟨⟨7⟩, ⟨11⟩, .completeFail, third⟩, .course ⟨⟨7⟩, ⟨11⟩, fourth⟩,
    .activity ⟨⟨7⟩, ⟨11⟩, .completePass, fifth⟩]

theorem recordStates_doubled : List.Forall₂ (RecordStates (exportColumns doubledRows))
    (exportRecords doubledRows) doubledStatements := by
  rw [exportColumns, exportRecords, records_doubledRows]
  refine .cons ⟨⟨"activity", 7, 11, some "fail", some "2024-04-03", none⟩, ?_, ?_⟩
    (.cons ⟨⟨"course", 7, 11, none, some "2024-04-04", none⟩, ?_, ?_⟩
    (.cons ⟨⟨"activity", 7, 11, some "pass", some "2024-04-05", none⟩, ?_, ?_⟩ .nil))
  · decide +kernel
  · exact ⟨by decide, rfl, ⟨_, rfl, by decide +kernel⟩, .inr ⟨_, rfl, by decide +kernel⟩⟩
  · decide +kernel
  · exact ⟨by decide, rfl, _, rfl, by decide +kernel⟩
  · decide +kernel
  · exact ⟨by decide, rfl, ⟨_, rfl, by decide +kernel⟩, .inr ⟨_, rfl, by decide +kernel⟩⟩

/-- Of all that is said about activity 7 the last row counts, and of an export with a row that is
refused the last one before it. -/
theorem importExport_last_wins_doubled :
    let first := (Instant.ofDate? ⟨2024, 4, 1⟩ 0).get (by decide)
    let fourth := (Instant.ofDate? ⟨2024, 4, 4⟩ 0).get (by decide)
    let fifth := (Instant.ofDate? ⟨2024, 4, 5⟩ 0).get (by decide)
    ∃ s', doubledSnapshot.importExport doubledRows = ⟨s', .ok 3⟩ ∧
      s'.activityCompletions =
        [⟨⟨8⟩, ⟨11⟩, .complete, first⟩, ⟨⟨7⟩, ⟨11⟩, .completePass, fifth⟩] ∧
      s'.answer (.activityCompletion ⟨7⟩ ⟨11⟩) = some ⟨.completePass, fifth⟩ ∧
      s'.answer (.activityCompletion ⟨8⟩ ⟨11⟩) = some ⟨.complete, first⟩ ∧
      s'.answer (.courseCompletion ⟨7⟩ ⟨11⟩) = some fourth ∧
      doubledSnapshot.importExport refusedRows =
        ⟨s', .error (.invalidRow 5 (.unknownKind "exam"))⟩ := by
  intro first fourth fifth
  obtain ⟨s', himport, -, hanswers⟩ :=
    (importExport_last_wins doubledSnapshot doubledRows).imported _ recordStates_doubled
  refine ⟨s', himport, ?_, hanswers.activity ⟨7⟩ ⟨11⟩, hanswers.activity ⟨8⟩ ⟨11⟩,
    hanswers.course ⟨7⟩ ⟨11⟩, ?_⟩
  · have hs' : s' = (doubledSnapshot.importExport doubledRows).snapshot := by rw [himport]
    rw [hs', importExport, records_doubledRows]
    decide +kernel
  · have hresult : (doubledSnapshot.importExport refusedRows).result =
        .error (.invalidRow 5 (.unknownKind "exam")) := by
      rw [importExport, records_refusedRows]
      decide +kernel
    obtain ⟨t, hrefused⟩ : ∃ t, doubledSnapshot.importExport refusedRows =
        ⟨t, .error (.invalidRow 5 (.unknownKind "exam"))⟩ := ⟨_, by rw [← hresult]⟩
    obtain ⟨before, fields, after, hrows, hline, -, text', -, hcolumns, hbefore, htext'⟩ :=
      (importExport_last_wins doubledSnapshot refusedRows).stopped _ _ hrefused
    -- The rows before the refused one are those of the other export.
    have hthree : doubledRecords.length = before.length := by
      change 5 = before.length + 2 at hline
      change 3 = before.length
      omega
    rw [exportRecords, records_refusedRows, List.tail_cons] at hrows
    have hsame : doubledSnapshot.importExport text' = doubledSnapshot.importExport doubledRows := by
      refine importExport_congr _ (hcolumns.trans ?_) (hbefore.trans ?_)
      · rw [exportColumns, exportColumns, records_refusedRows, records_doubledRows]
        rfl
      · rw [exportRecords, records_doubledRows, List.tail_cons, (List.append_inj hrows hthree).1]
    rw [hsame, himport] at htext'
    have ht : s' = t := congrArg Imported.snapshot htext'
    rw [hrefused, ht]

end Snapshot

end Badging
