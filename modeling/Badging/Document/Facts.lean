import Badging.Document.Badge
import Badging.Facts.Export

/-!
# Documents: facts

A snapshot is a record of eleven lists, each of which may be left out. Three of them are sets
and are written in ascending order.
-/

namespace Badging

open Json

def CompletionState.toJson (s : CompletionState) : Json := .text s.label

def CompletionState.ofJson? (v : Json) : Option CompletionState :=
  (plainVariant? v).bind ofLabel?

def ActivityInfo.toJson (a : ActivityInfo) : Json :=
  .record [("module", a.activity.toJson), ("course", a.course.toJson), ("name", .text a.name),
    ("completion_tracked", .bool a.completionTracked)]

/-- An activity that is read may lack a name, and is tracked unless it says otherwise. -/
def ActivityInfo.ofJson? (v : Json) : Option ActivityInfo := do
  let [activity, course, name, tracked] ← members? [⟨"module", false⟩, ⟨"course", false⟩,
    ⟨"name", true⟩, ⟨"completion_tracked", true⟩] v | none
  let activity ← required Ident.ofJson? activity
  let course ← required Ident.ofJson? course
  let name ← defaulted "" text? name
  let tracked ← defaulted true bool? tracked
  some ⟨activity, course, name, tracked⟩

def Completion.toJson (c : Completion) : Json :=
  .record [("state", c.state.toJson), ("completed_at", c.completedAt.toJson)]

def CourseInfo.toJson (c : CourseInfo) : Json :=
  .record [("course", c.course.toJson), ("visible", .bool c.visible),
    ("start", .option Instant.toJson c.start)]

/-- A course that is read is visible unless it says otherwise. -/
def CourseInfo.ofJson? (v : Json) : Option CourseInfo := do
  let [course, visible, start] ←
    members? [⟨"course", false⟩, ⟨"visible", true⟩, ⟨"start", false⟩] v | none
  let course ← required Ident.ofJson? course
  let visible ← defaulted true bool? visible
  let start ← optional Instant.ofJson? start
  some ⟨course, visible, start⟩

def ActivityCompletionEntry.toJson (e : ActivityCompletionEntry) : Json :=
  .record [("module", e.activity.toJson), ("learner", e.learner.toJson),
    ("state", e.state.toJson), ("completed_at", e.completedAt.toJson)]

def ActivityCompletionEntry.ofJson? (v : Json) : Option ActivityCompletionEntry := do
  let [activity, learner, state, completedAt] ← members? [⟨"module", false⟩,
    ⟨"learner", false⟩, ⟨"state", false⟩, ⟨"completed_at", false⟩] v | none
  let activity ← required Ident.ofJson? activity
  let learner ← required Ident.ofJson? learner
  let state ← required CompletionState.ofJson? state
  let completedAt ← required Instant.ofJson? completedAt
  some ⟨activity, learner, state, completedAt⟩

def CourseCompletionEntry.toJson (e : CourseCompletionEntry) : Json :=
  .record [("course", e.course.toJson), ("learner", e.learner.toJson),
    ("completed_at", e.completedAt.toJson)]

def CourseCompletionEntry.ofJson? (v : Json) : Option CourseCompletionEntry := do
  let [course, learner, completedAt] ←
    members? [⟨"course", false⟩, ⟨"learner", false⟩, ⟨"completed_at", false⟩] v | none
  let course ← required Ident.ofJson? course
  let learner ← required Ident.ofJson? learner
  let completedAt ← required Instant.ofJson? completedAt
  some ⟨course, learner, completedAt⟩

def GradeEntry.toJson (e : GradeEntry) : Json :=
  .record [("course", e.course.toJson), ("learner", e.learner.toJson),
    ("grade", e.grade.toJson)]

def GradeEntry.ofJson? (v : Json) : Option GradeEntry := do
  let [course, learner, grade] ←
    members? [⟨"course", false⟩, ⟨"learner", false⟩, ⟨"grade", false⟩] v | none
  let course ← required Ident.ofJson? course
  let learner ← required Ident.ofJson? learner
  let grade ← required binary64? grade
  some ⟨course, learner, grade⟩

def ProfileValueEntry.toJson (e : ProfileValueEntry) : Json :=
  .record [("learner", e.learner.toJson), ("field", e.field.toJson), ("value", .text e.value)]

def ProfileValueEntry.ofJson? (v : Json) : Option ProfileValueEntry := do
  let [learner, field, value] ←
    members? [⟨"learner", false⟩, ⟨"field", false⟩, ⟨"value", false⟩] v | none
  let learner ← required Ident.ofJson? learner
  let field ← required Criterion.ProfileField.ofJson? field
  let value ← required text? value
  some ⟨learner, field, value⟩

def SocialConnection.toJson (c : SocialConnection) : Json :=
  .record [("learner", c.learner.toJson), ("network", .text c.network)]

def SocialConnection.ofJson? (v : Json) : Option SocialConnection := do
  let [learner, network] ← members? [⟨"learner", false⟩, ⟨"network", false⟩] v | none
  let learner ← required Ident.ofJson? learner
  let network ← required text? network
  some ⟨learner, network⟩

def Enrolment.toJson (e : Enrolment) : Json :=
  .record [("course", e.course.toJson), ("learner", e.learner.toJson)]

def Enrolment.ofJson? (v : Json) : Option Enrolment := do
  let [course, learner] ← members? [⟨"course", false⟩, ⟨"learner", false⟩] v | none
  let course ← required Ident.ofJson? course
  let learner ← required Ident.ofJson? learner
  some ⟨course, learner⟩

namespace Snapshot

def toJson (s : Snapshot) : Json :=
  .record [("activities", .list ActivityInfo.toJson s.activities),
    ("activity_completions", .list ActivityCompletionEntry.toJson s.activityCompletions),
    ("courses", .list CourseInfo.toJson s.courses),
    ("course_completions", .list CourseCompletionEntry.toJson s.courseCompletions),
    ("grades", .list GradeEntry.toJson s.grades),
    ("roles", .list Ident.toJson s.roles.keys),
    ("profile_fields", .list Criterion.ProfileField.toJson s.profileFields.keys),
    ("profile_values", .list ProfileValueEntry.toJson s.profileValues),
    ("social_connections", .list SocialConnection.toJson s.socialConnections),
    ("site_learners", .list Ident.toJson s.siteLearners.keys),
    ("enrolments", .list Enrolment.toJson s.enrolments)]

def memberNames : List String :=
  ["activities", "activity_completions", "courses", "course_completions", "grades", "roles",
    "profile_fields", "profile_values", "social_connections", "site_learners", "enrolments"]

/-- A list that is left out is empty. -/
def ofJson? (v : Json) : Option Snapshot := do
  let [activities, activityCompletions, courses, courseCompletions, grades, roles, fields,
    values, connections, siteLearners, enrolments] ←
      members? (memberNames.map fun name => ⟨name, true⟩) v | none
  let activities ← defaulted [] (list? ActivityInfo.ofJson?) activities
  let activityCompletions ←
    defaulted [] (list? ActivityCompletionEntry.ofJson?) activityCompletions
  let courses ← defaulted [] (list? CourseInfo.ofJson?) courses
  let courseCompletions ← defaulted [] (list? CourseCompletionEntry.ofJson?) courseCompletions
  let grades ← defaulted [] (list? GradeEntry.ofJson?) grades
  let roles ← defaulted .empty (set? Ident.ofJson?) roles
  let fields ← defaulted .empty (set? Criterion.ProfileField.ofJson?) fields
  let values ← defaulted [] (list? ProfileValueEntry.ofJson?) values
  let connections ← defaulted [] (list? SocialConnection.ofJson?) connections
  let siteLearners ← defaulted .empty (set? Ident.ofJson?) siteLearners
  let enrolments ← defaulted [] (list? Enrolment.ofJson?) enrolments
  some ⟨activities, activityCompletions, courses, courseCompletions, grades, roles, fields,
    values, connections, siteLearners, enrolments⟩

def load (text : String) : Except SnapshotError Snapshot :=
  match (parse? text).bind ofJson? with
  | some s => .ok s
  | none => .error .notJson

end Snapshot

end Badging
