import Badging.Facts.Query
import Badging.Text.Case

/-!
# Snapshots of facts

A snapshot is a copy of what the other systems know, in flat lists. It answers every
question: of several entries for one key the first counts. The operations that record a
completion, a grade or a profile value drop the entries of the same key and append the new one,
so after them there is one entry, the last that was recorded; a list that was loaded as it
is may hold more.
-/

namespace Badging

structure ActivityCompletionEntry where
  activity : ActivityId
  learner : LearnerId
  state : CompletionState
  completedAt : Instant
deriving DecidableEq, Repr

structure CourseCompletionEntry where
  course : CourseId
  learner : LearnerId
  completedAt : Instant
deriving DecidableEq, Repr

structure GradeEntry where
  course : CourseId
  learner : LearnerId
  grade : Binary64
deriving DecidableEq

structure ProfileValueEntry where
  learner : LearnerId
  field : Criterion.ProfileField
  value : String
deriving DecidableEq, Repr

structure SocialConnection where
  learner : LearnerId
  network : String
deriving DecidableEq, Repr

structure Enrolment where
  course : CourseId
  learner : LearnerId
deriving DecidableEq, Repr

def ActivityCompletionEntry.agrees (e x : ActivityCompletionEntry) : Bool :=
  x.activity == e.activity && x.learner == e.learner

def CourseCompletionEntry.agrees (e x : CourseCompletionEntry) : Bool :=
  x.course == e.course && x.learner == e.learner

def GradeEntry.agrees (e x : GradeEntry) : Bool :=
  x.course == e.course && x.learner == e.learner

def ProfileValueEntry.agrees (e x : ProfileValueEntry) : Bool :=
  x.learner == e.learner && x.field == e.field

/-- What the other systems know at one point in time. -/
structure Snapshot where
  activities : List ActivityInfo
  activityCompletions : List ActivityCompletionEntry
  courses : List CourseInfo
  courseCompletions : List CourseCompletionEntry
  grades : List GradeEntry
  roles : Register RoleId Unit
  profileFields : Register Criterion.ProfileField Unit
  profileValues : List ProfileValueEntry
  socialConnections : List SocialConnection
  siteLearners : Register LearnerId Unit
  enrolments : List Enrolment
deriving DecidableEq

namespace Register

variable {κ : Type} [Ord κ] [Std.TransOrd κ]

/-- A register without values is a set of keys; this adds one. -/
def add (r : Register κ Unit) (k : κ) : Register κ Unit := r.insert k ()

def ofKeys (ks : List κ) : Register κ Unit := ks.foldl add empty

end Register

namespace Snapshot

def empty : Snapshot := ⟨[], [], [], [], [], .empty, .empty, [], [], .empty, []⟩

instance : Inhabited Snapshot := ⟨empty⟩

/-- Drops the items that pass a test and appends a new one. -/
def replaceLast {α : Type} (same : α → Bool) (a : α) (as : List α) : List α :=
  as.filter (!same ·) ++ [a]

/-- Adds an activity with tracking and a name made of its number. -/
def withActivity (s : Snapshot) (activity : ActivityId) (course : CourseId) : Snapshot :=
  { s with activities := s.activities ++ [⟨activity, course, "activity " ++ activity.text, true⟩] }

def withCourse (s : Snapshot) (course : CourseId) (start : Option Instant) : Snapshot :=
  { s with courses := s.courses ++ [⟨course, true, start⟩] }

def withRole (s : Snapshot) (role : RoleId) : Snapshot := { s with roles := s.roles.add role }

def withProfileField (s : Snapshot) (field : Criterion.ProfileField) : Snapshot :=
  { s with profileFields := s.profileFields.add field }

def withSiteLearner (s : Snapshot) (learner : LearnerId) : Snapshot :=
  { s with siteLearners := s.siteLearners.add learner }

def enrol (s : Snapshot) (course : CourseId) (learner : LearnerId) : Snapshot :=
  { s with enrolments := s.enrolments ++ [⟨course, learner⟩] }

def recordActivity (s : Snapshot) (e : ActivityCompletionEntry) : Snapshot :=
  { s with activityCompletions := replaceLast e.agrees e s.activityCompletions }

def recordCourse (s : Snapshot) (e : CourseCompletionEntry) : Snapshot :=
  { s with courseCompletions := replaceLast e.agrees e s.courseCompletions }

def recordGrade (s : Snapshot) (e : GradeEntry) : Snapshot :=
  { s with grades := replaceLast e.agrees e s.grades }

def recordValue (s : Snapshot) (e : ProfileValueEntry) : Snapshot :=
  { s with profileValues := replaceLast e.agrees e s.profileValues }

/-- Connects a learner to a network, whose name is kept in small letters. -/
def connect (s : Snapshot) (learner : LearnerId) (network : String) : Snapshot :=
  { s with socialConnections := s.socialConnections ++ [⟨learner, Text.lower network⟩] }

/-- The learners to whom a badge could be issued: those of its course, or all of the site. -/
def candidates (s : Snapshot) (badge : Badge) : List LearnerId :=
  match badge.owner with
  | .site => s.siteLearners.keys
  | .course c =>
    (Register.ofKeys ((s.enrolments.filter (·.course == c)).map (·.learner))).keys

def answer (s : Snapshot) : (q : Query) → q.Answer
  | .activity a => s.activities.find? (·.activity == a)
  | .activityCompletion a l =>
    (s.activityCompletions.find? fun e => e.activity == a && e.learner == l).map
      fun e => ⟨e.state, e.completedAt⟩
  | .course c => s.courses.find? (·.course == c)
  | .courseCompletion c l =>
    (s.courseCompletions.find? fun e => e.course == c && e.learner == l).map (·.completedAt)
  | .courseGrade c l =>
    (s.grades.find? fun e => e.course == c && e.learner == l).map (·.grade)
  | .roleExists r => s.roles.contains r
  | .fieldExists f => s.profileFields.contains f
  | .fieldValue f l =>
    (s.profileValues.find? fun e => e.learner == l && e.field == f).map (·.value)
  | .connected n l => s.socialConnections.any fun e => e.learner == l && Text.alike e.network n
  | .candidates b => s.candidates b

/-- A snapshot as a source, which never fails. -/
def source (s : Snapshot) : FactSource := fun q => .ok (s.answer q)

end Snapshot

end Badging
