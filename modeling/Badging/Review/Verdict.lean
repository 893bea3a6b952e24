import Badging.Run
import Badging.Text.Blank

/-!
# Verdicts on criteria

Whether a learner satisfies a criterion is found out by asking: the conditions are checked in
order by the method of the criterion, and each check asks only as far as it has to. Something
that does not exist any more is a condition that is not met; a system that does not answer
fails the review. Reviewing a criterion writes nothing.

A cutoff is compared with the time at which the work was completed, not with the time of the
review.
-/

namespace Badging

inductive ReviewError where
  | missingOverall (badge : BadgeId)
  | source (e : SourceError)
  | store (e : StoreError)
deriving DecidableEq, Repr

def ReviewError.message : ReviewError → String
  | .missingOverall b => "badge " ++ b.text ++ " has no overall criterion"
  | .source e => e.message
  | .store e => e.message

namespace Review

open Criterion

def withinCutoff (completedAt : Instant) : Option Instant → Bool
  | none => true
  | some cutoff => decide (completedAt ≤ cutoff)

/-- A completion that counts, before the cutoff if there is one. -/
def completes (byDate : Option Instant) : Option Completion → Bool
  | none => false
  | some c => c.state.isComplete && withinCutoff c.completedAt byDate

def reaches (lowest : Binary64) : Option Binary64 → Bool
  | none => false
  | some grade => Binary64.le lowest grade

/-- A value that is more than blanks. A picture that was not set is stored as zero. -/
def filled (field : ProfileField) : Option String → Bool
  | none => false
  | some value =>
    let text := Text.trim value
    text != "" && !(text == "0" && field == .core "picture")

variable {σ : Type} [Store σ]

def call (op : Operation) : Run σ ReviewError op.Answer := (Run.perform op).mapError .store

def ask (q : Query) : Run σ ReviewError q.Answer := (Run.ask q).mapError .source

/-- Checks a condition on an activity: it exists, it is tracked, and the learner completed it. -/
def activityMet (l : LearnerId) (c : ActivityCondition) : Run σ ReviewError Bool := do
  let found ← ask (.activity c.activity)
  if found.any (·.completionTracked) then
    let completion ← ask (.activityCompletion c.activity l)
    return completes c.byDate completion
  else return false

/-- Checks a condition on a course: it exists, the learner completed it in time, and the grade is
high enough. The grade is asked for only if it matters. -/
def courseMet (l : LearnerId) (c : CourseCondition) : Run σ ReviewError Bool := do
  let found ← ask (.course c.course)
  if found.isNone then return false
  match ← ask (.courseCompletion c.course l) with
  | none => return false
  | some completedAt =>
    match c.minGrade with
    | none => return withinCutoff completedAt c.byDate
    | some lowest =>
      let grade ← ask (.courseGrade c.course l)
      return reaches lowest grade && withinCutoff completedAt c.byDate

def roleMet (badge : BadgeId) (l : LearnerId) (role : RoleId) : Run σ ReviewError Bool := do
  if ← ask (.roleExists role) then call (.manualExists badge l role) else return false

def fieldMet (l : LearnerId) (field : ProfileField) : Run σ ReviewError Bool := do
  if ← ask (.fieldExists field) then
    let value ← ask (.fieldValue field l)
    return filled field value
  else return false

def recordedMet (l : LearnerId) (c : Criterion) : Run σ ReviewError Bool := do
  let record ← call (.criterionMet c.id l)
  return record.isSome

def checks (b : Badge) (l : LearnerId) (c : Criterion) : List (Run σ ReviewError Bool) :=
  match c.kind with
  | .overall => b.requirements.map (recordedMet l)
  | .activity conditions => conditions.map (activityMet l)
  | .manual roles => roles.map (roleMet c.badge l)
  | .social networks => networks.map fun n => ask (.connected n l)
  | .course condition => [courseMet l condition]
  | .courseSet conditions => conditions.map (courseMet l)
  | .profile fields => fields.map (fieldMet l)

/-- Whether a learner satisfies a criterion of a badge. -/
def criterion (b : Badge) (l : LearnerId) (c : Criterion) : Run σ ReviewError Bool :=
  c.method.evaluate (checks b l c)

end Review

end Badging
