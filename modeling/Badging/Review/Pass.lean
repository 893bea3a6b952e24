import Badging.Review.Learner

/-!
# Review passes

A pass reviews every badge that is available and has requirements, for every learner to whom it
could be issued. A badge of a course is left out while the course is hidden or has not
started. A learner whose review fails does not keep the others from theirs, and a badge whose
course or candidates cannot be found out does not keep the others from theirs; what failed
is stated in the report. Only if the badges cannot be listed there is no report.

Reports add up: the report of a pass is the sum of the reports of its badges, and that of a
badge the sum over its learners.
-/

namespace Badging

namespace Review

/-- A review that failed: for a learner, or for a badge as a whole. -/
structure Failure where
  badge : BadgeId
  learner : Option LearnerId
  cause : ReviewError
deriving DecidableEq, Repr

structure Report where
  badgesReviewed : Nat
  learnersEvaluated : Nat
  awardsIssued : Nat
  failures : List Failure
deriving DecidableEq, Repr

namespace Report

def empty : Report := ⟨0, 0, 0, []⟩

/-- What two reports state together, the failures of the first before those of the second. -/
def add (r s : Report) : Report :=
  ⟨r.badgesReviewed + s.badgesReviewed, r.learnersEvaluated + s.learnersEvaluated,
    r.awardsIssued + s.awardsIssued, r.failures ++ s.failures⟩

instance : Add Report := ⟨add⟩

/-- A badge whose learners could not be reviewed. -/
def ofBadgeFailure (b : BadgeId) (e : SourceError) : Report := ⟨0, 0, 0, [⟨b, none, .source e⟩]⟩

def ofBadge : Report := ⟨1, 0, 0, []⟩

def ofLearner (b : BadgeId) (l : LearnerId) : Except ReviewError Outcome → Report
  | .ok outcome => ⟨0, 1, if outcome.isAwarded then 1 else 0, []⟩
  | .error e => ⟨0, 1, 0, [⟨b, some l, e⟩]⟩

def summary (r : Report) : String :=
  "reviewed " ++ Number.integerText r.badgesReviewed ++ " badge(s) for " ++
    Number.integerText r.learnersEvaluated ++ " learner(s): " ++
    Number.integerText r.awardsIssued ++ " award(s) issued, " ++
    Number.integerText r.failures.length ++ " failure(s)"

@[simp] theorem empty_add (r : Report) : empty + r = r := by
  show add empty r = r
  simp [add, empty]

@[simp] theorem add_empty (r : Report) : r + empty = r := by
  show add r empty = r
  simp [add, empty]

@[simp] theorem badgesReviewed_add (r s : Report) :
    (r + s).badgesReviewed = r.badgesReviewed + s.badgesReviewed := rfl

@[simp] theorem learnersEvaluated_add (r s : Report) :
    (r + s).learnersEvaluated = r.learnersEvaluated + s.learnersEvaluated := rfl

@[simp] theorem badgesReviewed_ofLearner (b : BadgeId) (l : LearnerId)
    (outcome : Except ReviewError Outcome) : (ofLearner b l outcome).badgesReviewed = 0 := by
  cases outcome <;> rfl

@[simp] theorem learnersEvaluated_ofLearner (b : BadgeId) (l : LearnerId)
    (outcome : Except ReviewError Outcome) : (ofLearner b l outcome).learnersEvaluated = 1 := by
  cases outcome <;> rfl

end Report

variable {σ : Type} [Store σ]

def learners {ε : Type} (b : Badge) (now : Instant) : List LearnerId → Run σ ε Report
  | [] => return .empty
  | l :: ls => do
    let outcome ← Run.attempt (learner b l now)
    let rest ← learners b now ls
    return .ofLearner b.id l outcome + rest

/-- Whether a badge is to be reviewed now: it is available, it requires something, and its course,
if it has one, is visible and has started. -/
def isReviewable (b : Badge) (now : Instant) : Run σ SourceError Bool :=
  if b.status.isActive && b.hasCriteria then
    match b.owner with
    | .site => return true
    | .course c => do
      let found ← Run.ask (.course c)
      return found.any fun info => info.visible && info.hasStarted now
  else return false

/-- Reviews a badge for its candidates, if it is to be reviewed. -/
def badge {ε : Type} (b : Badge) (now : Instant) : Run σ ε Report := do
  match ← Run.attempt (isReviewable b now) with
  | .error e => return .ofBadgeFailure b.id e
  | .ok false => return .empty
  | .ok true =>
    match ← Run.attempt (Run.ask (.candidates b)) with
    | .error e => return .ofBadgeFailure b.id e
    | .ok candidates =>
      let report ← learners b now candidates
      return .ofBadge + report

def badges {ε : Type} (now : Instant) : List Badge → Run σ ε Report
  | [] => return .empty
  | b :: bs => do
    let report ← badge b now
    let rest ← badges now bs
    return report + rest

def pass (now : Instant) : Run σ ReviewError Report := do
  let stored ← call .badges
  badges now stored

end Review

end Badging
