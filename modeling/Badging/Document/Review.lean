import Badging.Document.Badge
import Badging.Review.Pass
import Badging.Review.Progress

/-!
# Documents: what came of reviews

Outcomes, reports and progress are only written, never read.
-/

namespace Badging

open Json

namespace Review

/-- The outcome of a learner's review; an award is stated with all its fields. -/
def Outcome.toJson : Outcome → Json
  | .awarded a => .record (("outcome", .text "awarded") :: a.jsonFields)
  | .pending met total =>
    .record [("outcome", .text "pending"), ("met", .int met), ("total", .int total)]
  | .alreadyAwarded => .record [("outcome", .text "already_awarded")]

/-- A failure; the learner is left out when the badge as a whole failed. -/
def Failure.toJson (f : Failure) : Json :=
  .record ([("badge_id", f.badge.toJson)] ++
    (match f.learner with
      | none => []
      | some l => [("learner_id", l.toJson)]) ++
    [("message", .text f.cause.message)])

def Report.learnerFields (r : Report) : List (String × Json) :=
  [("learners_evaluated", .int r.learnersEvaluated), ("awards_issued", .int r.awardsIssued),
    ("failures", .list Failure.toJson r.failures)]

def Report.toJson (r : Report) : Json :=
  .record (("badges_reviewed", .int r.badgesReviewed) :: r.learnerFields)

end Review

/-- Progress; the token is left out when there is no award. -/
def Progress.toJson (p : Progress) : Json :=
  .record ([("badge_id", p.badge.toJson), ("learner_id", p.learner.toJson),
    ("status", .text p.status), ("criteria_met", .int p.criteriaMet),
    ("criteria_total", .int p.criteriaTotal)] ++
    (match p.token with
      | none => []
      | some token => [("token", .text token)]))

end Badging
