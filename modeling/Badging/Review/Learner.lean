import Badging.Review.Verdict

/-!
# Reviewing a learner

The review of a learner for a badge has two phases. In the first each requirement without a met
record is checked, and one that holds gets its record. In the second the overall criterion is
checked against the records, those of the first phase among them, and if it holds the badge is
issued. So a badge is issued on the strength of what is stored, and what was met once stays
met.

The insert of the award decides whether the badge is issued: if the store already has one, the
review found out too late and ends as if it had known. After a new award the badge is locked and
the notice is sent, and neither can undo the award by failing.
-/

namespace Badging

namespace Review

inductive Outcome where
  | awarded (award : Award)
  | pending (met total : Nat)
  | alreadyAwarded
deriving DecidableEq, Repr

def Outcome.isAwarded : Outcome → Bool
  | .awarded _ => true
  | _ => false

variable {σ : Type} [Store σ]

/-- Finds out whether a requirement is met, and records it if it is for the first time. -/
def settle (b : Badge) (l : LearnerId) (now : Instant) (c : Criterion) :
    Run σ ReviewError Bool := do
  let record ← call (.criterionMet c.id l)
  if record.isSome then return true
  if ← criterion b l c then
    let _ ← call (.markMet (c.met l now))
    return true
  else return false

/-- Settles requirements in order and counts those that are met. -/
def settleAll (b : Badge) (l : LearnerId) (now : Instant) :
    List Criterion → Run σ ReviewError Nat
  | [] => return 0
  | c :: cs => do
    let met ← settle b l now c
    let rest ← settleAll b l now cs
    return if met then rest + 1 else rest

/-- Locks a badge that is stored as active. -/
def lockAwarded (b : BadgeId) : Run σ StoreError Unit := do
  match ← Run.perform (.badge b) with
  | none => return ()
  | some stored =>
    if stored.status = .active then Run.perform (.setStatus b stored.lock.status)
    else return ()

def issue (b : Badge) (l : LearnerId) (now : Instant) : Run σ ReviewError Outcome := do
  let token ← Run.freshToken
  match Award.issue b l now token with
  | .error p => Run.breakOff p
  | .ok award =>
    if ← call (.insertAward award) then
      let _ ← Run.attempt (lockAwarded b.id)
      Run.notify (award.notice b)
      return .awarded award
    else return .alreadyAwarded

def learner (b : Badge) (l : LearnerId) (now : Instant) : Run σ ReviewError Outcome := do
  let award ← call (.award b.id l)
  if award.isSome then return .alreadyAwarded
  match b.overall? with
  | none => Run.fail (.missingOverall b.id)
  | some overall =>
    let met ← settleAll b l now b.requirements
    if ← criterion b l overall then
      let _ ← call (.markMet (overall.met l now))
      issue b l now
    else return .pending met b.requirements.length

end Review

end Badging
