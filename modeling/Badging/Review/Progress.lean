import Badging.Run

/-!
# Progress

The progress of a learner towards a badge, as the store has it: how many of the requirements
have a met record, and the token of the award if there is one. Nothing is reviewed.
-/

namespace Badging

structure Progress where
  badge : BadgeId
  learner : LearnerId
  criteriaMet : Nat
  criteriaTotal : Nat
  token : Option String
deriving DecidableEq, Repr

namespace Progress

def status (p : Progress) : String := if p.token.isSome then "awarded" else "in_progress"

def ofRows (b : Badge) (l : LearnerId) (award : Option Award) (met : List MetRecord) : Progress :=
  ⟨b.id, l, b.requirements.countP fun c => met.any (·.criterion == c.id),
    b.requirements.length, award.map (·.token)⟩

def look {σ : Type} [Store σ] (b : Badge) (l : LearnerId) : Run σ StoreError Progress := do
  let award ← Run.perform (.award b.id l)
  let met ← Run.perform (.metRecords b.id l)
  return .ofRows b l award met

end Progress

end Badging
