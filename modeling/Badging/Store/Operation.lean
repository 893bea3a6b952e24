import Badging.Award
import Badging.Criterion.Reading
import Badging.Criterion.Rendering

/-!
# What a store does

A store keeps badges with their criteria, met records, manual awards and awards. `Operation`
lists what can be asked of it and `Operation.Answer` the type of each answer. A store is a type
of states with `perform`, which either answers and gives the next state, or refuses; a
refusal gives no state, so nothing can have changed.

The inserts of rows that may be there only once answer whether the row is new. That an award is
issued once rests on this answer alone.
-/

namespace Badging

/-- Why a store refuses an operation. -/
inductive StoreError where
  | conflict
  | notFound
  | locked (badge : BadgeId)
  | criterion (e : Criterion.Error)
  | unavailable (reason : String)
deriving DecidableEq, Repr

def StoreError.message : StoreError → String
  | .conflict => "record already exists"
  | .notFound => "record not found"
  | .locked b => "badge " ++ b.text ++ " is locked or archived; its criteria can no longer change"
  | .criterion e => e.message
  | .unavailable reason => "repository unavailable: " ++ reason

/-- What can be asked of a store. -/
inductive Operation where
  | insertBadge (new : NewBadge)
  | badge (id : BadgeId)
  | badges
  | setStatus (id : BadgeId) (status : Status)
  | deleteBadge (id : BadgeId)
  | addCriterion (badge : BadgeId) (record : Criterion.Record)
  | deleteCriterion (id : CriterionId)
  | criterionMet (criterion : CriterionId) (learner : LearnerId)
  | metRecords (badge : BadgeId) (learner : LearnerId)
  | markMet (record : MetRecord)
  | recordManual (award : ManualAward)
  | manualExists (badge : BadgeId) (learner : LearnerId) (role : RoleId)
  | award (badge : BadgeId) (learner : LearnerId)
  | awards (badge : BadgeId)
  | insertAward (award : Award)
deriving DecidableEq

@[reducible] def Operation.Answer : Operation → Type
  | .insertBadge _ => Badge
  | .badge _ => Option Badge
  | .badges => List Badge
  | .setStatus _ _ => Unit
  | .deleteBadge _ => Unit
  | .addCriterion _ _ => Criterion
  | .deleteCriterion _ => Unit
  | .criterionMet _ _ => Option MetRecord
  | .metRecords _ _ => List MetRecord
  | .markMet _ => Bool
  | .recordManual _ => Bool
  | .manualExists _ _ _ => Bool
  | .award _ _ => Option Award
  | .awards _ => List Award
  | .insertAward _ => Bool

/-- States on which the operations can be performed. An operation is one step, also where it changes
several tables in one transaction: it is done as a whole or not at all. -/
class Store (σ : Type) where
  /-- The answer and the state after it, or why the operation is refused. There is no state beside
  an error, so that a refusal changes nothing is part of the type. -/
  perform : (op : Operation) → σ → Except StoreError (op.Answer × σ)

namespace Store

variable {σ : Type} [Store σ]

/-- Performs an operation as one step of a run: the outcome and the state after it. -/
def step (op : Operation) (s : σ) : Except StoreError op.Answer × σ :=
  match perform op s with
  | .ok (a, s') => (.ok a, s')
  | .error e => (.error e, s)

/-- The state after a list of operations, whether each was refused or not. -/
def run (s : σ) (ops : List Operation) : σ := ops.foldl (fun s op => (step op s).2) s

@[simp] theorem run_nil (s : σ) : run s [] = s := rfl

theorem run_cons (s : σ) (op : Operation) (ops : List Operation) :
    run s (op :: ops) = run (step op s).2 ops := rfl

theorem run_append (s : σ) (ops ops' : List Operation) :
    run s (ops ++ ops') = run (run s ops) ops' := by
  simp [run, List.foldl_append]

end Store

/-- Builds a criterion for a badge to which it may be added: the badge is editable, the record is
well formed, and there is at most one overall criterion. -/
def Badge.prepare (b : Badge) (id : CriterionId) (r : Criterion.Record) :
    Except StoreError Criterion :=
  if !b.isEditable then .error (.locked b.id)
  else match Criterion.ofRecord id b.id r with
    | .error e => .error (.criterion e)
    | .ok c => if c.isOverall && b.overall?.isSome then .error .conflict else .ok c

theorem Badge.prepare_eq_ok_iff {b : Badge} {id : CriterionId} {r : Criterion.Record}
    {c : Criterion} :
    b.prepare id r = .ok c ↔ b.isEditable = true ∧ Criterion.ofRecord id b.id r = .ok c ∧
      ¬ (c.isOverall = true ∧ b.overall?.isSome = true) := by
  unfold Badge.prepare
  cases hb : b.isEditable with
  | false => simp
  | true =>
    cases hc : Criterion.ofRecord id b.id r with
    | error e => simp
    | ok d =>
      cases ho : d.isOverall && b.overall?.isSome with
      | false => grind
      | true => grind

end Badging
