import Badging.Run

/-!
# Definitions of badges

A definition describes a badge with the records of its criteria, and says whether the badge is
to be made available at once. Creating the badge either leaves all of it in the store or,
provided that the store does what it is asked, nothing of it: when a criterion is refused or
the badge cannot be activated, the badge is deleted again.

A document holds one definition or several. Importing stops at the first that cannot be
created, and the badges before it stay.
-/

namespace Badging

/-- A badge as it is described outside the store. -/
structure Definition where
  name : String
  owner : Owner
  expiry : Expiry
  activate : Bool
  criteria : List Criterion.Record
deriving DecidableEq

inductive DefinitionError where
  | notJson
  | store (e : StoreError)
  | lifecycle (e : LifecycleError)
deriving DecidableEq, Repr

/-- The error in words; what is wrong with JSON is not told. -/
def DefinitionError.message : DefinitionError → String
  | .notJson => "invalid badge definition JSON: "
  | .store e => e.message
  | .lifecycle e => e.message

namespace Definition

def newBadge (d : Definition) : NewBadge := ⟨d.name, d.owner, d.expiry⟩

variable {σ : Type} [Store σ]

def call (op : Operation) : Run σ DefinitionError op.Answer :=
  (Run.perform op).mapError .store

def addCriteria (b : Badge) : List Criterion.Record → Run σ DefinitionError Badge
  | [] => return b
  | r :: rs => do
    let c ← call (.addCriterion b.id r)
    addCriteria { b with criteria := b.criteria ++ [c] } rs

/-- Gives a new badge its criteria, and makes it available if the definition says so. -/
def configure (b : Badge) (d : Definition) : Run σ DefinitionError Badge := do
  let b ← addCriteria b d.criteria
  if d.activate then
    match b.activate with
    | .error e => Run.fail (.lifecycle e)
    | .ok b =>
      call (.setStatus b.id b.status)
      return b
  else return b

def create (d : Definition) : Run σ DefinitionError Badge := do
  let b ← call (.insertBadge d.newBadge)
  match ← Run.attempt (configure b d) with
  | .ok b => return b
  | .error e =>
    let _ ← Run.attempt (Run.perform (.deleteBadge b.id))
    Run.fail e

/-- Creates the badges of definitions in order, up to the first that fails. -/
def createAll : List Definition → Run σ DefinitionError (List Badge)
  | [] => return []
  | d :: ds => do
    let b ← d.create
    let bs ← createAll ds
    return b :: bs

end Definition

end Badging
