import Badging.Badge.Expiry
import Badging.Badge.Status
import Badging.Criterion.Kind

/-!
# Badges

A badge has a name, an owner, a status, an expiry policy and criteria in the order in which
they were added. Its overall criterion says how the others combine; the others are its
requirements.

A badge moves through its life by the four transitions below. Only `activate` can be
refused: an archived badge stays archived, and a badge is made available only with exactly one
overall criterion and at least one requirement.
-/

namespace Badging

/-- What is given for a badge before it has an identity. -/
structure NewBadge where
  name : String
  owner : Owner
  expiry : Expiry
deriving DecidableEq

/-- A badge with its criteria. -/
structure Badge where
  id : BadgeId
  name : String
  owner : Owner
  status : Status
  expiry : Expiry
  criteria : List Criterion
deriving DecidableEq

/-- Why a badge cannot be made available. -/
inductive LifecycleError where
  | missingOverall (badge : BadgeId)
  | noCriteria (badge : BadgeId)
  | archived (badge : BadgeId)
deriving DecidableEq, Repr

def LifecycleError.message : LifecycleError → String
  | .missingOverall b =>
    "badge " ++ b.text ++ " needs exactly one overall criterion before it can be activated"
  | .noCriteria b => "badge " ++ b.text ++ " has no criteria besides the overall criterion"
  | .archived b => "badge " ++ b.text ++ " is archived"

namespace Badge

def ofNew (id : BadgeId) (new : NewBadge) : Badge :=
  ⟨id, new.name, new.owner, .draft, new.expiry, []⟩

def overall? (b : Badge) : Option Criterion := b.criteria.find? (·.isOverall)

/-- The criteria that are not overall ones, in order. -/
def requirements (b : Badge) : List Criterion := b.criteria.filter (!·.isOverall)

def hasCriteria (b : Badge) : Bool := !b.requirements.isEmpty

def isEditable (b : Badge) : Bool := b.status.isEditable

def activate (b : Badge) : Except LifecycleError Badge :=
  if b.status = .archived then .error (.archived b.id)
  else if b.criteria.countP (·.isOverall) ≠ 1 then .error (.missingOverall b.id)
  else if !b.hasCriteria then .error (.noCriteria b.id)
  else .ok { b with status := b.status.activated }

def deactivate (b : Badge) : Badge := { b with status := b.status.deactivated }

def lock (b : Badge) : Badge := { b with status := b.status.locked }

def archive (b : Badge) : Badge := { b with status := .archived }

/-- A change of a badge's status. -/
inductive Transition where
  | activate
  | deactivate
  | lock
  | archive
deriving DecidableEq, Repr

def apply (b : Badge) : Transition → Except LifecycleError Badge
  | .activate => b.activate
  | .deactivate => .ok b.deactivate
  | .lock => .ok b.lock
  | .archive => .ok b.archive

theorem overall?_isSome_iff {b : Badge} :
    b.overall?.isSome = true ↔ ∃ c ∈ b.criteria, c.isOverall = true := by
  simp [overall?]

theorem mem_requirements_iff {b : Badge} {c : Criterion} :
    c ∈ b.requirements ↔ c ∈ b.criteria ∧ c.isOverall = false := by
  simp [requirements]

theorem nodup_requirements {b : Badge} (h : (b.criteria.map (·.id)).Nodup) :
    (b.requirements.map (·.id)).Nodup :=
  h.sublist (List.Sublist.map _ List.filter_sublist)

theorem overall?_congr {b b' : Badge} (h : b'.criteria = b.criteria) :
    b'.overall? = b.overall? := by
  rw [overall?, overall?, h]

theorem requirements_congr {b b' : Badge} (h : b'.criteria = b.criteria) :
    b'.requirements = b.requirements := by
  rw [requirements, requirements, h]

theorem hasCriteria_iff {b : Badge} : b.hasCriteria = true ↔ b.requirements ≠ [] := by
  simp [hasCriteria]

theorem activate_eq_ok_iff {b b' : Badge} :
    b.activate = .ok b' ↔ b.status ≠ .archived ∧ b.criteria.countP (·.isOverall) = 1 ∧
      b.requirements ≠ [] ∧ b' = { b with status := b.status.activated } := by
  unfold activate
  by_cases h₁ : b.status = .archived
  · simp [h₁]
  by_cases h₂ : b.criteria.countP (·.isOverall) = 1
  · by_cases h₃ : b.requirements = []
    · simp [h₁, h₂, hasCriteria, h₃]
    · simp only [h₁, h₂, hasCriteria, h₃, if_false, ne_eq, not_true_eq_false, not_false_eq_true,
        List.isEmpty_iff, Bool.not_not, true_and, Except.ok.injEq]
      exact eq_comm
  · simp [h₁, h₂]

end Badge

end Badging
