import Badging.Store.Tables

/-!
# The rows of things

A thing is written as rows by a function of its own, and each operation that writes puts such rows
at the end of a table. A row keeps the identities and the texts of a thing, the code of a status, a
type or a method, and whole seconds of a time.
-/

namespace Badging

open Tables

/-- The columns of a policy, of which at most one holds something. -/
def Expiry.columns : Expiry → Option Int × Option Int
  | .never => (none, none)
  | .onDate t => (some t.seconds, none)
  | .afterPeriod n => (none, some n)

def Owner.column : Owner → Option CourseId
  | .site => none
  | .course c => some c

/-- The row of a badge, without its criteria. -/
def Badge.row (b : Badge) : BadgeRow :=
  ⟨b.id, b.name, b.owner.column, b.status.code, b.expiry.columns.1, b.expiry.columns.2⟩

def Criterion.row (c : Criterion) : CriterionRow :=
  ⟨c.id, c.badge, c.tag.code, c.method.code, c.description⟩

def Criterion.paramRows (c : Criterion) : List ParamRow :=
  c.kind.params.entries.map fun e => ⟨c.id, e.1, e.2⟩

theorem Criterion.criterion_of_mem_paramRows {c : Criterion} {p : ParamRow}
    (hp : p ∈ c.paramRows) : p.criterion = c.id := by
  obtain ⟨e, -, rfl⟩ := List.mem_map.1 hp
  rfl

theorem Criterion.filter_paramRows_self (c : Criterion) :
    c.paramRows.filter (·.criterion == c.id) = c.paramRows := by
  refine List.filter_eq_self.2 fun p hp => ?_
  rw [criterion_of_mem_paramRows hp, beq_self_eq_true]

theorem Criterion.filter_paramRows_of_ne {c : Criterion} {id : CriterionId} (h : c.id ≠ id) :
    c.paramRows.filter (·.criterion == id) = [] := by
  refine List.filter_eq_nil_iff.2 fun p hp => ?_
  rw [criterion_of_mem_paramRows hp, beq_iff_eq]
  exact h

def MetRecord.row (r : MetRecord) : MetRow := ⟨r.criterion, r.badge, r.learner, r.metAt.seconds⟩

def ManualAward.row (a : ManualAward) : ManualRow :=
  ⟨a.badge, a.recipient, a.issuer, a.issuerRole, a.awardedAt.seconds⟩

def Award.row (a : Award) : IssuedRow :=
  ⟨a.badge, a.learner, a.token, a.issuedAt.seconds, a.expiresAt.map (·.seconds), a.visible⟩

namespace Tables

def issuedTo (s : Tables) (b : BadgeId) (l : LearnerId) : List IssuedRow :=
  s.issued.filter fun r => r.badge == b && r.learner == l

def belongs (s : Tables) (c : CriterionId) (b : BadgeId) : Bool :=
  s.criteria.any fun r => r.id == c && r.badge == b

theorem insertBadge_eq (new : NewBadge) (s : Tables) :
    s.insertBadge new = (Badge.ofNew ⟨s.lastBadge + 1⟩ new, { s with
      lastBadge := s.lastBadge + 1
      badges := s.badges ++ [(Badge.ofNew ⟨s.lastBadge + 1⟩ new).row] }) := by
  obtain ⟨name, owner, expiry⟩ := new
  cases owner <;> cases expiry <;> rfl

end Tables

end Badging
