import Badging.Badge.Basic

/-!
# Awards and the rows beside them

When a learner satisfies a criterion for the first time, a met record states it. Someone with
a role may grant a badge by hand, which a manual award states. An award is an issued badge: it
carries the times and the token by which it can be verified, and a notice tells
others about it.
-/

namespace Badging

/-- A learner satisfied a criterion at a time. -/
structure MetRecord where
  criterion : CriterionId
  badge : BadgeId
  learner : LearnerId
  metAt : Instant
deriving DecidableEq, Repr

/-- Someone with a role granted a badge by hand. -/
structure ManualAward where
  badge : BadgeId
  recipient : LearnerId
  issuer : LearnerId
  issuerRole : RoleId
  awardedAt : Instant
deriving DecidableEq, Repr

/-- An issued badge. -/
structure Award where
  badge : BadgeId
  learner : LearnerId
  issuedAt : Instant
  expiresAt : Option Instant
  token : String
  visible : Bool
deriving DecidableEq, Repr

/-- What others are told about an award. -/
structure Notice where
  badge : BadgeId
  badgeName : String
  learner : LearnerId
  issuedAt : Instant
  expiresAt : Option Instant
  token : String
deriving DecidableEq, Repr

namespace Award

/-- Issues a badge to a learner. Its policy says when the award expires. -/
def issue (badge : Badge) (learner : LearnerId) (now : Instant) (token : String) :
    Except PeriodOverflow Award :=
  (badge.expiry.endOf now).map fun expiresAt => ⟨badge.id, learner, now, expiresAt, token, true⟩

/-- Whether an award has expired; it has at the very instant at which it expires. -/
def isExpired (a : Award) (now : Instant) : Bool :=
  match a.expiresAt with
  | none => false
  | some t => decide (t ≤ now)

def notice (a : Award) (badge : Badge) : Notice :=
  ⟨badge.id, badge.name, a.learner, a.issuedAt, a.expiresAt, a.token⟩

theorem issue_eq_ok_iff {b : Badge} {l : LearnerId} {t : Instant} {token : String} {a : Award} :
    issue b l t token = .ok a ↔
      ∃ x, b.expiry.endOf t = .ok x ∧ a = ⟨b.id, l, t, x, token, true⟩ := by
  unfold issue
  cases h : b.expiry.endOf t with
  | error e => simp [Except.map]
  | ok x =>
    simp only [Except.map, Except.ok.injEq, exists_eq_left']
    exact eq_comm

theorem key_of_issue {b : Badge} {l : LearnerId} {t : Instant} {token : String} {a : Award}
    (h : issue b l t token = .ok a) : a.badge = b.id ∧ a.learner = l := by
  obtain ⟨x, -, rfl⟩ := issue_eq_ok_iff.1 h
  exact ⟨rfl, rfl⟩

theorem issue_eq_error_iff {b : Badge} {l : LearnerId} {t : Instant} {token : String}
    {p : PeriodOverflow} : issue b l t token = .error p ↔ b.expiry.endOf t = .error p := by
  unfold issue
  cases b.expiry.endOf t <;> simp [Except.map]

end Award

/-- The record that a learner satisfied a criterion at a time. -/
def Criterion.met (c : Criterion) (learner : LearnerId) (now : Instant) : MetRecord :=
  ⟨c.id, c.badge, learner, now⟩

end Badging
