import Badging.Document.Criterion

/-!
# Documents: badges, awards and the rows beside them
-/

namespace Badging

open Json

/-- A new badge; without a policy its awards never expire. -/
def NewBadge.toJson (b : NewBadge) : Json :=
  .record [("name", .text b.name), ("owner", b.owner.toJson), ("expiry", b.expiry.toJson)]

@[inherit_doc NewBadge.toJson]
def NewBadge.ofJson? (v : Json) : Option NewBadge := do
  let [name, owner, expiry] ←
    members? [⟨"name", false⟩, ⟨"owner", false⟩, ⟨"expiry", true⟩] v | none
  let name ← required text? name
  let owner ← required Owner.ofJson? owner
  let expiry ← defaulted .never Expiry.ofJson? expiry
  some ⟨name, owner, expiry⟩

def Badge.toJson (b : Badge) : Json :=
  .record [("id", b.id.toJson), ("name", .text b.name), ("owner", b.owner.toJson),
    ("status", b.status.toJson), ("expiry", b.expiry.toJson),
    ("criteria", .list Criterion.toJson b.criteria)]

/-- A badge that is read may lack a policy and criteria. -/
def Badge.ofJson? (v : Json) : Option Badge := do
  let [id, name, owner, status, expiry, criteria] ← members? [⟨"id", false⟩, ⟨"name", false⟩,
    ⟨"owner", false⟩, ⟨"status", false⟩, ⟨"expiry", true⟩, ⟨"criteria", true⟩] v | none
  let id ← required Ident.ofJson? id
  let name ← required text? name
  let owner ← required Owner.ofJson? owner
  let status ← required Status.ofJson? status
  let expiry ← defaulted .never Expiry.ofJson? expiry
  let criteria ← defaulted [] (list? (Criterion.ofJson? 2)) criteria
  some ⟨id, name, owner, status, expiry, criteria⟩

def MetRecord.toJson (r : MetRecord) : Json :=
  .record [("criterion_id", r.criterion.toJson), ("badge_id", r.badge.toJson),
    ("learner_id", r.learner.toJson), ("met_at", r.metAt.toJson)]

def MetRecord.ofJson? (v : Json) : Option MetRecord := do
  let [criterion, badge, learner, metAt] ← members? [⟨"criterion_id", false⟩,
    ⟨"badge_id", false⟩, ⟨"learner_id", false⟩, ⟨"met_at", false⟩] v | none
  let criterion ← required Ident.ofJson? criterion
  let badge ← required Ident.ofJson? badge
  let learner ← required Ident.ofJson? learner
  let metAt ← required Instant.ofJson? metAt
  some ⟨criterion, badge, learner, metAt⟩

def ManualAward.toJson (a : ManualAward) : Json :=
  .record [("badge_id", a.badge.toJson), ("recipient", a.recipient.toJson),
    ("issuer", a.issuer.toJson), ("issuer_role", a.issuerRole.toJson),
    ("awarded_at", a.awardedAt.toJson)]

def ManualAward.ofJson? (v : Json) : Option ManualAward := do
  let [badge, recipient, issuer, issuerRole, awardedAt] ← members? [⟨"badge_id", false⟩,
    ⟨"recipient", false⟩, ⟨"issuer", false⟩, ⟨"issuer_role", false⟩, ⟨"awarded_at", false⟩] v
    | none
  let badge ← required Ident.ofJson? badge
  let recipient ← required Ident.ofJson? recipient
  let issuer ← required Ident.ofJson? issuer
  let issuerRole ← required Ident.ofJson? issuerRole
  let awardedAt ← required Instant.ofJson? awardedAt
  some ⟨badge, recipient, issuer, issuerRole, awardedAt⟩

def Award.jsonFields (a : Award) : List (String × Json) :=
  [("badge_id", a.badge.toJson), ("learner_id", a.learner.toJson),
    ("issued_at", a.issuedAt.toJson), ("expires_at", .option Instant.toJson a.expiresAt),
    ("token", .text a.token), ("visible", .bool a.visible)]

def Award.toJson (a : Award) : Json := .record a.jsonFields

def Award.ofJson? (v : Json) : Option Award := do
  let [badge, learner, issuedAt, expiresAt, token, visible] ← members? [⟨"badge_id", false⟩,
    ⟨"learner_id", false⟩, ⟨"issued_at", false⟩, ⟨"expires_at", false⟩, ⟨"token", false⟩,
    ⟨"visible", false⟩] v | none
  let badge ← required Ident.ofJson? badge
  let learner ← required Ident.ofJson? learner
  let issuedAt ← required Instant.ofJson? issuedAt
  let expiresAt ← optional Instant.ofJson? expiresAt
  let token ← required text? token
  let visible ← required bool? visible
  some ⟨badge, learner, issuedAt, expiresAt, token, visible⟩

def Notice.toJson (n : Notice) : Json :=
  .record [("badge_id", n.badge.toJson), ("badge_name", .text n.badgeName),
    ("learner_id", n.learner.toJson), ("issued_at", n.issuedAt.toJson),
    ("expires_at", .option Instant.toJson n.expiresAt), ("token", .text n.token)]

def Notice.ofJson? (v : Json) : Option Notice := do
  let [badge, badgeName, learner, issuedAt, expiresAt, token] ← members? [⟨"badge_id", false⟩,
    ⟨"badge_name", false⟩, ⟨"learner_id", false⟩, ⟨"issued_at", false⟩, ⟨"expires_at", false⟩,
    ⟨"token", false⟩] v | none
  let badge ← required Ident.ofJson? badge
  let badgeName ← required text? badgeName
  let learner ← required Ident.ofJson? learner
  let issuedAt ← required Instant.ofJson? issuedAt
  let expiresAt ← optional Instant.ofJson? expiresAt
  let token ← required text? token
  some ⟨badge, badgeName, learner, issuedAt, expiresAt, token⟩

end Badging
