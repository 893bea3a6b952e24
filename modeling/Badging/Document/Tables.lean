import Badging.Document.Basic
import Badging.Store.Tables

/-!
# Documents: the saved tables

The tables are kept between two runs of the program as a text: a heading, and a document with
the rows of each table as arrays of their columns. The heading makes sure that no other
document is taken for saved tables, nor saved tables for any other document.
-/

namespace Badging

open Json

namespace Tables

def columnOfInt : Option Int → Json := .option .int

def BadgeRow.toJson (r : BadgeRow) : Json :=
  .array [r.id.toJson, .text r.name, .option Ident.toJson r.course, .int r.status,
    columnOfInt r.expireDate, columnOfInt r.expirePeriod]

def BadgeRow.ofJson? : Json → Option BadgeRow
  | .array [id, name, course, status, expireDate, expirePeriod] => do
    let id ← Ident.ofJson? id
    let name ← text? name
    let course ← nullable Ident.ofJson? course
    let status ← int64? status
    let expireDate ← nullable int64? expireDate
    let expirePeriod ← nullable int64? expirePeriod
    some ⟨id, name, course, status.toNat, expireDate, expirePeriod⟩
  | _ => none

def CriterionRow.toJson (r : CriterionRow) : Json :=
  .array [r.id.toJson, r.badge.toJson, .int r.tag, .int r.method, .option .text r.description]

def CriterionRow.ofJson? : Json → Option CriterionRow
  | .array [id, badge, tag, method, description] => do
    let id ← Ident.ofJson? id
    let badge ← Ident.ofJson? badge
    let tag ← int64? tag
    let method ← int64? method
    let description ← nullable text? description
    some ⟨id, badge, tag.toNat, method.toNat, description⟩
  | _ => none

def ParamRow.toJson (r : ParamRow) : Json :=
  .array [r.criterion.toJson, .text r.name, .text r.value]

def ParamRow.ofJson? : Json → Option ParamRow
  | .array [criterion, name, value] => do
    let criterion ← Ident.ofJson? criterion
    let name ← text? name
    let value ← text? value
    some ⟨criterion, name, value⟩
  | _ => none

def MetRow.toJson (r : MetRow) : Json :=
  .array [r.criterion.toJson, r.badge.toJson, r.learner.toJson, .int r.metAt]

def MetRow.ofJson? : Json → Option MetRow
  | .array [criterion, badge, learner, metAt] => do
    let criterion ← Ident.ofJson? criterion
    let badge ← Ident.ofJson? badge
    let learner ← Ident.ofJson? learner
    let metAt ← int64? metAt
    some ⟨criterion, badge, learner, metAt⟩
  | _ => none

def ManualRow.toJson (r : ManualRow) : Json :=
  .array [r.badge.toJson, r.recipient.toJson, r.issuer.toJson, r.issuerRole.toJson,
    .int r.awardedAt]

def ManualRow.ofJson? : Json → Option ManualRow
  | .array [badge, recipient, issuer, issuerRole, awardedAt] => do
    let badge ← Ident.ofJson? badge
    let recipient ← Ident.ofJson? recipient
    let issuer ← Ident.ofJson? issuer
    let issuerRole ← Ident.ofJson? issuerRole
    let awardedAt ← int64? awardedAt
    some ⟨badge, recipient, issuer, issuerRole, awardedAt⟩
  | _ => none

def IssuedRow.toJson (r : IssuedRow) : Json :=
  .array [r.badge.toJson, r.learner.toJson, .text r.token, .int r.issuedAt,
    columnOfInt r.expiresAt, .bool r.visible]

def IssuedRow.ofJson? : Json → Option IssuedRow
  | .array [badge, learner, token, issuedAt, expiresAt, visible] => do
    let badge ← Ident.ofJson? badge
    let learner ← Ident.ofJson? learner
    let token ← text? token
    let issuedAt ← int64? issuedAt
    let expiresAt ← nullable int64? expiresAt
    let visible ← bool? visible
    some ⟨badge, learner, token, issuedAt, expiresAt, visible⟩
  | _ => none

/-- All tables, after the last identities that were given out. -/
def toJson (s : Tables) : Json :=
  .array [.int s.lastBadge, .int s.lastCriterion, .list BadgeRow.toJson s.badges,
    .list CriterionRow.toJson s.criteria, .list ParamRow.toJson s.params,
    .list MetRow.toJson s.met, .list ManualRow.toJson s.manual, .list IssuedRow.toJson s.issued]

@[inherit_doc Tables.toJson]
def ofJson? : Json → Option Tables
  | .array [lastBadge, lastCriterion, badges, criteria, params, met, manual, issued] => do
    let lastBadge ← int64? lastBadge
    let lastCriterion ← int64? lastCriterion
    let badges ← list? BadgeRow.ofJson? badges
    let criteria ← list? CriterionRow.ofJson? criteria
    let params ← list? ParamRow.ofJson? params
    let met ← list? MetRow.ofJson? met
    let manual ← list? ManualRow.ofJson? manual
    let issued ← list? IssuedRow.ofJson? issued
    some ⟨lastBadge, lastCriterion, badges, criteria, params, met, manual, issued⟩
  | _ => none

def heading : List Char := "badge tables, form 1\n".toList

def save (s : Tables) : String := String.ofList heading ++ s.toJson.compact

def after? : List Char → List Char → Option (List Char)
  | [], cs => some cs
  | _ :: _, [] => none
  | h :: hs, c :: cs => if h = c then after? hs cs else none

/-- Whether a text is one under which tables are saved, by its heading. -/
def isSaved (text : String) : Bool := (after? heading text.toList).isSome

def load? (text : String) : Option Tables := do
  let document ← after? heading text.toList
  ofJson? (← parse? (String.ofList document))

end Tables

end Badging
