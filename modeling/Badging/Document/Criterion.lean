import Badging.Document.Basic

/-!
# Documents: criteria

The kind of a criterion is a type under `type` and its conditions under `params`; the overall
kind has no conditions. The type may stand before or after the conditions. Conditions that
stand before their type have to be held until it is known, and a document can hold only so
much: see `Json.held`.
-/

namespace Badging

namespace Criterion

open Json

def ActivityCondition.toJson (c : ActivityCondition) : Json :=
  .record [("module", c.activity.toJson), ("by_date", .option Instant.toJson c.byDate)]

def ActivityCondition.ofJson? (v : Json) : Option ActivityCondition := do
  let [activity, byDate] ← members? [⟨"module", false⟩, ⟨"by_date", false⟩] v | none
  let activity ← required Ident.ofJson? activity
  let byDate ← optional Instant.ofJson? byDate
  some ⟨activity, byDate⟩

def CourseCondition.toJson (c : CourseCondition) : Json :=
  .record [("course", c.course.toJson), ("min_grade", .option Binary64.toJson c.minGrade),
    ("by_date", .option Instant.toJson c.byDate)]

def CourseCondition.ofJson? (v : Json) : Option CourseCondition := do
  let [course, minGrade, byDate] ←
    members? [⟨"course", false⟩, ⟨"min_grade", false⟩, ⟨"by_date", false⟩] v | none
  let course ← required Ident.ofJson? course
  let minGrade ← optional binary64? minGrade
  let byDate ← optional Instant.ofJson? byDate
  some ⟨course, minGrade, byDate⟩

namespace Kind

def contentJson? : Kind → Option Json
  | .overall => none
  | .activity cs => some (.list ActivityCondition.toJson cs)
  | .manual rs => some (.list Ident.toJson rs)
  | .social ns => some (.list .text ns)
  | .course c => some c.toJson
  | .courseSet cs => some (.list CourseCondition.toJson cs)
  | .profile fs => some (.list ProfileField.toJson fs)

def toJson (k : Kind) : Json :=
  match k.contentJson? with
  | none => .record [("type", .text k.tag.name)]
  | some content => .record [("type", .text k.tag.name), ("params", content)]

def ofContent? (tag : Tag) (content : Option Json) : Option Kind :=
  match tag, content with
  | .overall, none => some .overall
  | .overall, some .null => some .overall
  | .overall, some _ => none
  | _, none => none
  | .activity, some v => (list? ActivityCondition.ofJson? v).map .activity
  | .manual, some v => (list? Ident.ofJson? v).map .manual
  | .social, some v => (list? text? v).map .social
  | .course, some v => (CourseCondition.ofJson? v).map .course
  | .courseSet, some v => (list? CourseCondition.ofJson? v).map .courseSet
  | .profile, some v => (list? ProfileField.ofJson? v).map .profile

def tag? (v : Json) : Option Tag := (plainVariant? v).bind Tag.ofName?

/-- Reads a kind that has `around` containers around it. In an array the type is a name; in an
object it may also be a variant without contents. -/
def ofJson? (around : Nat) : Json → Option Kind
  | .array [.string (some name), content] =>
    (Tag.ofName? name).bind fun t => ofContent? t (some content)
  | .object fields =>
    if fields.all (·.1.isSome) then
      match fields.filter fun f => f.1 == some "type" || f.1 == some "params" with
      | [(some "type", tag)] => (tag? tag).bind fun t => ofContent? t none
      | [(some "type", tag), (some "params", content)] =>
        (tag? tag).bind fun t => ofContent? t (some content)
      | [(some "params", content), (some "type", tag)] =>
        if content.held (nestingLimit - around - 1) then
          (tag? tag).bind fun t => ofContent? t (some content)
        else none
      | _ => none
    else none
  | _ => none

end Kind

def toJson (c : Criterion) : Json :=
  .record [("id", c.id.toJson), ("badge_id", c.badge.toJson), ("method", c.method.toJson),
    ("description", .option .text c.description), ("kind", c.kind.toJson)]

def ofJson? (around : Nat) (v : Json) : Option Criterion := do
  let [id, badge, method, description, kind] ← members? [⟨"id", false⟩, ⟨"badge_id", false⟩,
    ⟨"method", false⟩, ⟨"description", false⟩, ⟨"kind", false⟩] v | none
  let id ← required Ident.ofJson? id
  let badge ← required Ident.ofJson? badge
  let method ← required Method.ofJson? method
  let description ← optional text? description
  let kind ← required (Kind.ofJson? (around + 1)) kind
  some ⟨id, badge, method, description, kind⟩

def Record.toJson (r : Record) : Json :=
  .record [("criterion_type", .text r.criterionType), ("method", r.method.toJson),
    ("description", .option .text r.description), ("params", .ofTextMap r.params)]

/-- A record needs a type; all else has a default. -/
def Record.ofJson? (v : Json) : Option Record := do
  let [criterionType, method, description, params] ← members? [⟨"criterion_type", false⟩,
    ⟨"method", true⟩, ⟨"description", true⟩, ⟨"params", true⟩] v | none
  let criterionType ← required text? criterionType
  let method ← defaulted .all Method.ofJson? method
  let description ← optional text? description
  let params ← defaulted .empty textMap? params
  some ⟨criterionType, method, description, params⟩

end Criterion

end Badging
