import Badging.Award
import Badging.Json.Decoding
import Badging.Json.Printing
import Badging.Time.Reading
import Badging.Time.Writing

/-!
# Documents: the simple parts

How identities, instants, owners, policies and the other small values are written in JSON
documents and read from them. Each type has a `toJson` and an `ofJson?` beside it, and what the
first writes the second reads; only numbers have no reader of the form in which they are shown.
Identities have to lie within 64 bits to be read.
-/

namespace Badging

open Json

def Ident.toJson {k : Entity} (a : Ident k) : Json := .int a.val

def Ident.ofJson? {k : Entity} (v : Json) : Option (Ident k) := (int64? v).map (⟨·⟩)

def Instant.toJson (t : Instant) : Json := .text t.text

/-- An instant is read leniently. -/
def Instant.ofJson? (v : Json) : Option Instant := (text? v).bind fun s => Instant.read? s.toList

/-- A number is shown as its text, so that also those that JSON has no numeral for have a form. This
is not how numbers are exchanged: in a document they are numerals, which is what `binary64?` reads,
and nothing reads this form again. -/
def Binary64.toJson (x : Binary64) : Json := .text x.text

def Status.toJson (s : Status) : Json := .text s.label

def Status.ofJson? (v : Json) : Option Status := (plainVariant? v).bind ofLabel?

def Method.toJson (m : Method) : Json := .text m.label

def Method.ofJson? (v : Json) : Option Method := (plainVariant? v).bind ofLabel?

/-- An owner is the word `site`, or the course under the key `course`. -/
def Owner.toJson : Owner → Json
  | .site => .text "site"
  | .course c => .record [("course", c.toJson)]

@[inherit_doc Owner.toJson]
def Owner.ofJson? (v : Json) : Option Owner :=
  if plainVariant? v = some "site" then some .site
  else match variant? v with
    | some ("course", some c) => (Ident.ofJson? c).map .course
    | _ => none

/-- A policy is the word `never`, a date under `on_date`, or seconds under `after_period`. -/
def Expiry.toJson : Expiry → Json
  | .never => .text "never"
  | .onDate t => .record [("on_date", t.toJson)]
  | .afterPeriod n => .record [("after_period", .record [("seconds", .int n)])]

@[inherit_doc Expiry.toJson]
def Expiry.ofJson? (v : Json) : Option Expiry :=
  if plainVariant? v = some "never" then some .never
  else match variant? v with
    | some ("on_date", some t) => (Instant.ofJson? t).map .onDate
    | some ("after_period", some p) => do
      let [seconds] ← members? [⟨"seconds", false⟩] p | none
      (required int64? seconds).map .afterPeriod
    | _ => none

/-- A profile field is its name under `core`, or its number under `custom`. -/
def Criterion.ProfileField.toJson : ProfileField → Json
  | .core name => .record [("core", .text name)]
  | .custom id => .record [("custom", .int id)]

@[inherit_doc Criterion.ProfileField.toJson]
def Criterion.ProfileField.ofJson? (v : Json) : Option ProfileField :=
  match variant? v with
  | some ("core", some name) => (text? name).map .core
  | some ("custom", some id) => (int64? id).map .custom
  | _ => none

/-- A map from names to texts; of a repeated name the last entry counts. -/
def Json.textMap? : Json → Option (Register String String)
  | .object fields => do
    let entries ← fields.mapM fun (k, v) => do
      let k ← k
      let s ← text? v
      some (k, s)
    some (.ofList entries)
  | _ => none

def Json.ofTextMap (r : Register String String) : Json :=
  .record (r.entries.map fun e => (e.1, .text e.2))

def Json.set? {κ : Type} [Ord κ] [Std.TransOrd κ] (f : Json → Option κ) (v : Json) :
    Option (Register κ Unit) :=
  (list? f v).map fun ks => ks.foldl (fun r k => r.insert k ()) .empty

end Badging
