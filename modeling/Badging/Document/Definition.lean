import Badging.Definition
import Badging.Document.Badge

/-!
# Documents: definitions

A document of definitions is an array of definitions, or one definition. Which of the two it
is shows only when it has been read, so the whole document is held first.
-/

namespace Badging

open Json

namespace Definition

def toJson (d : Definition) : Json :=
  .record [("name", .text d.name), ("owner", d.owner.toJson), ("expiry", d.expiry.toJson),
    ("activate", .bool d.activate), ("criteria", .list Criterion.Record.toJson d.criteria)]

/-- A definition needs a name and an owner; all else has a default. -/
def ofJson? (v : Json) : Option Definition := do
  let [name, owner, expiry, activate, criteria] ← members? [⟨"name", false⟩, ⟨"owner", false⟩,
    ⟨"expiry", true⟩, ⟨"activate", true⟩, ⟨"criteria", true⟩] v | none
  let name ← required text? name
  let owner ← required Owner.ofJson? owner
  let expiry ← defaulted .never Expiry.ofJson? expiry
  let activate ← defaulted false bool? activate
  let criteria ← defaulted [] (list? Criterion.Record.ofJson?) criteria
  some ⟨name, owner, expiry, activate, criteria⟩

def listOfJson? (v : Json) : Option (List Definition) :=
  if v.held nestingLimit then
    match list? ofJson? v with
    | some ds => some ds
    | none => (ofJson? v).map fun d => [d]
  else none

def importText {σ : Type} [Store σ] (text : String) : Run σ DefinitionError (List Badge) :=
  match (parse? text).bind listOfJson? with
  | some ds => createAll ds
  | none => Run.fail .notJson

end Definition

end Badging
