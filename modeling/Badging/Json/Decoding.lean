import Badging.Json.Reading

/-!
# Taking JSON values apart

A record may be written as an object with its fields by name, or as an array with its fields
in order. In an object unknown fields are ignored and a known one must not be repeated. In
an array only fields at the end may be missing, and only such as have a default; an array
that is too long is no record. `members?` treats both alike and answers the value of each field
or its absence.

A variant is a name, or an object with that name as its only key and the content of the
variant as its value. A document that has to be held before its shape is known must be
`Held`: no number beyond the format, no string that spells no text, and a bound on nesting.
-/

namespace Badging

namespace Json

/-- A field of a record: its name, and whether an array may end before it. -/
structure Member where
  name : String
  optionalTail : Bool := false
deriving DecidableEq, Repr

/-- The value of a field among the fields of an object: nothing if it is absent, and no answer
if it is repeated. -/
def member? (fields : List (Option String × Json)) (name : String) : Option (Option Json) :=
  match fields.filter (·.1 == some name) with
  | [] => some none
  | [(_, v)] => some (some v)
  | _ => none

def positions? : List Member → List Json → Option (List (Option Json))
  | [], [] => some []
  | [], _ :: _ => none
  | m :: ms, [] => if m.optionalTail then (positions? ms []).map (none :: ·) else none
  | _ :: ms, v :: vs => (positions? ms vs).map (some v :: ·)

/-- The values of a record's fields, in the order of the members. -/
def members? (members : List Member) : Json → Option (List (Option Json))
  | .object fields =>
    if fields.all (·.1.isSome) then members.mapM fun m => member? fields m.name else none
  | .array items => positions? members items
  | _ => none

def required {α : Type} (f : Json → Option α) (v : Option Json) : Option α := v.bind f

def nullable {α : Type} (f : Json → Option α) : Json → Option (Option α)
  | .null => some none
  | v => (f v).map some

/-- A field that may be absent or `null`. -/
def optional {α : Type} (f : Json → Option α) : Option Json → Option (Option α)
  | none => some none
  | some v => nullable f v

def defaulted {α : Type} (d : α) (f : Json → Option α) : Option Json → Option α
  | none => some d
  | some v => f v

def bool? : Json → Option Bool
  | .bool b => some b
  | _ => none

def text? : Json → Option String
  | .string s => s
  | _ => none

def int64? : Json → Option Int
  | .number n => n.int64?
  | _ => none

def binary64? : Json → Option Binary64
  | .number n => n.binary64?
  | _ => none

def list? {α : Type} (f : Json → Option α) : Json → Option (List α)
  | .array items => items.mapM f
  | _ => none

def variant? : Json → Option (String × Option Json)
  | .string s => s.map fun name => (name, none)
  | .object [(some name, v)] => some (name, some v)
  | _ => none

def plainVariant? (v : Json) : Option String :=
  match variant? v with
  | some (name, none) => some name
  | some (name, some .null) => some name
  | _ => none

mutual

/-- Whether a value can be held inside containers that leave room for `room` more. -/
def held (room : Nat) : Json → Bool
  | .number n => n.binary64?.isSome
  | .string s => s.isSome
  | .array items =>
    match room with
    | 0 => false
    | room + 1 => heldItems room items
  | .object fields =>
    match room with
    | 0 => false
    | room + 1 => heldFields room fields
  | _ => true

def heldItems (room : Nat) : List Json → Bool
  | [] => true
  | v :: vs => held room v && heldItems room vs

def heldFields (room : Nat) : List (Option String × Json) → Bool
  | [] => true
  | (k, v) :: rest => k.isSome && held room v && heldFields room rest

end

/-- The number of containers that may be nested in a document that is held. -/
def nestingLimit : Nat := 127

end Json

end Badging
