import Badging.Criterion.Kind
import Badging.Text.Case

/-!
# Building criteria from records

A parameter's name is a stem, an underscore and a target, as in `bydate_7`. A parameter with
the required stem of the type makes one condition; an optional parameter adds to the
condition with the same target, and there has to be one. The conditions come in the order of the
names, and what they require is read from the targets: the values of the required parameters
are not looked at.

The first fault in this order is the one that is reported: names that cannot be parameters of
the type, optional parameters without a condition, then condition by condition its
target, its grade and its cutoff, and last the number of courses.
-/

namespace Badging

namespace Criterion

/-- A parameter whose name was taken apart. -/
structure Parameter where
  name : String
  stem : String
  target : String
  value : String
deriving DecidableEq, Repr

/-- Takes a name apart at its first underscore; both parts must have characters. -/
def splitName? (name : String) : Option (String × String) :=
  let cs := name.toList
  let stem := cs.takeWhile (· ≠ '_')
  let target := (cs.dropWhile (· ≠ '_')).drop 1
  if stem = [] ∨ target = [] then none else some (String.ofList stem, String.ofList target)

def Parameter.read (tag : Tag) (name value : String) : Except Error Parameter :=
  match splitName? name with
  | none => .error (.invalidParameter tag name .notStemAndTarget)
  | some (stem, target) =>
    if tag.requiredStem = some stem ∨ stem ∈ tag.optionalStems then
      .ok ⟨name, stem, target, value⟩
    else .error (.invalidParameter tag name .notRecognised)

/-- A positive identity, read from the target of a parameter. -/
def readIdentity (tag : Tag) (p : Parameter) : Except Error Int :=
  match Number.readInt64? p.target.toList with
  | some n =>
    if 0 < n then .ok n else .error (.invalidParameter tag p.name (.notAnIdentity p.target))
  | none => .error (.invalidParameter tag p.name (.notAnIdentity p.target))

/-- An instant, read from the value of a parameter as seconds from the epoch. -/
def readInstant (tag : Tag) (p : Parameter) : Except Error Instant :=
  match (Number.readInt64? (Text.trimChars p.value.toList)).bind Instant.ofSeconds? with
  | some t => .ok t
  | none => .error (.invalidParameter tag p.name (.notAnInstant p.value))

def readGrade (tag : Tag) (p : Parameter) : Except Error Binary64 :=
  match (Binary64.read? (Text.trimChars p.value.toList)).filter (·.isGrade) with
  | some g => .ok g
  | none => .error (.invalidParameter tag p.name (.notAGrade p.value))

def isFieldChar (c : Char) : Bool := c.isLower || c.isDigit || c == '_'

/-- A profile field, read from the target of a parameter. What reads as a number is a custom
field. -/
def readField (tag : Tag) (p : Parameter) : Except Error ProfileField :=
  match Number.readInt64? p.target.toList with
  | some n =>
    if 0 < n then .ok (.custom n)
    else .error (.invalidParameter tag p.name (.notAFieldIdentity p.target))
  | none =>
    if p.target.toList.all isFieldChar then .ok (.core p.target)
    else .error (.invalidParameter tag p.name (.notAFieldName p.target))

def option? (optionals : List Parameter) (stem target : String) : Option Parameter :=
  optionals.find? fun p => p.stem == stem && p.target == target

def readOption {α : Type} (read : Parameter → Except Error α) (optionals : List Parameter)
    (stem target : String) : Except Error (Option α) :=
  match option? optionals stem target with
  | none => .ok none
  | some p => (read p).map some

def readActivity (tag : Tag) (optionals : List Parameter) (p : Parameter) :
    Except Error ActivityCondition := do
  let n ← readIdentity tag p
  let byDate ← readOption (readInstant tag) optionals "bydate" p.target
  return ⟨⟨n⟩, byDate⟩

def readCourse (tag : Tag) (optionals : List Parameter) (p : Parameter) :
    Except Error CourseCondition := do
  let n ← readIdentity tag p
  let minGrade ← readOption (readGrade tag) optionals "grade" p.target
  let byDate ← readOption (readInstant tag) optionals "bydate" p.target
  return ⟨⟨n⟩, minGrade, byDate⟩

def readConditions (tag : Tag) (requireds optionals : List Parameter) : Except Error Kind :=
  match tag with
  | .overall => .ok .overall
  | .activity => (requireds.mapM (readActivity tag optionals)).map .activity
  | .manual => (requireds.mapM (readIdentity tag)).map fun ns => .manual (ns.map (⟨·⟩))
  | .social => .ok (.social (requireds.map fun p => Text.lower p.target))
  | .courseSet => (requireds.mapM (readCourse tag optionals)).map .courseSet
  | .profile => (requireds.mapM (readField tag)).map .profile
  | .course =>
    match requireds.mapM (readCourse tag optionals) with
    | .error e => .error e
    | .ok [c] => .ok (.course c)
    | .ok cs => .error (.invalidParameter tag "course" (.notOneCourse cs.length))

def Kind.ofParams (tag : Tag) (params : Register String String) : Except Error Kind := do
  let ps ← params.entries.mapM fun e => Parameter.read tag e.1 e.2
  let (requireds, optionals) := ps.partition fun p => tag.requiredStem = some p.stem
  match optionals.find? fun p => requireds.all fun q => q.target ≠ p.target with
  | some p => .error (.invalidParameter tag p.name (.unmatched p.target))
  | none => readConditions tag requireds optionals

def ofRecord (id : CriterionId) (badge : BadgeId) (r : Record) : Except Error Criterion := do
  let tag ← Tag.parse r.criterionType
  let kind ← Kind.ofParams tag r.params
  return ⟨id, badge, r.method, r.description, kind⟩

end Criterion

end Badging
