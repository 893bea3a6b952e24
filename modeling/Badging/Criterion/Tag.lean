import Badging.Number.Integer
import Badging.Text.Blank

/-!
# The types of criteria

There are seven types of criteria. A type is known by its name or by the number under which it
is stored, and `Tag.parse` takes either, with blanks around it. The type fixes the names
that its parameters may have: each condition has one required parameter, whose name starts with
the required stem, and may have optional ones.

The errors of building a criterion are here too, since each of them names a type or fails to.
-/

namespace Badging

namespace Criterion

inductive Tag where
  | overall
  | activity
  | manual
  | social
  | course
  | courseSet
  | profile
deriving DecidableEq, Repr

namespace Tag

def all : List Tag := [.overall, .activity, .manual, .social, .course, .courseSet, .profile]

def code : Tag → Nat
  | .overall => 0
  | .activity => 1
  | .manual => 2
  | .social => 3
  | .course => 4
  | .courseSet => 5
  | .profile => 6

def name : Tag → String
  | .overall => "overall"
  | .activity => "activity"
  | .manual => "manual"
  | .social => "social"
  | .course => "course"
  | .courseSet => "courseset"
  | .profile => "profile"

def codeText (t : Tag) : String := Number.integerText t.code

def ofName? (s : String) : Option Tag := all.find? (·.name == s)

/-- The stem of the parameter that every condition of the type has. -/
def requiredStem : Tag → Option String
  | .overall => none
  | .activity => some "module"
  | .manual => some "role"
  | .social => some "social"
  | .course | .courseSet => some "course"
  | .profile => some "field"

/-- The stems of the parameters that a condition of the type may have. -/
def optionalStems : Tag → List String
  | .activity => ["bydate"]
  | .course | .courseSet => ["grade", "bydate"]
  | _ => []

end Tag

/-- What is wrong with a parameter. -/
inductive Fault where
  | notStemAndTarget
  | notRecognised
  | unmatched (target : String)
  | notAnIdentity (target : String)
  | notAnInstant (value : String)
  | notAGrade (value : String)
  | notAFieldIdentity (target : String)
  | notAFieldName (target : String)
  | notOneCourse (found : Nat)
deriving DecidableEq, Repr

/-- Why a criterion cannot be built. -/
inductive Error where
  | unknownType (tag : String)
  | invalidParameter (tag : Tag) (name : String) (fault : Fault)
deriving DecidableEq, Repr

def Fault.message : Fault → String
  | .notStemAndTarget => "expected prefix_target"
  | .notRecognised => "not recognised for this criterion type"
  | .unmatched target =>
    "refers to '" ++ target ++ "' which has no matching required parameter"
  | .notAnIdentity target => "'" ++ target ++ "' is not a valid id"
  | .notAnInstant value => "'" ++ value ++ "' is not a unix timestamp"
  | .notAGrade value => "'" ++ value ++ "' is not a valid grade"
  | .notAFieldIdentity target => "'" ++ target ++ "' is not a valid field id"
  | .notAFieldName target => "'" ++ target ++ "' is not a profile field name"
  | .notOneCourse found =>
    "expected exactly one course, found " ++ Number.integerText found

def Error.message : Error → String
  | .unknownType tag => "unknown criterion type '" ++ tag ++ "'"
  | .invalidParameter tag name fault =>
    "invalid parameter '" ++ name ++ "' for " ++ tag.name ++ " criterion: " ++ fault.message

/-- The type that a name or a code stands for, with blanks around it. -/
def Tag.parse (s : String) : Except Error Tag :=
  match Tag.all.find? fun t => t.name == Text.trim s || t.codeText == Text.trim s with
  | some t => .ok t
  | none => .error (.unknownType (Text.trim s))

end Criterion

end Badging
