import Badging.Criterion.Method
import Badging.Criterion.Tag
import Badging.Ident
import Badging.Number.Decimal
import Badging.Register
import Badging.Time.Instant

/-!
# Criteria

A criterion says what a learner has to have done. Its kind carries the conditions: activities
or courses to complete, roles to be awarded by, profile fields to fill in, networks to be
connected to. The overall criterion has no conditions of its own, since it is about the
other criteria of its badge.

A criterion is entered and stored as a record, which is a type and named parameters; the two
forms are related in `Badging.Criterion.Reading` and `Badging.Criterion.Rendering`.
-/

namespace Badging

namespace Criterion

/-- An activity to complete, if need be before a cutoff. -/
structure ActivityCondition where
  activity : ActivityId
  byDate : Option Instant
deriving DecidableEq

/-- A course to complete, if need be with a lowest grade and before a cutoff. -/
structure CourseCondition where
  course : CourseId
  minGrade : Option Binary64
  byDate : Option Instant
deriving DecidableEq

/-- A field of a learner's profile: a column that every profile has, or one that was added. -/
inductive ProfileField where
  | core (name : String)
  | custom (id : Int)
deriving DecidableEq, Repr

/-- The conditions of a criterion. -/
inductive Kind where
  | overall
  | activity (conditions : List ActivityCondition)
  | manual (roles : List RoleId)
  | social (networks : List String)
  | course (condition : CourseCondition)
  | courseSet (conditions : List CourseCondition)
  | profile (fields : List ProfileField)
deriving DecidableEq

def Kind.tag : Kind → Tag
  | .overall => .overall
  | .activity _ => .activity
  | .manual _ => .manual
  | .social _ => .social
  | .course _ => .course
  | .courseSet _ => .courseSet
  | .profile _ => .profile

namespace ProfileField

/-- The name under which a field occurs in parameters. -/
def key : ProfileField → String
  | .core name => name
  | .custom id => Number.integerText id

def text : ProfileField → String
  | .core name => name
  | .custom id => "custom field " ++ Number.integerText id

/-- Core fields come before custom ones, each sort in the order of its names or numbers. -/
def order : ProfileField → ProfileField → Ordering
  | .core a, .core b => compare a b
  | .core _, .custom _ => .lt
  | .custom _, .core _ => .gt
  | .custom a, .custom b => compare a b

instance : Ord ProfileField := ⟨order⟩

instance : Std.LawfulEqOrd ProfileField where
  compare_self {a} := by
    cases a with
    | core a => exact @Std.ReflCmp.compare_self String compare _ a
    | custom a => exact @Std.ReflCmp.compare_self Int compare _ a
  eq_of_compare {a b} h := by
    cases a with
    | core a =>
      cases b with
      | core b => exact congrArg core (@Std.LawfulEqCmp.eq_of_compare String compare _ a b h)
      | custom b => cases h
    | custom a =>
      cases b with
      | core b => cases h
      | custom b => exact congrArg custom (@Std.LawfulEqCmp.eq_of_compare Int compare _ a b h)

instance : Std.TransOrd ProfileField where
  eq_swap {a b} := by
    cases a with
    | core a =>
      cases b with
      | core b => exact @Std.OrientedCmp.eq_swap String compare _ a b
      | custom b => rfl
    | custom a =>
      cases b with
      | core b => rfl
      | custom b => exact @Std.OrientedCmp.eq_swap Int compare _ a b
  isLE_trans {a b c} h h' := by
    cases a with
    | core a =>
      cases b with
      | core b =>
        cases c with
        | core c => exact @Std.TransCmp.isLE_trans String compare _ a b c h h'
        | custom c => rfl
      | custom b =>
        cases c with
        | core c => cases h'
        | custom c => rfl
    | custom a =>
      cases b with
      | core b => cases h
      | custom b =>
        cases c with
        | core c => cases h'
        | custom c => exact @Std.TransCmp.isLE_trans Int compare _ a b c h h'

end ProfileField

/-- A criterion as it is entered and stored: its type as written, and parameters by name. -/
structure Record where
  criterionType : String
  method : Method
  description : Option String
  params : Register String String
deriving DecidableEq

end Criterion

/-- A criterion of one badge. -/
structure Criterion where
  id : CriterionId
  badge : BadgeId
  method : Method
  description : Option String
  kind : Criterion.Kind
deriving DecidableEq

namespace Criterion

def tag (c : Criterion) : Tag := c.kind.tag

def isOverall (c : Criterion) : Bool := c.tag == .overall

end Criterion

end Badging
