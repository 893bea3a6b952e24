import Badging.Criterion.Kind

/-!
# Records of criteria

`Criterion.toRecord` writes a criterion as a record again: the name of its type, and for each
condition the parameters that state it, named by the number or name of what the
condition is about. Cutoffs are whole seconds, and grades the shortest text that reads back.
Two conditions about the same thing share their parameters, of which the later ones stay.
-/

namespace Badging

namespace Criterion

open Number

def byDateParams (target : String) (byDate : Option Instant) : List (String × String) :=
  match byDate with
  | none => []
  | some t => [("bydate_" ++ target, integerText t.seconds)]

def ActivityCondition.params (c : ActivityCondition) : List (String × String) :=
  let target := c.activity.text
  ("module_" ++ target, target) :: byDateParams target c.byDate

def CourseCondition.params (c : CourseCondition) : List (String × String) :=
  let target := c.course.text
  let grade := match c.minGrade with
    | none => []
    | some g => [("grade_" ++ target, g.text)]
  ("course_" ++ target, target) :: grade ++ byDateParams target c.byDate

def Kind.paramList : Kind → List (String × String)
  | .overall => []
  | .activity cs => cs.flatMap (·.params)
  | .manual rs => rs.map fun r => ("role_" ++ r.text, r.text)
  | .social ns => ns.map fun n => ("social_" ++ n, n)
  | .course c => c.params
  | .courseSet cs => cs.flatMap (·.params)
  | .profile fs => fs.map fun f => ("field_" ++ f.key, f.key)

def Kind.params (k : Kind) : Register String String := .ofList k.paramList

def toRecord (c : Criterion) : Record := ⟨c.tag.name, c.method, c.description, c.kind.params⟩

end Criterion

end Badging
