import Badging.Award

/-!
# Questions about learners

Completions, grades, roles and profiles belong to other systems. What is known of them is
what they answer to a question, and a question that fails is a failure of the system
asked. `Query` lists the questions, `Query.Answer` the type of each answer, and a
`FactSource` answers them: a thing that does not exist is an absent answer, not a failure.
-/

namespace Badging

/-- How far a learner came with an activity. -/
inductive CompletionState where
  | incomplete
  | complete
  | completePass
  | completeFail
deriving DecidableEq, Repr

namespace CompletionState

def all : List CompletionState := [.incomplete, .complete, .completePass, .completeFail]

def label : CompletionState → String
  | .incomplete => "incomplete"
  | .complete => "complete"
  | .completePass => "complete_pass"
  | .completeFail => "complete_fail"

def ofLabel? (s : String) : Option CompletionState := all.find? (·.label == s)

/-- Whether the state counts as completion; a failed attempt does not. -/
def isComplete : CompletionState → Bool
  | .complete | .completePass => true
  | _ => false

@[simp] theorem ofLabel?_label (s : CompletionState) : ofLabel? s.label = some s := by
  cases s <;> decide

end CompletionState

structure ActivityInfo where
  activity : ActivityId
  course : CourseId
  name : String
  completionTracked : Bool
deriving DecidableEq, Repr

structure Completion where
  state : CompletionState
  completedAt : Instant
deriving DecidableEq, Repr

structure CourseInfo where
  course : CourseId
  visible : Bool
  start : Option Instant
deriving DecidableEq, Repr

/-- Whether a course has started; one without a start always has. -/
def CourseInfo.hasStarted (c : CourseInfo) (now : Instant) : Bool :=
  match c.start with
  | none => true
  | some t => decide (t ≤ now)

inductive Query where
  | activity (activity : ActivityId)
  | activityCompletion (activity : ActivityId) (learner : LearnerId)
  | course (course : CourseId)
  | courseCompletion (course : CourseId) (learner : LearnerId)
  | courseGrade (course : CourseId) (learner : LearnerId)
  | roleExists (role : RoleId)
  | fieldExists (field : Criterion.ProfileField)
  | fieldValue (field : Criterion.ProfileField) (learner : LearnerId)
  | connected (network : String) (learner : LearnerId)
  | candidates (badge : Badge)
deriving DecidableEq

namespace Query

@[reducible] def Answer : Query → Type
  | .activity _ => Option ActivityInfo
  | .activityCompletion _ _ => Option Completion
  | .course _ => Option CourseInfo
  | .courseCompletion _ _ => Option Instant
  | .courseGrade _ _ => Option Binary64
  | .roleExists _ => Bool
  | .fieldExists _ => Bool
  | .fieldValue _ _ => Option String
  | .connected _ _ => Bool
  | .candidates _ => List LearnerId

def learner? : Query → Option LearnerId
  | .activityCompletion _ l => some l
  | .courseCompletion _ l => some l
  | .courseGrade _ l => some l
  | .fieldValue _ l => some l
  | .connected _ l => some l
  | _ => none

end Query

/-- A system that could not answer. -/
inductive SourceError where
  | unavailable (source reason : String)
deriving DecidableEq, Repr

def SourceError.message : SourceError → String
  | .unavailable source reason => source ++ " unavailable: " ++ reason

/-- Something that answers questions or fails to. -/
abbrev FactSource := (q : Query) → Except SourceError q.Answer

end Badging
