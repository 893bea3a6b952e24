/-!
# Combining checks

A method combines checks into one verdict: `all` asks for every check to hold, `any` for one
of them. The checks are run in order, and no further than needed: a check that fails ends the
run with its failure, and a check that decides the method ends it with its own answer. Nothing to
check is never enough, so an empty list gives `false` under either method.

`evaluate` is stated for checks in an arbitrary monad, since the checks of a review ask other
systems and their order matters. `evaluateCounted` runs it on checks whose answers are known,
and counts how many were run.
-/

namespace Badging

/-- How the checks of a criterion, or the criteria of a badge, are combined. -/
inductive Method where
  | all
  | any
deriving DecidableEq, Repr

namespace Method

def code : Method → Nat
  | .all => 1
  | .any => 2

def ofCode? : Nat → Option Method
  | 1 => some .all
  | 2 => some .any
  | _ => none

def label : Method → String
  | .all => "all"
  | .any => "any"

def ofLabel? (s : String) : Option Method := [all, any].find? (·.label == s)

/-- Whether one answer settles the verdict: a `false` for `all`, a `true` for `any`. -/
def decides : Method → Bool → Bool
  | .all, passed => !passed
  | .any, passed => passed

/-- The verdict when checks were made and none of them settled it. -/
def undecided : Method → Bool
  | .all => true
  | .any => false

variable {m : Type → Type} [Monad m]

/-- Runs the checks that are left after others that settled nothing. -/
def evaluateRest (method : Method) : List (m Bool) → m Bool
  | [] => pure method.undecided
  | check :: checks => do
    let passed ← check
    if method.decides passed then pure passed else evaluateRest method checks

/-- Runs the checks in order until the verdict is settled. -/
def evaluate (method : Method) : List (m Bool) → m Bool
  | [] => pure false
  | checks => evaluateRest method checks

def counted {ε : Type} (check : Except ε Bool) : ExceptT ε (StateM Nat) Bool := do
  modify (· + 1)
  ExceptT.mk (pure check)

/-- The verdict on checks with known answers, and the number of checks that were run. -/
def evaluateCounted {ε : Type} (method : Method) (checks : List (Except ε Bool)) :
    Except ε Bool × Nat :=
  ((method.evaluate (checks.map counted)).run).run 0

@[simp] theorem ofCode?_code (method : Method) : ofCode? method.code = some method := by
  cases method <;> rfl

@[simp] theorem ofLabel?_label (method : Method) : ofLabel? method.label = some method := by
  cases method <;> decide

@[simp] theorem evaluate_nil (method : Method) :
    method.evaluate ([] : List (m Bool)) = pure false := rfl

theorem evaluate_cons (method : Method) (check : m Bool) (checks : List (m Bool)) :
    method.evaluate (check :: checks) =
      (do
        let passed ← check
        if method.decides passed then pure passed else method.evaluateRest checks) := rfl

end Method

end Badging
