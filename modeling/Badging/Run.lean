import Badging.Facts.Query
import Badging.Store.Operation

/-!
# Runs

A review is a program that calls on three things outside of it: a store, the systems that
know the learners, and whoever is told about awards. `Run σ ε α` is the type of such programs
over a store with states in `σ`, which end with an `α`, fail with an `ε`, or break off.

What can go wrong outside is part of the setting of a run, as a plan that is told the calls so far
and the next one, and says whether that one fails. A call that fails has no effect beyond
being made. A run that fails keeps what it did before, since there is no world to go back to. It
breaks off when a period cannot be measured; `attempt` turns a failure into a value, but
nothing inside a run can turn a break into one.
-/

namespace Badging

/-- A call on something outside. -/
inductive Call where
  | store (op : Operation)
  | facts (q : Query)
  | notify (n : Notice)
deriving DecidableEq

/-- Which calls fail, given the calls before, the latest first. The lookup of an award may also be
answered as if there were none. -/
structure FaultPlan where
  store : List Call → Operation → Option StoreError
  facts : List Call → Query → Option SourceError
  notifier : List Call → Notice → Bool
  staleAward : List Call → BadgeId → LearnerId → Bool

def FaultPlan.empty : FaultPlan :=
  ⟨fun _ _ => none, fun _ _ => none, fun _ _ => false, fun _ _ _ => false⟩

instance : Inhabited FaultPlan := ⟨.empty⟩

/-- What a run finds and does not change: the facts, the faults, and a supply of tokens. -/
structure Setting where
  facts : FactSource
  faults : FaultPlan
  tokens : Nat → String

/-- What a run changes: the store, the calls made, the notices that were taken, and how many
tokens were used. Calls and notices are listed the latest first. -/
structure World (σ : Type) where
  store : σ
  calls : List Call
  notices : List Notice
  issued : Nat

def World.ofStore {σ : Type} (s : σ) : World σ := ⟨s, [], [], 0⟩

/-- How a run ends. -/
inductive Ending (ε α : Type) where
  | done (a : α)
  | failed (e : ε)
  | broken (p : PeriodOverflow)
deriving DecidableEq, Repr

/-- A program that calls on things outside. -/
def Run (σ ε α : Type) : Type := Setting → World σ → Ending ε α × World σ

namespace Run

variable {σ ε ε' α β : Type}

def exec (x : Run σ ε α) (setting : Setting) (w : World σ) : Ending ε α × World σ := x setting w

@[ext] theorem ext {x y : Run σ ε α} (h : ∀ setting w, x.exec setting w = y.exec setting w) :
    x = y := funext fun setting => funext fun w => h setting w

protected def pure (a : α) : Run σ ε α := fun _ w => (.done a, w)

/-- Runs a program and, if it ends with a value, one that depends on the value. -/
protected def bind (x : Run σ ε α) (f : α → Run σ ε β) : Run σ ε β := fun setting w =>
  match x setting w with
  | (.done a, w') => f a setting w'
  | (.failed e, w') => (.failed e, w')
  | (.broken p, w') => (.broken p, w')

instance : Monad (Run σ ε) where
  pure := Run.pure
  bind := Run.bind

def fail (e : ε) : Run σ ε α := fun _ w => (.failed e, w)

def breakOff (p : PeriodOverflow) : Run σ ε α := fun _ w => (.broken p, w)

def attempt (x : Run σ ε α) : Run σ ε' (Except ε α) := fun setting w =>
  match x setting w with
  | (.done a, w') => (.done (.ok a), w')
  | (.failed e, w') => (.done (.error e), w')
  | (.broken p, w') => (.broken p, w')

def mapError (f : ε → ε') (x : Run σ ε α) : Run σ ε' α := fun setting w =>
  match x setting w with
  | (.done a, w') => (.done a, w')
  | (.failed e, w') => (.failed (f e), w')
  | (.broken p, w') => (.broken p, w')

@[simp] theorem exec_pure (a : α) (setting : Setting) (w : World σ) :
    (pure a : Run σ ε α).exec setting w = (.done a, w) := rfl

theorem exec_bind (x : Run σ ε α) (f : α → Run σ ε β) (setting : Setting) (w : World σ) :
    (x >>= f).exec setting w =
      match x.exec setting w with
      | (.done a, w') => (f a).exec setting w'
      | (.failed e, w') => (.failed e, w')
      | (.broken p, w') => (.broken p, w') := rfl

@[simp] theorem exec_fail (e : ε) (setting : Setting) (w : World σ) :
    (fail e : Run σ ε α).exec setting w = (.failed e, w) := rfl

@[simp] theorem exec_breakOff (p : PeriodOverflow) (setting : Setting) (w : World σ) :
    (breakOff p : Run σ ε α).exec setting w = (.broken p, w) := rfl

instance : LawfulMonad (Run σ ε) := LawfulMonad.mk' _
  (fun x => by
    refine Run.ext fun setting w => ?_
    rw [show id <$> x = (x >>= fun a => pure a) from rfl, exec_bind]
    rcases x.exec setting w with ⟨_ | _ | _, w'⟩ <;> rfl)
  (fun _ _ => rfl)
  (fun x f g => by
    refine Run.ext fun setting w => ?_
    simp only [exec_bind]
    rcases x.exec setting w with ⟨_ | _ | _, w'⟩ <;> rfl)

section Calls

variable [Store σ]

/-- The answer as it arrives: an award may be overlooked. -/
def received (plan : FaultPlan) (history : List Call) : (op : Operation) → op.Answer → op.Answer
  | .award b l, a => if plan.staleAward history b l then none else a
  | _, a => a

def perform (op : Operation) : Run σ StoreError op.Answer := fun setting w =>
  let w' := { w with calls := .store op :: w.calls }
  match setting.faults.store w.calls op with
  | some e => (.failed e, w')
  | none =>
    match Store.perform op w.store with
    | .error e => (.failed e, w')
    | .ok (a, s) => (.done (received setting.faults w.calls op a), { w' with store := s })

def ask (q : Query) : Run σ SourceError q.Answer := fun setting w =>
  let w' := { w with calls := .facts q :: w.calls }
  match setting.faults.facts w.calls q with
  | some e => (.failed e, w')
  | none =>
    match setting.facts q with
    | .error e => (.failed e, w')
    | .ok a => (.done a, w')

/-- Sends a notice. A notice that cannot be delivered is lost. -/
def notify (n : Notice) : Run σ ε Unit := fun setting w =>
  let w' := { w with calls := .notify n :: w.calls }
  if setting.faults.notifier w.calls n then (.done (), w')
  else (.done (), { w' with notices := n :: w'.notices })

def freshToken : Run σ ε String := fun setting w =>
  (.done (setting.tokens w.issued), { w with issued := w.issued + 1 })

end Calls

end Run

end Badging
