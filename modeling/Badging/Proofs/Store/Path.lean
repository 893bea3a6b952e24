import Badging.Proofs.Run.Triple
import Badging.Store.Database

/-!
# Paths of a store

A store is changed by operations that are answered and by nothing else. `Reaches ok s s'` says that
operations lead from `s` to `s'`, where `ok` says which operations occur with which answers.
Whatever the answered operations of a kind preserve is preserved along every path of that kind, so a
statement about programs needs only the path that a program takes.
-/

namespace Badging

namespace Store

variable {σ : Type} [Store σ]

/-- From `s` the store gets to a state by answered operations, each of which is `ok`. -/
inductive Reaches (ok : (op : Operation) → op.Answer → Prop) (s : σ) : σ → Prop
  | refl : Reaches ok s s
  | step {s' s'' : σ} {op : Operation} {a : op.Answer} :
      Reaches ok s s' → perform op s' = .ok (a, s'') → ok op a → Reaches ok s s''

namespace Reaches

variable {ok ok' : (op : Operation) → op.Answer → Prop} {s s' s'' : σ}

theorem single {op : Operation} {a : op.Answer} (h : perform op s = .ok (a, s')) (ha : ok op a) :
    Reaches ok s s' :=
  .step .refl h ha

theorem trans (h : Reaches ok s s') (h' : Reaches ok s' s'') : Reaches ok s s'' := by
  induction h' with
  | refl => exact h
  | step _ hop ha ih => exact .step ih hop ha

theorem mono (h : Reaches ok s s') (hok : ∀ op a, ok op a → ok' op a) : Reaches ok' s s' := by
  induction h with
  | refl => exact .refl
  | step _ hop ha ih => exact .step ih hop (hok _ _ ha)

/-- What each step preserves is preserved along a path. -/
theorem preserves {I : σ → Prop} (h : Reaches ok s s')
    (hstep : ∀ {op : Operation} {a : op.Answer} {t t' : σ}, I t → perform op t = .ok (a, t') →
      ok op a → I t') (hs : I s) : I s' := by
  induction h with
  | refl => exact hs
  | step _ hop ha ih => exact hstep ih hop ha

end Reaches

/-- Operations that leave the store as it was: they only read, or their row was there already. -/
def Idle : (op : Operation) → op.Answer → Prop
  | .markMet _, added => added = false
  | .recordManual _, added => added = false
  | .insertAward _, added => added = false
  | op, _ => op.isReading = true

theorem Idle.of_isReading {op : Operation} (h : op.isReading = true) (a : op.Answer) :
    Idle op a := by
  cases op <;> first | exact h | cases h

def Sparing (id : BadgeId) : (op : Operation) → op.Answer → Prop
  | .deleteBadge id', _ => id' ≠ id
  | _, _ => True

abbrev Anything : (op : Operation) → op.Answer → Prop := fun _ _ => True

theorem reaches_run_of {ok : Operation → Prop} (s : σ) {ops : List Operation}
    (h : ∀ op ∈ ops, ok op) : Reaches (fun op _ => ok op) s (run s ops) := by
  induction ops generalizing s with
  | nil => exact .refl
  | cons op ops ih =>
    rw [run_cons]
    refine Reaches.trans ?_ (ih _ fun op' hop' => h op' (List.mem_cons_of_mem _ hop'))
    unfold step
    cases hop : perform op s with
    | ok p => exact .single hop (h op List.mem_cons_self)
    | error e => exact .refl

theorem reaches_run (s : σ) (ops : List Operation) : Reaches Anything s (run s ops) :=
  reaches_run_of s fun _ _ => trivial

theorem perform_of_step {op : Operation} {a : op.Answer} {s : σ} (h : (step op s).1 = .ok a) :
    perform op s = .ok (a, (step op s).2) := by
  unfold step at h ⊢
  split at h
  · next hop =>
    cases h
    rw [hop]
  · cases h

end Store

/-- The states on a path from `s`, with the notices `n` that were sent before. -/
def Along {σ : Type} [Store σ] (ok : (op : Operation) → op.Answer → Prop) (s : σ)
    (n : List Notice) : Run.Assertion σ :=
  fun s' n' => Store.Reaches ok s s' ∧ n' = n

theorem Along.perform {σ : Type} [Store σ] {ok : (op : Operation) → op.Answer → Prop} {s : σ}
    {n : List Notice} {setting : Setting} {op : Operation} (h : ∀ a, ok op a) :
    Run.Upholds setting (Along ok s n) (Run.perform op) :=
  Run.Upholds.perform fun a _ _ _ hs hop => ⟨hs.1.step hop (h a), hs.2⟩

end Badging
