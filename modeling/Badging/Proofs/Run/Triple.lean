import Badging.Run

/-!
# Reasoning about runs

A statement about a run compares what it finds with what it leaves: the store, and the notices that
were sent, whether they were delivered or not. `Triple setting P x Q E` says that from everything
that satisfies `P` the program `x` either ends with a value, and then `Q` holds of the value and of
what is left, or is cut short, and then `E` does. A failure and a break are told apart by `Cut`.

Since a failed run keeps what it did, `E` is a statement of its own and not just `P`. The rules
follow the constructors of programs, one each; the rule of an operation asks for two things, what is
left if the call fails and what is left if it is answered.
-/

namespace Badging

def Call.notice? : Call → Option Notice
  | .notify n => some n
  | _ => none

/-- The notices that were sent, the latest first, whether or not they were delivered. -/
def World.sent {σ : Type} (w : World σ) : List Notice := w.calls.filterMap Call.notice?

@[simp] theorem World.sent_ofStore {σ : Type} (s : σ) : (World.ofStore s).sent = [] := rfl

namespace FaultPlan

variable {plan : FaultPlan}

/-- No call on the store fails. -/
def SparesStore (plan : FaultPlan) : Prop := ∀ h op, plan.store h op = none

def SparesFacts (plan : FaultPlan) : Prop := ∀ h q, plan.facts h q = none

theorem ne_empty_of_store {h : List Call} {op : Operation} {e : StoreError}
    (hfault : plan.store h op = some e) : plan ≠ .empty := by
  rintro rfl
  cases hfault

end FaultPlan

def Ending.ofExcept {ε α : Type} : Except ε α → Ending ε α
  | .ok a => .done a
  | .error e => .failed e

/-- How a run ends that does not end with a value. -/
inductive Cut (ε : Type) where
  | failed (e : ε)
  | broken (p : PeriodOverflow)

namespace Run

variable {σ ε ε' α β : Type} {setting : Setting}

theorem exec_attempt (x : Run σ ε α) (setting : Setting) (w : World σ) :
    (attempt x : Run σ ε' (Except ε α)).exec setting w =
      match x.exec setting w with
      | (.done a, w') => (.done (.ok a), w')
      | (.failed e, w') => (.done (.error e), w')
      | (.broken p, w') => (.broken p, w') := rfl

theorem exec_mapError (f : ε → ε') (x : Run σ ε α) (setting : Setting) (w : World σ) :
    (x.mapError f).exec setting w =
      match x.exec setting w with
      | (.done a, w') => (.done a, w')
      | (.failed e, w') => (.failed (f e), w')
      | (.broken p, w') => (.broken p, w') := rfl

theorem exec_bind_of_done {x : Run σ ε α} {f : α → Run σ ε β} {w w' : World σ} {a : α}
    (h : x.exec setting w = (.done a, w')) : (x >>= f).exec setting w = (f a).exec setting w' := by
  rw [exec_bind, h]

theorem exec_attempt_of_exec {x : Run σ ε α} {w w' : World σ} {v : Except ε α}
    (h : x.exec setting w = (.ofExcept v, w')) :
    (attempt x : Run σ ε' (Except ε α)).exec setting w = (.done v, w') := by
  rw [exec_attempt, h]
  cases v <;> rfl

/-- A statement about a store and the notices sent. -/
abbrev Assertion (σ : Type) := σ → List Notice → Prop

/-- From `P` the program ends with a value and `Q`, or it is cut short and `E` holds. -/
def Triple (setting : Setting) (P : Assertion σ) (x : Run σ ε α) (Q : α → Assertion σ)
    (E : Cut ε → Assertion σ) : Prop :=
  ∀ w, P w.store w.sent →
    match x.exec setting w with
    | (.done a, w') => Q a w'.store w'.sent
    | (.failed e, w') => E (.failed e) w'.store w'.sent
    | (.broken p, w') => E (.broken p) w'.store w'.sent

namespace Triple

variable {P P' : Assertion σ} {Q Q' : α → Assertion σ} {R : β → Assertion σ}
  {E E' : Cut ε → Assertion σ} {x : Run σ ε α}

theorem weaken (h : Triple setting P x Q E) (hP : ∀ s n, P' s n → P s n)
    (hQ : ∀ a s n, Q a s n → Q' a s n) (hE : ∀ c s n, E c s n → E' c s n) :
    Triple setting P' x Q' E' := by
  intro w hw
  have hx := h w (hP _ _ hw)
  revert hx
  rcases x.exec setting w with ⟨_ | _ | _, w'⟩
  · exact hQ _ _ _
  · exact hE _ _ _
  · exact hE _ _ _

theorem intro (h : ∀ s n, P s n → Triple setting (fun s' n' => s' = s ∧ n' = n) x Q E) :
    Triple setting P x Q E :=
  fun w hw => h w.store w.sent hw w ⟨rfl, rfl⟩

theorem starting (h : Triple setting P x Q E) {s : σ} {n : List Notice} (hP : P s n) :
    Triple setting (fun s' n' => s' = s ∧ n' = n) x Q E := by
  refine h.weaken ?_ (fun _ _ _ h => h) fun _ _ _ h => h
  rintro s' n' ⟨rfl, rfl⟩
  exact hP

/-- What is known besides, whatever the run does to the store. -/
theorem assume {φ : Prop} (h : φ → Triple setting P x Q E) :
    Triple setting (fun s n => P s n ∧ φ) x Q E :=
  fun w hw => h hw.2 w hw.1

/-- To know something that is not about the store, it does not take more. -/
theorem of_fact {φ : Prop} (h : φ → Triple setting (fun _ _ => True) x Q E) :
    Triple setting (fun _ _ => φ) x Q E :=
  fun w hw => h hw w trivial

theorem pure {a : α} (h : ∀ s n, P s n → Q a s n) :
    Triple setting P (pure a : Run σ ε α) Q E :=
  fun w hw => h w.store w.sent hw

theorem fail {e : ε} (h : ∀ s n, P s n → E (.failed e) s n) :
    Triple setting P (Run.fail e : Run σ ε α) Q E :=
  fun w hw => h w.store w.sent hw

theorem breakOff {p : PeriodOverflow} (h : ∀ s n, P s n → E (.broken p) s n) :
    Triple setting P (Run.breakOff p : Run σ ε α) Q E :=
  fun w hw => h w.store w.sent hw

theorem bind {f : α → Run σ ε β} (hx : Triple setting P x Q E)
    (hf : ∀ a, Triple setting (Q a) (f a) R E) : Triple setting P (x >>= f) R E := by
  intro w hw
  have h := hx w hw
  rw [exec_bind]
  revert h
  rcases x.exec setting w with ⟨a | _ | _, w'⟩
  · exact hf a w'
  · exact id
  · exact id

theorem of_exec_done (h : Triple setting P x Q E) {w w' : World σ} {a : α}
    (hw : P w.store w.sent) (hx : x.exec setting w = (.done a, w')) : Q a w'.store w'.sent := by
  have ha := h w hw
  rwa [hx] at ha

theorem after {I : Assertion σ} (h : Triple setting P x (fun _ => I) fun _ => I) {w : World σ}
    (hw : P w.store w.sent) : I (x.exec setting w).2.store (x.exec setting w).2.sent := by
  have hx := h w hw
  revert hx
  rcases x.exec setting w with ⟨_ | _ | _, w'⟩ <;> exact id

theorem and {Q' : α → Assertion σ} (h : Triple setting P x Q E) (h' : Triple setting P' x Q' E') :
    Triple setting (fun s n => P s n ∧ P' s n) x (fun a s n => Q a s n ∧ Q' a s n)
      fun c s n => E c s n ∧ E' c s n := by
  intro w hw
  have hx := h w hw.1
  have hx' := h' w hw.2
  revert hx hx'
  rcases x.exec setting w with ⟨_ | _ | _, w'⟩
  · exact And.intro
  · exact And.intro
  · exact And.intro

theorem attempt (h : Triple setting P x Q E) {E' : Cut ε' → Assertion σ}
    {R : Except ε α → Assertion σ} (hok : ∀ a s n, Q a s n → R (.ok a) s n)
    (herror : ∀ e s n, E (.failed e) s n → R (.error e) s n)
    (hbroken : ∀ p s n, E (.broken p) s n → E' (.broken p) s n) :
    Triple setting P (Run.attempt x : Run σ ε' (Except ε α)) R E' := by
  intro w hw
  have hx := h w hw
  rw [exec_attempt]
  revert hx
  rcases x.exec setting w with ⟨_ | _ | _, w'⟩
  · exact hok _ _ _
  · exact herror _ _ _
  · exact hbroken _ _ _

/-- What comes after an attempt starts from what holds in either case. -/
theorem bind_attempt {f : Except ε α → Run σ ε' β} {E' : Cut ε' → Assertion σ}
    (h : Triple setting P x Q E) (hok : ∀ a, Triple setting (Q a) (f (.ok a)) R E')
    (herror : ∀ e, Triple setting (E (.failed e)) (f (.error e)) R E')
    (hbroken : ∀ p s n, E (.broken p) s n → E' (.broken p) s n) :
    Triple setting P (Run.attempt x >>= f) R E' := by
  intro w hw
  have hx := h w hw
  rw [exec_bind, exec_attempt]
  revert hx
  rcases x.exec setting w with ⟨a | e | _, w'⟩
  · exact hok a w'
  · exact herror e w'
  · exact hbroken _ _ _

theorem mapError {f : ε → ε'} {E' : Cut ε' → Assertion σ} (h : Triple setting P x Q E)
    (hfailed : ∀ e s n, E (.failed e) s n → E' (.failed (f e)) s n)
    (hbroken : ∀ p s n, E (.broken p) s n → E' (.broken p) s n) :
    Triple setting P (Run.mapError f x) Q E' := by
  intro w hw
  have hx := h w hw
  rw [exec_mapError]
  revert hx
  rcases x.exec setting w with ⟨_ | _ | _, w'⟩
  · exact id
  · exact hfailed _ _ _
  · exact hbroken _ _ _

/-- An operation fails by the plan or by its refusal, and is answered otherwise. -/
theorem perform [Store σ] {op : Operation} {Q : op.Answer → Assertion σ}
    {E : Cut StoreError → Assertion σ}
    (hfail : ∀ e s n, P s n →
      ((∃ h, setting.faults.store h op = some e) ∨ Store.perform op s = .error e) →
        E (.failed e) s n)
    (hdone : ∀ h a s s' n, P s n → Store.perform op s = .ok (a, s') →
      Q (received setting.faults h op a) s' n) :
    Triple setting P (Run.perform op) Q E := by
  intro w hw
  unfold Run.perform exec
  dsimp only
  cases hf : setting.faults.store w.calls op with
  | some e => exact hfail e w.store w.sent hw (.inl ⟨w.calls, hf⟩)
  | none =>
    cases hs : Store.perform op w.store with
    | error e => exact hfail e w.store w.sent hw (.inr hs)
    | ok p => exact hdone w.calls p.1 w.store p.2 w.sent hw hs

theorem ask {q : Query} {Q : q.Answer → Assertion σ} {E : Cut SourceError → Assertion σ}
    (hfail : ∀ e s n, P s n →
      ((∃ h, setting.faults.facts h q = some e) ∨ setting.facts q = .error e) →
        E (.failed e) s n)
    (hdone : ∀ a s n, P s n → setting.facts q = .ok a → Q a s n) :
    Triple setting P (Run.ask q : Run σ SourceError q.Answer) Q E := by
  intro w hw
  unfold Run.ask exec
  dsimp only
  cases hf : setting.faults.facts w.calls q with
  | some e => exact hfail e w.store w.sent hw (.inl ⟨w.calls, hf⟩)
  | none =>
    cases hs : setting.facts q with
    | error e => exact hfail e w.store w.sent hw (.inr hs)
    | ok a => exact hdone a w.store w.sent hw hs

theorem perform_spared [Store σ] {op : Operation} {Q : op.Answer → Assertion σ}
    {E : Cut StoreError → Assertion σ} (hspared : setting.faults.SparesStore)
    (hanswered : ∀ s n, P s n → ∃ a s', Store.perform op s = .ok (a, s') ∧
      ∀ h, Q (received setting.faults h op a) s' n) :
    Triple setting P (Run.perform op) Q E := by
  refine perform (fun e s n hP hcause => ?_) fun h a s s' n hP hop => ?_
  · obtain ⟨a, s', hop, -⟩ := hanswered s n hP
    rcases hcause with ⟨h, hfault⟩ | hrefused
    · rw [hspared h op] at hfault
      cases hfault
    · rw [hop] at hrefused
      cases hrefused
  · obtain ⟨a', s'', hop', hQ⟩ := hanswered s n hP
    rw [hop] at hop'
    cases hop'
    exact hQ h

theorem notify {notice : Notice} {Q : Unit → Assertion σ}
    (h : ∀ s n, P s n → Q () s (notice :: n)) :
    Triple setting P (Run.notify notice : Run σ ε Unit) Q E := by
  intro w hw
  unfold Run.notify exec
  cases hf : setting.faults.notifier w.calls notice with
  | true =>
    simp only [hf, if_true]
    exact h _ _ hw
  | false =>
    simp only [hf, Bool.false_eq_true, if_false]
    exact h _ _ hw

theorem freshToken {Q : String → Assertion σ} (h : ∀ t s n, P s n → Q t s n) :
    Triple setting P (Run.freshToken : Run σ ε String) Q E :=
  fun w hw => h _ w.store w.sent hw

end Triple

/-- Failing with `I`, and never breaking off. -/
def Unbroken (I : Assertion σ) : Cut ε → Assertion σ
  | .failed _ => I
  | .broken _ => fun _ _ => False

/-- A program keeps a statement if it holds afterwards however the program ends. -/
abbrev Keeps (setting : Setting) (I : Assertion σ) (x : Run σ ε α) : Prop :=
  Triple setting I x (fun _ => I) fun _ => I

namespace Keeps

variable {I : Assertion σ} {x : Run σ ε α}

theorem pure {a : α} : Keeps setting I (pure a : Run σ ε α) := Triple.pure fun _ _ h => h

theorem bind {f : α → Run σ ε β} (hx : Keeps setting I x) (hf : ∀ a, Keeps setting I (f a)) :
    Keeps setting I (x >>= f) :=
  Triple.bind hx hf

theorem attempt (h : Keeps setting I x) :
    Keeps setting I (Run.attempt x : Run σ ε' (Except ε α)) :=
  Triple.attempt h (fun _ _ _ h => h) (fun _ _ _ h => h) fun _ _ _ h => h

theorem mapError {f : ε → ε'} (h : Keeps setting I x) : Keeps setting I (Run.mapError f x) :=
  Triple.mapError h (fun _ _ _ h => h) fun _ _ _ h => h

theorem perform [Store σ] {op : Operation}
    (h : ∀ a s s' n, I s n → Store.perform op s = .ok (a, s') → I s' n) :
    Keeps setting I (Run.perform op) :=
  Triple.perform (fun _ _ _ h _ => h) fun _ a s s' n => h a s s' n

end Keeps

/-- A program upholds a statement if it keeps it and does not break off. -/
abbrev Upholds (setting : Setting) (I : Assertion σ) (x : Run σ ε α) : Prop :=
  Triple setting I x (fun _ => I) (Unbroken I)

namespace Upholds

variable {I : Assertion σ} {x : Run σ ε α}

theorem pure {a : α} : Upholds setting I (pure a : Run σ ε α) := Triple.pure fun _ _ h => h

theorem bind {f : α → Run σ ε β} (hx : Upholds setting I x) (hf : ∀ a, Upholds setting I (f a)) :
    Upholds setting I (x >>= f) :=
  Triple.bind hx hf

theorem mapError {f : ε → ε'} (h : Upholds setting I x) : Upholds setting I (Run.mapError f x) :=
  Triple.mapError h (fun _ _ _ h => h) fun _ _ _ h => h

theorem ask {q : Query} : Upholds setting I (Run.ask q : Run σ SourceError q.Answer) :=
  Triple.ask (fun _ _ _ h _ => h) fun _ _ _ h _ => h

theorem keeps (h : Upholds setting I x) : Keeps setting I x :=
  h.weaken (fun _ _ h => h) (fun _ _ _ h => h) fun cut _ _ h => by
    cases cut with
    | failed => exact h
    | broken => exact h.elim

theorem perform [Store σ] {op : Operation}
    (h : ∀ a s s' n, I s n → Store.perform op s = .ok (a, s') → I s' n) :
    Upholds setting I (Run.perform op) :=
  Triple.perform (fun _ _ _ h _ => h) fun _ a s s' n => h a s s' n

end Upholds

theorem Triple.exists_exec {P I : Assertion σ} {Q : α → Assertion σ} {x : Run σ ε α}
    (h : Triple setting P x Q (Unbroken I)) {w : World σ} (hw : P w.store w.sent) :
    ∃ v w', x.exec setting w = (.ofExcept v, w') := by
  have hx := h w hw
  revert hx
  rcases x.exec setting w with ⟨a | e | _, w'⟩
  · exact fun _ => ⟨.ok a, w', rfl⟩
  · exact fun _ => ⟨.error e, w', rfl⟩
  · exact False.elim

/-- An operation in a world either fails and changes nothing but the calls, or is answered by the
store. -/
theorem exec_perform_cases [Store σ] (setting : Setting) (op : Operation) (w : World σ) :
    (∃ e w', (Run.perform op).exec setting w = (.failed e, w') ∧ w'.store = w.store ∧
        w'.sent = w.sent) ∨
      ∃ a w', Store.perform op w.store = .ok (a, w'.store) ∧ w'.sent = w.sent ∧
        (Run.perform op).exec setting w = (.done (received setting.faults w.calls op a), w') := by
  unfold Run.perform exec
  dsimp only
  cases setting.faults.store w.calls op with
  | some e => exact .inl ⟨e, { w with calls := .store op :: w.calls }, rfl, rfl, rfl⟩
  | none =>
    cases hs : Store.perform op w.store with
    | error e => exact .inl ⟨e, { w with calls := .store op :: w.calls }, rfl, rfl, rfl⟩
    | ok p => exact .inr ⟨p.1, ⟨p.2, .store op :: w.calls, w.notices, w.issued⟩, rfl, rfl, rfl⟩

theorem exec_perform_failed [Store σ] {op : Operation} {w w' : World σ} {e : StoreError}
    (h : (Run.perform op).exec setting w = (.failed e, w')) :
    w' = { w with calls := .store op :: w.calls } ∧
      (setting.faults.store w.calls op = some e ∨ Store.perform op w.store = .error e) := by
  unfold Run.perform exec at h
  dsimp only at h
  cases hf : setting.faults.store w.calls op with
  | some e' =>
    rw [hf] at h
    cases h
    exact ⟨rfl, .inl rfl⟩
  | none =>
    rw [hf] at h
    dsimp only at h
    cases hs : Store.perform op w.store with
    | error e' =>
      rw [hs] at h
      cases h
      exact ⟨rfl, .inr rfl⟩
    | ok p =>
      rw [hs] at h
      cases h

theorem store_exec_perform [Store σ] {setting : Setting} {op : Operation} {w : World σ}
    {P : σ → Prop} (hP : P w.store)
    (h : ∀ {a s'}, Store.perform op w.store = .ok (a, s') → P s') :
    P ((Run.perform op).exec setting w).2.store := by
  rcases exec_perform_cases setting op w with
    ⟨e, w', hexec, hstore, -⟩ | ⟨a, w', hop, -, hexec⟩
  · rw [hexec]
    exact hstore.symm ▸ hP
  · rw [hexec]
    exact h hop

end Run

end Badging
