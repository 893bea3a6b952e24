import Badging.Proofs.Review.Check
import Badging.Proofs.Store.Path
import Badging.Review.Learner
import Badging.Store.Database

/-!
# The course of a review

Whatever the facts, the times and the faults are, the review of a learner changes the store by few
kinds of operations. `Minor` lists those other than the insert of the award: it reads, it records
that a criterion of the badge is met now, and it locks the badge; an insert counts as minor if it
was answered with `false`. `Course` puts a whole review together. A review that ends with an award
is a minor path, the one insert that succeeded, and a minor path again, with one notice sent; every
other review is a minor path with no notice sent, also if it is cut short.
-/

namespace Badging

namespace Review

open Run

/-- What the review of a learner may do to a store apart from inserting an award. -/
def Minor (b : Badge) (l : LearnerId) (now : Instant) : (op : Operation) → op.Answer → Prop
  | .insertAward _, added => added = false
  | .markMet r, _ => ∃ c ∈ b.criteria, r = c.met l now
  | .setStatus id status, _ => id = b.id ∧ status = .activeLocked
  | op, _ => op.isReading = true

variable {σ : Type} {setting : Setting} {l : LearnerId}

theorem upholds_ask {q : Query} {I : Assertion σ} :
    Upholds setting I (ask q : Run σ ReviewError q.Answer) :=
  Upholds.mapError Upholds.ask

theorem compositional_upholds {I : Assertion σ} :
    Compositional fun x : Run σ ReviewError _ => Upholds setting I x :=
  ⟨fun _ => Upholds.pure, Upholds.bind⟩

variable [Store σ]

/-- What a review that ended with an outcome did to the store and to the notices. -/
def Course (b : Badge) (l : LearnerId) (now : Instant) (s : σ) (n : List Notice) :
    Outcome → Assertion σ
  | .awarded a => fun s' n' => ∃ s₁ s₂ token, Store.Reaches (Minor b l now) s s₁ ∧
      Award.issue b l now token = .ok a ∧ Store.perform (.insertAward a) s₁ = .ok (true, s₂) ∧
      Store.Reaches (Minor b l now) s₂ s' ∧ n' = a.notice b :: n
  | _ => Along (Minor b l now) s n

variable {b : Badge} {now : Instant} {s : σ} {n : List Notice}

section Upheld

variable {I : Assertion σ}

theorem upholds_call {op : Operation} (h : Upholds setting I (Run.perform op)) :
    Upholds setting I (call op) :=
  Upholds.mapError h

/-- What every operation that reads upholds. -/
def ReadingUpholds (setting : Setting) (I : Assertion σ) : Prop :=
  ∀ {op : Operation}, op.isReading = true → Upholds setting I (Run.perform op)

theorem upholds_criterion (hread : ReadingUpholds setting I) (c : Criterion) :
    Upholds setting I (criterion b l c) := by
  cases hc : c.isOverall with
  | true =>
    refine compositional_upholds.evaluate _ fun x hx => ?_
    rw [checks_of_isOverall hc] at hx
    obtain ⟨d, -, rfl⟩ := List.mem_map.1 hx
    exact Upholds.bind (upholds_call (hread rfl)) fun _ => Upholds.pure
  | false =>
    exact compositional_upholds.requirement (fun _ _ => upholds_ask)
      (fun _ => upholds_call (hread rfl)) hc

theorem upholds_settleAll (hread : ReadingUpholds setting I) (cs : List Criterion)
    (hmark : ∀ c ∈ cs, Upholds setting I (Run.perform (.markMet (c.met l now)))) :
    Upholds setting I (settleAll b l now cs) := by
  induction cs with
  | nil => exact Upholds.pure
  | cons c cs ih =>
    refine Upholds.bind ?_ fun met => Upholds.bind
      (ih fun d hd => hmark d (List.mem_cons_of_mem _ hd)) fun rest => Upholds.pure
    refine Upholds.bind (upholds_call (hread rfl)) fun record => ?_
    split
    · exact Upholds.pure
    · refine Upholds.bind (upholds_criterion hread c) fun holds => ?_
      split
      · exact Upholds.bind (upholds_call (hmark c List.mem_cons_self)) fun _ => Upholds.pure
      · exact Upholds.pure

end Upheld

theorem along_read : ReadingUpholds setting (Along (Minor b l now) s n) := fun {op} h =>
  Along.perform fun a => by cases op <;> first | exact h | cases h

theorem along_markMet {c : Criterion} (hc : c ∈ b.criteria) :
    Upholds setting (Along (Minor b l now) s n) (Run.perform (.markMet (c.met l now))) :=
  Along.perform fun _ => ⟨c, hc, rfl⟩

/-- Locking a badge after its award reads it and stores the one status. It may fail, but it does
not break off. -/
theorem upholds_lockAwarded :
    Upholds setting (Along (Minor b l now) s n) (lockAwarded b.id) := by
  refine Upholds.bind (Along.perform fun _ => rfl) fun stored => ?_
  cases stored with
  | none => exact Upholds.pure
  | some stored =>
    dsimp only
    split
    · next hactive => exact Along.perform fun _ => ⟨rfl, by rw [Badge.lock, hactive]; rfl⟩
    · exact Upholds.pure

/-- A cut keeps `I`, and the run breaks off only because the period of the badge cannot be
measured. -/
def Unmeasured {ε : Type} (b : Badge) (now : Instant) (I : Assertion σ) : Cut ε → Assertion σ
  | .failed _ => I
  | .broken p => fun s n => I s n ∧ b.expiry.endOf now = .error p

omit [Store σ] in
theorem Unmeasured.kept {ε : Type} {I : Assertion σ} {cut : Cut ε} {s : σ} {n : List Notice}
    (h : Unmeasured b now I cut s n) : I s n := by
  cases cut with
  | failed e => exact h
  | broken p => exact h.1

/-- Issuing inserts the award at most once, and sends a notice exactly if the insert succeeded. -/
theorem triple_issue :
    Triple setting (Along (Minor b l now) s n) (issue b l now) (Course b l now s n)
      (Unmeasured b now (Along (Minor b l now) s n)) := by
  refine Triple.bind (Triple.freshToken (Q := fun _ => Along (Minor b l now) s n)
    fun _ _ _ h => h) fun token => ?_
  cases ha : Award.issue b l now token with
  | error p => exact Triple.breakOff fun _ _ h => ⟨h, Award.issue_eq_error_iff.1 ha⟩
  | ok a =>
    dsimp only
    let Inserted (added : Bool) : Assertion σ := fun s' n' => if added then
      ∃ s₁, Store.Reaches (Minor b l now) s s₁ ∧
        Store.perform (.insertAward a) s₁ = .ok (true, s') ∧ n' = n
      else Along (Minor b l now) s n s' n'
    have hinsert : Triple setting (Along (Minor b l now) s n) (call (.insertAward a)) Inserted
        (Unmeasured b now (Along (Minor b l now) s n)) := by
      refine Triple.mapError (Triple.perform (E := Unbroken (Along (Minor b l now) s n))
        (fun _ _ _ h _ => h) fun h added s₁ s₂ n' hs hop => ?_) (fun _ _ _ h => h)
        fun _ _ _ h => h.elim
      cases added with
      | true => exact ⟨s₁, hs.1, hop, hs.2⟩
      | false => exact ⟨hs.1.step hop rfl, hs.2⟩
    refine Triple.bind hinsert fun added => ?_
    cases added with
    | false => exact Triple.pure fun _ _ h => h
    | true =>
      refine Triple.intro fun s₂ n' hs => ?_
      obtain ⟨s₁, hs₁, hop, rfl⟩ := hs
      have hlock : Triple setting (Along (Minor b l now) s₂ n') (lockAwarded b.id) _ _ :=
        upholds_lockAwarded
      refine Triple.bind (Q := fun _ => Along (Minor b l now) s₂ n')
        (Triple.attempt (hlock.starting ⟨.refl, rfl⟩) (fun _ _ _ h => h) (fun _ _ _ h => h)
          fun _ _ _ h => h.elim) fun _ => ?_
      refine Triple.bind (Q := fun _ s' n'' => Store.Reaches (Minor b l now) s₂ s' ∧
          n'' = a.notice b :: n') (Triple.notify fun s' n'' h => ⟨h.1, by rw [h.2]⟩) fun _ => ?_
      exact Triple.pure fun s' n'' h => ⟨s₁, s₂, token, hs₁, ha, hop, h.1, h.2⟩

/-- The review of a learner upholds what reading and recording uphold, until it issues the badge. -/
theorem triple_learner_of_issue {I : Assertion σ} {Q : Outcome → Assertion σ}
    {E : Cut ReviewError → Assertion σ} (hread : ReadingUpholds setting I)
    (hmark : ∀ c ∈ b.criteria, Upholds setting I (Run.perform (.markMet (c.met l now))))
    (hfailed : ∀ e s n, I s n → E (.failed e) s n)
    (hother : ∀ outcome s n, outcome.isAwarded = false → I s n → Q outcome s n)
    (hissue : Triple setting I (issue b l now) Q E) :
    Triple setting I (learner b l now) Q E := by
  have hupheld : ∀ {α : Type} {x : Run σ ReviewError α}, Upholds setting I x →
      Triple setting I x (fun _ => I) E := fun h =>
    h.weaken (fun _ _ h => h) (fun _ _ _ h => h) fun c s n h => by
      cases c with
      | failed e => exact hfailed e s n h
      | broken p => exact h.elim
  refine Triple.bind (hupheld (upholds_call (hread rfl))) fun award => ?_
  split
  · exact Triple.pure fun s n => hother _ s n rfl
  · cases ho : b.overall? with
    | none => exact Triple.fail fun s n => hfailed _ s n
    | some overall =>
      refine Triple.bind (hupheld (upholds_settleAll hread b.requirements fun c hc =>
        hmark c (Badge.mem_requirements_iff.1 hc).1)) fun met => ?_
      refine Triple.bind (hupheld (upholds_criterion hread overall)) fun holds => ?_
      split
      · refine Triple.bind (hupheld (upholds_call (hmark overall ?_))) fun _ => hissue
        exact List.mem_of_find?_eq_some ho
      · exact Triple.pure fun s n => hother _ s n rfl

theorem triple_learner :
    Triple setting (Along (Minor b l now) s n) (learner b l now) (Course b l now s n)
      (Unmeasured b now (Along (Minor b l now) s n)) := by
  refine triple_learner_of_issue along_read (fun c hc => along_markMet hc) (fun _ _ _ h => h)
    (fun outcome s' n' hother h => ?_) triple_issue
  cases outcome with
  | awarded a => cases hother
  | pending | alreadyAwarded => exact h

end Review

end Badging
