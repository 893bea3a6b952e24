import Badging.Proofs.Review.Course
import Badging.Proofs.Review.Selection

/-!
# What a review complains of

A review fails with an error of a store or of a source, or because the badge lacks an overall
criterion. The last is found out from the badge that the review is given, so a review of a badge
that has one never fails with it, whatever the store holds and whichever calls fail, and no failure
of that sort is in the report of a pass that lists such a badge.
-/

namespace Badging

/-- The error is of a store or a source, and not of the badge. -/
def ReviewError.IsOutside : ReviewError → Prop
  | .missingOverall _ => False
  | .source _ | .store _ => True

namespace Review

open Run

variable {σ ε : Type} {setting : Setting} {b : Badge} {l : LearnerId} {now : Instant}

/-- If the program fails, something outside is to blame. -/
def FailsOutside {α : Type} (setting : Setting) (x : Run σ ReviewError α) : Prop :=
  Triple setting (fun _ _ => True) x (fun _ _ _ => True) fun cut _ _ =>
    ∀ e, cut = .failed e → e.IsOutside

theorem compositional_failsOutside (setting : Setting) :
    Compositional fun x : Run σ ReviewError _ => FailsOutside setting x :=
  ⟨fun _ => Triple.pure fun _ _ _ => trivial, fun hx hf => Triple.bind hx fun a => hf a⟩

theorem failsOutside_ask (q : Query) :
    FailsOutside setting (ask q : Run σ ReviewError q.Answer) := by
  refine Triple.mapError (E := fun _ _ _ => True) (Triple.ask (fun _ _ _ _ _ => trivial)
    fun _ _ _ _ _ => trivial) (fun e s n _ e' he => ?_) fun p s n _ e' he => ?_
  · cases he
    trivial
  · cases he

theorem failsOutside_attempt {α ε : Type} (x : Run σ ε α) :
    FailsOutside setting (Run.attempt x : Run σ ReviewError (Except ε α)) := by
  intro w _
  rw [exec_attempt]
  rcases x.exec setting w with ⟨_ | _ | _, w'⟩
  · trivial
  · trivial
  · intro e he
    cases he

variable [Store σ]

theorem failsOutside_call (op : Operation) :
    FailsOutside setting (call op : Run σ ReviewError op.Answer) := by
  refine Triple.mapError (E := fun _ _ _ => True) (Triple.perform (fun _ _ _ _ _ => trivial)
    fun _ _ _ _ _ _ _ => trivial) (fun e s n _ e' he => ?_) fun p s n _ e' he => ?_
  · cases he
    trivial
  · cases he

theorem failsOutside_criterion (c : Criterion) :
    FailsOutside setting (criterion b l c : Run σ ReviewError Bool) := by
  cases hc : c.isOverall with
  | true =>
    refine (compositional_failsOutside setting).evaluate _ fun x hx => ?_
    rw [checks_of_isOverall hc] at hx
    obtain ⟨d, -, rfl⟩ := List.mem_map.1 hx
    exact (compositional_failsOutside setting).bind (failsOutside_call _) fun _ =>
      (compositional_failsOutside setting).pure _
  | false =>
    exact (compositional_failsOutside setting).requirement (fun q _ => failsOutside_ask q)
      (fun _ => failsOutside_call _) hc

theorem failsOutside_settleAll (cs : List Criterion) :
    FailsOutside setting (settleAll b l now cs : Run σ ReviewError Nat) := by
  have H := compositional_failsOutside (σ := σ) setting
  induction cs with
  | nil => exact H.pure 0
  | cons c cs ih =>
    refine H.bind ?_ fun met => H.bind ih fun rest => H.pure _
    refine H.bind (failsOutside_call _) fun record => ?_
    split
    · exact H.pure true
    · refine H.bind (failsOutside_criterion c) fun holds => ?_
      split
      · exact H.bind (failsOutside_call _) fun _ => H.pure true
      · exact H.pure false

theorem failsOutside_issue :
    FailsOutside setting (issue b l now : Run σ ReviewError Outcome) := by
  have H := compositional_failsOutside (σ := σ) setting
  refine H.bind (Triple.freshToken fun _ _ _ _ => trivial) fun token => ?_
  cases Award.issue b l now token with
  | error p => exact Triple.breakOff fun _ _ _ e he => by cases he
  | ok a =>
    refine H.bind (failsOutside_call _) fun added => ?_
    cases added with
    | false => exact H.pure _
    | true =>
      refine H.bind (failsOutside_attempt (lockAwarded b.id)) fun _ => ?_
      exact H.bind (Triple.notify fun _ _ _ => trivial) fun _ => H.pure _

/-- A review of a badge that has an overall criterion does not complain of its lack. -/
theorem failsOutside_learner (h : b.overall?.isSome = true) (l : LearnerId) :
    FailsOutside setting (learner b l now : Run σ ReviewError Outcome) := by
  have H := compositional_failsOutside (σ := σ) setting
  refine H.bind (failsOutside_call _) fun award => ?_
  split
  · exact H.pure _
  · cases ho : b.overall? with
    | none => rw [ho] at h; cases h
    | some overall =>
      refine H.bind (failsOutside_settleAll _) fun met => ?_
      refine H.bind (failsOutside_criterion overall) fun holds => ?_
      split
      · exact H.bind (failsOutside_call _) fun _ => failsOutside_issue
      · exact H.pure _

/-- What failed of the badge failed for something outside. -/
def Report.BlamesOutside (id : BadgeId) (r : Report) : Prop :=
  ∀ f ∈ r.failures, f.badge = id → f.cause.IsOutside

theorem Report.BlamesOutside.add {id : BadgeId} {r r' : Report} (h : r.BlamesOutside id)
    (h' : r'.BlamesOutside id) : (r + r').BlamesOutside id := by
  intro f hf
  rcases List.mem_append.1 (show f ∈ r.failures ++ r'.failures from hf) with hf | hf
  · exact h f hf
  · exact h' f hf

theorem Report.BlamesOutside.of_nil {id : BadgeId} {r : Report} (h : r.failures = []) :
    r.BlamesOutside id := by
  intro f hf
  rw [h] at hf
  cases hf

variable {id : BadgeId}

theorem triple_learners_blamesOutside (h : b.id = id → b.overall?.isSome = true)
    (ls : List LearnerId) :
    Triple setting (fun (_ : σ) _ => True) (learners b now ls : Run σ ε Report)
      (fun r _ _ => r.BlamesOutside id) fun _ _ _ => True := by
  induction ls with
  | nil => exact Triple.pure fun _ _ _ => .of_nil rfl
  | cons l ls ih =>
    have hone : Triple setting (fun (_ : σ) _ => True)
        (Run.attempt (learner b l now) : Run σ ε (Except ReviewError Outcome))
        (fun v _ _ => (Report.ofLearner b.id l v).BlamesOutside id) fun _ _ _ => True := by
      by_cases hid : b.id = id
      · refine Triple.attempt (failsOutside_learner (h hid) l) (fun _ _ _ _ => .of_nil rfl)
          (fun e _ _ he f hf _ => ?_) fun _ _ _ _ => trivial
        rw [List.mem_singleton.1 hf]
        exact he e rfl
      · refine Triple.attempt (Q := fun _ _ _ => True) (E := fun _ _ _ => True) ?_
          (fun _ _ _ _ => .of_nil rfl) (fun e _ _ _ f hf hfid => ?_) fun _ _ _ _ => trivial
        · intro w _
          rcases (learner b l now).exec setting w with ⟨_ | _ | _, w'⟩ <;> trivial
        · rw [List.mem_singleton.1 hf] at hfid
          exact absurd hfid hid
    refine Triple.bind hone fun v => Triple.of_fact fun hv => ?_
    exact Triple.bind ih fun rest => Triple.pure fun _ _ hrest => hv.add hrest

theorem triple_badges_blamesOutside {bs : List Badge}
    (h : ∀ b ∈ bs, Reviewable setting.facts now b → b.id = id → b.overall?.isSome = true) :
    Triple setting (fun (_ : σ) _ => True) (badges now bs : Run σ ε Report)
      (fun r _ _ => r.BlamesOutside id) fun _ _ _ => True := by
  induction bs with
  | nil => exact Triple.pure fun _ _ _ => .of_nil rfl
  | cons b bs ih =>
    have hone : Triple setting (fun (_ : σ) _ => True) (badge b now : Run σ ε Report)
        (fun r _ _ => r.BlamesOutside id) fun _ _ _ => True := by
      refine triple_badge_cases (fun _ e _ _ _ f hf _ => ?_) (fun _ _ _ _ => .of_nil rfl)
        fun ls hreviewable _ => ?_
      · rw [List.mem_singleton.1 hf]
        trivial
      · refine (triple_learners_blamesOutside (h b List.mem_cons_self hreviewable) ls).weaken
          (fun _ _ h => h) (fun r _ _ hr => ?_) fun _ _ _ h => h
        exact Report.BlamesOutside.add (.of_nil rfl) hr
    refine Triple.bind hone fun r => Triple.of_fact fun hr => ?_
    exact Triple.bind (ih fun d hd => h d (List.mem_cons_of_mem _ hd)) fun rest =>
      Triple.pure fun _ _ hrest => hr.add hrest

end Review

end Badging
