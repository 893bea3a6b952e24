import Badging.Review.Verdict

/-!
# What checks are made of

The check of a requirement is put together from questions, of which none is about another learner,
and from lookups of manual awards. So what holds of these, and of a program whenever it holds of the
parts, holds of every such check. `Compositional P` is the second half of this, and
`Compositional.check` is the induction. Checks of the overall criterion are not covered, as they
read met records and nothing else.
-/

namespace Badging

namespace Review

variable {σ : Type}

/-- A property of programs that is passed on from the parts of a program to the whole. -/
structure Compositional (P : ∀ {α : Type}, Run σ ReviewError α → Prop) : Prop where
  pure : ∀ {α : Type} (a : α), P (pure a : Run σ ReviewError α)
  bind : ∀ {α β : Type} {x : Run σ ReviewError α} {f : α → Run σ ReviewError β},
    P x → (∀ a, P (f a)) → P (x >>= f)

namespace Compositional

variable {P : ∀ {α : Type}, Run σ ReviewError α → Prop} (hP : Compositional P)

include hP

theorem evaluateRest {xs : List (Run σ ReviewError Bool)} (method : Method) (h : ∀ x ∈ xs, P x) :
    P (method.evaluateRest xs) := by
  induction xs with
  | nil => exact hP.pure _
  | cons x xs ih =>
    refine hP.bind (h x List.mem_cons_self) fun passed => ?_
    split
    · exact hP.pure _
    · exact ih fun y hy => h y (List.mem_cons_of_mem _ hy)

theorem evaluate {xs : List (Run σ ReviewError Bool)} (method : Method) (h : ∀ x ∈ xs, P x) :
    P (method.evaluate xs) := by
  cases xs with
  | nil => exact hP.pure _
  | cons x xs => exact hP.evaluateRest method h

variable {l : LearnerId}

section Questions

variable (hask : ∀ q : Query, q.learner? = none ∨ q.learner? = some l → P (ask q))

include hask

theorem activityMet (c : Criterion.ActivityCondition) :
    P (activityMet l c : Run σ ReviewError Bool) := by
  refine hP.bind (hask _ (.inl rfl)) fun found => ?_
  split
  · exact hP.bind (hask _ (.inr rfl)) fun _ => hP.pure _
  · exact hP.pure _

theorem courseMet (c : Criterion.CourseCondition) : P (courseMet l c : Run σ ReviewError Bool) := by
  refine hP.bind (hask _ (.inl rfl)) fun found => ?_
  split
  · exact hP.pure _
  · refine hP.bind (hask _ (.inr rfl)) fun completed => ?_
    cases completed with
    | none => exact hP.pure _
    | some completedAt =>
      cases c.minGrade with
      | none => exact hP.pure _
      | some lowest => exact hP.bind (hask _ (.inr rfl)) fun _ => hP.pure _

theorem fieldMet (field : Criterion.ProfileField) :
    P (fieldMet l field : Run σ ReviewError Bool) := by
  refine hP.bind (hask _ (.inl rfl)) fun found => ?_
  split
  · exact hP.bind (hask _ (.inr rfl)) fun _ => hP.pure _
  · exact hP.pure _

variable [Store σ] {b : Badge} {c : Criterion}
  (hmanual : ∀ role, P (call (.manualExists c.badge l role)))

include hmanual

theorem roleMet (role : RoleId) : P (roleMet c.badge l role : Run σ ReviewError Bool) := by
  refine hP.bind (hask _ (.inl rfl)) fun found => ?_
  split
  · exact hmanual role
  · exact hP.pure _

/-- The checks of a requirement ask about the learner or about nobody, and look up manual awards. -/
theorem check (hc : c.isOverall = false) {x : Run σ ReviewError Bool} (hx : x ∈ checks b l c) :
    P x := by
  unfold checks at hx
  cases hkind : c.kind with
  | overall =>
    rw [Criterion.isOverall, Criterion.tag, hkind] at hc
    cases hc
  | activity conditions =>
    rw [hkind] at hx
    obtain ⟨d, -, rfl⟩ := List.mem_map.1 hx
    exact hP.activityMet hask d
  | manual roles =>
    rw [hkind] at hx
    obtain ⟨role, -, rfl⟩ := List.mem_map.1 hx
    exact hP.roleMet hask hmanual role
  | social networks =>
    rw [hkind] at hx
    obtain ⟨network, -, rfl⟩ := List.mem_map.1 hx
    exact hask _ (.inr rfl)
  | course condition =>
    rw [hkind] at hx
    obtain rfl := List.mem_singleton.1 hx
    exact hP.courseMet hask condition
  | courseSet conditions =>
    rw [hkind] at hx
    obtain ⟨d, -, rfl⟩ := List.mem_map.1 hx
    exact hP.courseMet hask d
  | profile fields =>
    rw [hkind] at hx
    obtain ⟨field, -, rfl⟩ := List.mem_map.1 hx
    exact hP.fieldMet hask field

theorem requirement (hc : c.isOverall = false) : P (criterion b l c) :=
  hP.evaluate _ fun _ hx => hP.check hask hmanual hc hx

end Questions

end Compositional

theorem checks_of_isOverall [Store σ] {b : Badge} {l : LearnerId} {c : Criterion}
    (hc : c.isOverall = true) :
    checks b l c = b.requirements.map (recordedMet l : Criterion → Run σ ReviewError Bool) := by
  have hkind : c.kind = .overall := by
    cases hkind : c.kind <;> simp [Criterion.isOverall, Criterion.tag, hkind, Criterion.Kind.tag]
      at hc ⊢
  unfold checks
  rw [hkind]

end Review

end Badging
