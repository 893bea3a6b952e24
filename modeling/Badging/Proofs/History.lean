import Badging.Proofs.Review.Course

/-!
# Histories of a store

A history is a list of turns, each in a setting of its own. In a turn somebody performs an operation
or has a learner reviewed for a badge as they know it, which need not be the badge that is stored.
`won?` is the award that a turn reports as new, `notice?` what others have to be told of it, and
`deletes` says that a turn removes a badge.

What a turn does to the store is a path. It contains a removal only if the turn is one, and if the
turn wins an award the path passes through the insert that the store answered with `true`.
-/

namespace Badging

/-- What somebody does at a store. -/
inductive Act where
  | operation (op : Operation)
  | review (badge : Badge) (learner : LearnerId) (now : Instant)

/-- Something that is done, and the setting in which it is. -/
structure Turn where
  setting : Setting
  act : Act

namespace Turn

variable {σ : Type} [Store σ]

/-- The world after a turn. -/
def next (t : Turn) (w : World σ) : World σ :=
  match t.act with
  | .operation op => ((Run.perform op).exec t.setting w).2
  | .review b l now => ((Review.learner b l now).exec t.setting w).2

/-- The award that a turn reports as new: a review ended with it, or its insert was answered with
`true`. -/
def won? (t : Turn) (w : World σ) : Option Award :=
  match t.act with
  | .operation (.insertAward a) =>
    match ((Run.perform (.insertAward a)).exec t.setting w).1 with
    | .done true => some a
    | _ => none
  | .operation _ => none
  | .review b l now =>
    match ((Review.learner b l now).exec t.setting w).1 with
    | .done (.awarded a) => some a
    | _ => none

/-- What others are to be told of a turn: the award, if a review issued one. -/
def notice? (t : Turn) (w : World σ) : Option Notice :=
  match t.act with
  | .operation _ => none
  | .review b _ _ =>
    (t.won? w).map fun a => ⟨a.badge, b.name, a.learner, a.issuedAt, a.expiresAt, a.token⟩

def deletes (t : Turn) (id : BadgeId) (w : World σ) : Prop :=
  t.act = .operation (.deleteBadge id) ∧
    ((Run.perform (.deleteBadge id)).exec t.setting w).1 = .done ()

end Turn

namespace World

variable {σ : Type} [Store σ]

/-- The world after a history. -/
def after (w : World σ) : List Turn → World σ
  | [] => w
  | t :: ts => (t.next w).after ts

@[simp] theorem after_nil (w : World σ) : w.after [] = w := rfl

theorem after_cons (w : World σ) (t : Turn) (ts : List Turn) :
    w.after (t :: ts) = (t.next w).after ts := rfl

theorem after_append (w : World σ) (ts ts' : List Turn) :
    w.after (ts ++ ts') = (w.after ts).after ts' := by
  induction ts generalizing w with
  | nil => rfl
  | cons t ts ih => exact ih (t.next w)

end World

namespace Review

variable {σ : Type} [Store σ] {b : Badge} {l : LearnerId} {now : Instant}

theorem Minor.sparing (id : BadgeId) {op : Operation} {a : op.Answer} (h : Minor b l now op a) :
    Store.Sparing id op a := by
  cases op with
  | deleteBadge id' => cases h
  | _ => trivial

/-- The course of a review is a path without a removal. -/
theorem Course.reaches {s s' : σ} {n n' : List Notice} {outcome : Outcome}
    (h : Course b l now s n outcome s' n') (id : BadgeId) :
    Store.Reaches (Store.Sparing id) s s' := by
  cases outcome with
  | awarded a =>
    obtain ⟨s₁, s₂, token, hs₁, -, hop, hs', -⟩ := h
    have hbefore := hs₁.mono fun _ _ => Minor.sparing id
    exact (hbefore.step hop trivial).trans (hs'.mono fun _ _ => Minor.sparing id)
  | pending | alreadyAwarded => exact h.1.mono fun _ _ => Minor.sparing id

end Review

namespace Turn

variable {σ : Type} [Store σ]

theorem operation_cases (setting : Setting) (op : Operation) (w : World σ) :
    (next ⟨setting, .operation op⟩ w).sent = w.sent ∧
      ((next ⟨setting, .operation op⟩ w).store = w.store ∧
          (∀ a, ((Run.perform op).exec setting w).1 ≠ .done a) ∨
        ∃ a, Store.perform op w.store = .ok (a, (next ⟨setting, .operation op⟩ w).store) ∧
          ((Run.perform op).exec setting w).1 =
            .done (Run.received setting.faults w.calls op a)) := by
  unfold next
  dsimp only
  rcases Run.exec_perform_cases setting op w with
    ⟨e, w', hexec, hstore, hsent⟩ | ⟨a, w', hop, hsent, hexec⟩
  · rw [hexec]
    exact ⟨hsent, .inl ⟨hstore, fun _ heq => (by cases heq)⟩⟩
  · rw [hexec]
    exact ⟨hsent, .inr ⟨a, hop, rfl⟩⟩

theorem review_cases (setting : Setting) (b : Badge) (l : LearnerId) (now : Instant)
    (w : World σ) :
    (∃ outcome, ((Review.learner b l now).exec setting w).1 = .done outcome ∧
      Review.Course b l now w.store w.sent outcome
        ((Review.learner b l now).exec setting w).2.store
        ((Review.learner b l now).exec setting w).2.sent) ∨
    ((∀ outcome, ((Review.learner b l now).exec setting w).1 ≠ .done outcome) ∧
      Along (Review.Minor b l now) w.store w.sent
        ((Review.learner b l now).exec setting w).2.store
        ((Review.learner b l now).exec setting w).2.sent) := by
  have hcourse : Run.Triple setting (Along (Review.Minor b l now) w.store w.sent)
      (Review.learner b l now) _ _ := Review.triple_learner
  have h := hcourse w ⟨.refl, rfl⟩
  revert h
  rcases (Review.learner b l now).exec setting w with ⟨outcome | _ | _, w'⟩
  · intro h
    exact .inl ⟨outcome, rfl, h⟩
  · intro h
    exact .inr ⟨fun _ heq => (by cases heq), h⟩
  · intro h
    exact .inr ⟨fun _ heq => (by cases heq), h.1⟩

theorem reaches_sparing {t : Turn} {w : World σ} {id : BadgeId} (h : ¬ t.deletes id w) :
    Store.Reaches (Store.Sparing id) w.store (t.next w).store := by
  obtain ⟨setting, act⟩ := t
  cases act with
  | operation op =>
    rcases operation_cases setting op w with ⟨-, ⟨hstore, -⟩ | ⟨a, hop, hdone⟩⟩
    · rw [hstore]
      exact .refl
    · refine .single hop ?_
      cases op with
      | deleteBadge id' =>
        rintro rfl
        exact h ⟨rfl, hdone⟩
      | _ => trivial
  | review b l now =>
    rcases review_cases setting b l now w with ⟨outcome, -, hcourse⟩ | ⟨-, halong⟩
    · exact hcourse.reaches id
    · exact halong.1.mono fun _ _ => Review.Minor.sparing id

theorem reaches (t : Turn) (w : World σ) :
    Store.Reaches Store.Anything w.store (t.next w).store := by
  by_cases h : ∃ id, t.deletes id w
  · obtain ⟨id, hact, -⟩ := h
    obtain ⟨setting, act⟩ := t
    obtain rfl : act = .operation (.deleteBadge id) := hact
    rcases operation_cases setting (.deleteBadge id) w with ⟨-, ⟨hstore, -⟩ | ⟨a, hop, -⟩⟩
    · rw [hstore]
      exact .refl
    · exact .single hop trivial
  · rw [not_exists] at h
    exact (reaches_sparing (h ⟨0⟩)).mono fun _ _ _ => trivial

theorem reaches_after (w : World σ) (ts : List Turn) :
    Store.Reaches Store.Anything w.store (w.after ts).store := by
  induction ts generalizing w with
  | nil => exact .refl
  | cons t ts ih => exact (t.reaches w).trans (ih (t.next w))

/-- On the path of a turn that wins an award the award is inserted, and its badge is not removed
after that. -/
theorem reaches_of_won {t : Turn} {w : World σ} {a : Award} (h : t.won? w = some a) :
    ∃ s₁ s₂, Store.Reaches Store.Anything w.store s₁ ∧
      Store.perform (.insertAward a) s₁ = .ok (true, s₂) ∧
      Store.Reaches (Store.Sparing a.badge) s₂ (t.next w).store := by
  obtain ⟨setting, act⟩ := t
  cases act with
  | operation op =>
    cases op with
    | insertAward a' =>
      unfold won? at h
      dsimp only at h
      rcases operation_cases setting (.insertAward a') w with ⟨-, ⟨-, hnone⟩ | ⟨added, hop, hdone⟩⟩
      · split at h
        · next hdone => exact absurd hdone (hnone _)
        · cases h
      · rw [hdone] at h
        cases added with
        | false => cases h
        | true =>
          cases h
          exact ⟨w.store, _, .refl, hop, .refl⟩
    | _ => cases h
  | review b l now =>
    unfold won? at h
    dsimp only at h
    rcases review_cases setting b l now w with ⟨outcome, hdone, hcourse⟩ | ⟨hnone, -⟩
    · rw [hdone] at h
      cases outcome with
      | awarded a' =>
        cases h
        obtain ⟨s₁, s₂, token, hs₁, -, hop, hs', -⟩ := hcourse
        exact ⟨s₁, s₂, hs₁.mono fun _ _ _ => trivial, hop,
          hs'.mono fun _ _ => Review.Minor.sparing _⟩
      | pending | alreadyAwarded => cases h
    · split at h
      · next hdone => exact absurd hdone (hnone _)
      · cases h

theorem sent_next (t : Turn) (w : World σ) :
    (t.next w).sent = (t.notice? w).toList ++ w.sent := by
  obtain ⟨setting, act⟩ := t
  cases act with
  | operation op => exact (operation_cases setting op w).1
  | review b l now =>
    unfold notice? won? next
    dsimp only
    rcases review_cases setting b l now w with ⟨outcome, hdone, hcourse⟩ | ⟨hnone, halong⟩
    · rw [hdone]
      cases outcome with
      | awarded a =>
        obtain ⟨s₁, s₂, token, -, ha, -, -, hsent⟩ := hcourse
        obtain ⟨x, -, rfl⟩ := Award.issue_eq_ok_iff.1 ha
        rw [hsent]
        rfl
      | pending | alreadyAwarded => exact hcourse.2
    · split
      · next hdone => exact absurd hdone (hnone _)
      · exact halong.2

theorem won_review {setting : Setting} {b : Badge} {l : LearnerId} {now : Instant} {w : World σ}
    {a : Award} (h : won? ⟨setting, .review b l now⟩ w = some a) :
    a.badge = b.id ∧ a.learner = l ∧ a.issuedAt = now ∧ b.expiry.endOf now = .ok a.expiresAt := by
  unfold won? at h
  dsimp only at h
  rcases review_cases setting b l now w with ⟨outcome, hdone, hcourse⟩ | ⟨hnone, -⟩
  · rw [hdone] at h
    cases outcome with
    | awarded a' =>
      cases h
      obtain ⟨_, _, token, -, ha, -, -, -⟩ := hcourse
      obtain ⟨x, hx, rfl⟩ := Award.issue_eq_ok_iff.1 ha
      exact ⟨rfl, rfl, rfl, hx⟩
    | pending | alreadyAwarded => cases h
  · split at h
    · next hdone => exact absurd hdone (hnone _)
    · cases h

end Turn

end Badging
