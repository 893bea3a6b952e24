import Badging.Proofs.Life.Law

/-!
# Chronicles of a store

In a chronicle badges are created, reviewed and changed by transitions, and rows are added and
removed, each event in a setting of its own. No status is written by hand. `Throughout P w es` says
that `P` holds of every event of a chronicle in the world in which it happens, with the current
world carried along.

A law of a badge's life is kept by every event which removes nothing that the law cannot do without,
and therefore by every chronicle of such events.
-/

namespace Badging

/-- Whether an operation writes a status. -/
def Operation.setsStatus : Operation → Bool
  | .setStatus _ _ => true
  | _ => false

namespace Badge

/-- Reads a badge and stores its status after a transition. A refused transition stores nothing. -/
def change {σ : Type} [Store σ] (id : BadgeId) (t : Transition) : Run σ StoreError Unit := do
  match ← Run.perform (.badge id) with
  | none => return ()
  | some b =>
    match b.apply t with
    | .error _ => return ()
    | .ok b' => Run.perform (.setStatus id b'.status)

theorem apply_of_roles {b d d' : Badge} {t : Transition} (hroles : d.roles = b.roles)
    (hstatus : d.status = b.status) (h : d.apply t = .ok d') :
    b.apply t = .ok { b with status := d'.status } := by
  cases t with
  | activate =>
    obtain ⟨hactive, hcomplete, rfl⟩ := activate_eq_ok_iff_complete.1 h
    rw [hstatus] at hactive
    refine activate_eq_ok_iff_complete.2 ⟨hactive, (complete_congr hroles).1 hcomplete, ?_⟩
    rw [hstatus]
  | deactivate =>
    cases h
    rw [deactivate, hstatus]
    rfl
  | lock =>
    cases h
    rw [lock, hstatus]
    rfl
  | archive =>
    cases h
    rfl

end Badge

/-- What somebody does at a store without writing a status by hand. -/
inductive Deed where
  | create (d : Definition)
  | operation (op : Operation) (h : op.setsStatus = false)
  | change (id : BadgeId) (t : Badge.Transition)
  | review (badge : Badge) (learner : LearnerId) (now : Instant)
  | pass (now : Instant)

/-- A deed, and the setting in which it is done. -/
structure Event where
  setting : Setting
  deed : Deed

variable {σ : Type} [Store σ]

namespace Event

/-- The world after an event, whatever came of it. -/
def next (e : Event) (w : World σ) : World σ :=
  match e.deed with
  | .create d => (d.create.exec e.setting w).2
  | .operation op _ => ((Run.perform op).exec e.setting w).2
  | .change id t => ((Badge.change id t).exec e.setting w).2
  | .review b l now => ((Review.learner b l now).exec e.setting w).2
  | .pass now => ((Review.pass now).exec e.setting w).2

/-- The event is an operation, and it is answered. -/
def performs (e : Event) (op : Operation) (w : World σ) : Prop :=
  (∃ h, e.deed = .operation op h) ∧ ∃ a, ((Run.perform op).exec e.setting w).1 = .done a

end Event

namespace World

/-- The world after a chronicle. -/
def through (w : World σ) : List Event → World σ
  | [] => w
  | e :: es => (e.next w).through es

/-- Each event of a chronicle has a property in the world in which it happens. -/
def Throughout (P : Event → World σ → Prop) (w : World σ) : List Event → Prop
  | [] => True
  | e :: es => P e w ∧ Throughout P (e.next w) es

end World

/-- What an event removes the statement can do without. -/
structure Event.Spares (R : Ledger → σ → Prop) (id : BadgeId) (Q : Option Badge → Prop) (e : Event)
    (w : World σ) : Prop where
  badge : e.performs (.deleteBadge id) w → Q none
  criterion : ∀ {c s b}, e.performs (.deleteCriterion c) w → R s w.store →
    s.badges.get? id = some b → b.isEditable = true → b.Owns c → Q (some b) →
      Q (some (b.without c))

namespace LifeLaw

open Run

variable {R : Ledger → σ → Prop} {form : Badge → Badge} {id : BadgeId} {Q : Option Badge → Prop}
  {setting : Setting} (C : FaithfulCatalog R form) (L : LifeLaw id Q)

include C L

theorem upholds_change (j : BadgeId) (t : Badge.Transition) :
    Upholds setting (Stands R id Q) (Badge.change j t) := by
  refine Triple.bind (triple_read C j) fun found => ?_
  cases found with
  | none =>
    refine Triple.pure ?_
    rintro t n ⟨s, hs, hQ, -⟩
    exact ⟨s, hs, hQ⟩
  | some stored =>
    dsimp only
    refine Triple.intro fun u n h => ?_
    obtain ⟨s, hs, hQ, hstored⟩ := h
    obtain ⟨b, hb, rfl⟩ := Option.map_eq_some_iff.1 hstored.symm
    cases ht : (form b).apply t with
    | error e =>
      refine Triple.pure ?_
      rintro u' n' ⟨rfl, -⟩
      exact ⟨s, hs, hQ⟩
    | ok b' =>
      have happly := Badge.apply_of_roles (C.roles_form hs hb) (C.status_form b) ht
      exact (upholds_setStatus C L happly rfl).starting ⟨s, hs, hQ, hb⟩

/-- An event keeps a law that can do without what it removes. -/
theorem stands_next {e : Event} {w : World σ} (h : Stands R id Q w.store w.sent)
    (hspares : e.Spares R id Q w) : Stands R id Q (e.next w).store (e.next w).sent := by
  obtain ⟨setting, deed⟩ := e
  cases deed with
  | create d => exact (L.keeps_create C d).after h
  | change j t => exact (L.upholds_change C j t).keeps.after h
  | review b l now => exact (L.keeps_learner C b l now).after h
  | pass now => exact (L.keeps_pass C now).after h
  | operation op hop =>
    obtain ⟨s, hs, hQ⟩ := h
    show ∃ s, R s ((Run.perform op).exec setting w).2.store ∧ Q (s.badges.get? id)
    rcases exec_perform_cases setting op w with
      ⟨e, w', hexec, hstore, -⟩ | ⟨a, w', hperform, -, hexec⟩
    · rw [hexec, hstore]
      exact ⟨s, hs, hQ⟩
    · have hperforms : Event.performs ⟨setting, .operation op hop⟩ op w :=
        ⟨⟨hop, rfl⟩, _, by rw [hexec]⟩
      rw [hexec]
      refine L.step C hs hQ ⟨?_, ?_, ?_⟩ hperform
      · rintro status b rfl
        cases hop
      · rintro rfl
        exact hspares.badge hperforms
      · rintro c b rfl hb hedit hc
        exact hspares.criterion hperforms hs hb hedit hc

/-- A law is kept throughout a chronicle that removes nothing which it needs. -/
theorem stands_through {w : World σ} (es : List Event) (h : Stands R id Q w.store w.sent)
    (hspares : w.Throughout (Event.Spares R id Q) es) :
    Stands R id Q (w.through es).store (w.through es).sent := by
  induction es generalizing w with
  | nil => exact h
  | cons e es ih => exact ih (L.stands_next C h hspares.1) hspares.2

end LifeLaw

/-- A store that was reached by a chronicle has the badges of some ledger. -/
theorem FaithfulCatalog.exists_through {R : Ledger → σ → Prop} {form : Badge → Badge}
    (C : FaithfulCatalog R form) {w : World σ} (h : ∃ s, R s w.store) (es : List Event) :
    ∃ s, R s (w.through es).store := by
  have L : LifeLaw ⟨0⟩ fun _ => True := ⟨fun _ _ => trivial, fun _ _ => trivial, fun _ _ => trivial⟩
  have hspares : ∀ es w, World.Throughout (Event.Spares R ⟨0⟩ fun _ => True) w es := by
    intro es
    induction es with
    | nil => exact fun _ => trivial
    | cons e es ih => exact fun w => ⟨⟨fun _ => trivial, fun _ _ _ _ _ _ => trivial⟩, ih _⟩
  obtain ⟨s, hs⟩ := h
  obtain ⟨s', hs', -⟩ := L.stands_through C es ⟨s, hs, trivial⟩ (hspares es w)
  exact ⟨s', hs'⟩

end Badging
