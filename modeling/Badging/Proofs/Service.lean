import Badging.Definition
import Badging.Proofs.Review.Passing

/-!
# A badge service

A service keeps badges in a ledger and is asked for five things: to create a badge, to delete one,
to record a manual award, to review a learner for a badge that it reads from the ledger, and to make
a pass. Each request is served in a setting of its own, so its facts, its tokens and the calls that
fail in it are its own, too.

What a request does to the ledger depends on its sort. Reviews and passes take the ledger forward.
The creation of a badge leaves everything that is there as it is.
-/

namespace Badging

/-- What a badge service is asked for. -/
inductive Request where
  | create (d : Definition)
  | delete (id : BadgeId)
  | recordManual (a : ManualAward)
  | review (id : BadgeId) (learner : LearnerId) (now : Instant)
  | pass (now : Instant)

/-- Reviews a learner for a badge as it is stored, if it is. -/
def Review.stored (id : BadgeId) (l : LearnerId) (now : Instant) :
    Run Ledger ReviewError (Option Review.Outcome) := do
  match ← Review.call (.badge id) with
  | none => return none
  | some b =>
    let outcome ← Review.learner b l now
    return some outcome

namespace Request

def time? : Request → Option Instant
  | .review _ _ now => some now
  | .pass now => some now
  | _ => none

/-- The world after a request, whether it was granted or not. -/
def serve (setting : Setting) (w : World Ledger) : Request → World Ledger
  | .create d => (d.create.exec setting w).2
  | .delete id => ((Run.perform (.deleteBadge id)).exec setting w).2
  | .recordManual a => ((Run.perform (.recordManual a)).exec setting w).2
  | .review id l now => ((Review.stored id l now).exec setting w).2
  | .pass now => ((Review.pass now).exec setting w).2

end Request

/-- The world of a service that was new and has served the given requests. -/
def served (past : List (Setting × Request)) : World Ledger :=
  past.foldl (fun w p => p.2.serve p.1 w) (.ofStore .empty)

namespace Review

open Run

theorem triple_stored {setting : Setting} {s₀ : Ledger} {l : LearnerId} {now : Instant}
    (hs₀ : s₀.Sound) (id : BadgeId) (m : List Notice) :
    Triple setting (fun s n => s = s₀ ∧ n = m) (stored id l now)
      (fun _ s _ => Advance setting.facts now (fun _ _ => True) s₀ s)
      fun _ s _ => Advance setting.facts now (fun _ _ => True) s₀ s := by
  have hcall : Triple setting (fun s n => s = s₀ ∧ n = m) (call (.badge id))
      (fun b s n => (s = s₀ ∧ n = m) ∧ b = s₀.badges.get? id)
      fun _ s n => (s = s₀ ∧ n = m) ∧ setting.faults ≠ .empty :=
    triple_call fun s n h => ⟨s.badges.get? id, s, rfl, fun _ => ⟨h, by rw [h.1]; rfl⟩⟩
  refine Triple.bind (hcall.weaken (fun _ _ h => h) (fun _ _ _ h => h) ?_) fun b => ?_
  · rintro _ s n ⟨⟨rfl, -⟩, -⟩
    exact Advance.refl
  · refine Triple.intro fun s n h => ?_
    obtain ⟨⟨rfl, rfl⟩, rfl⟩ := h
    cases hb : s.badges.get? id with
    | none =>
      refine Triple.pure fun s' n' h => ?_
      rw [h.1]
      exact Advance.refl
    | some b =>
      have hb' : s.badges.get? b.id = some b := by rw [(hs₀.badge hb).id_eq, hb]
      have hlearner : Triple setting
          (Under setting.facts now (fun _ _ => True) s n.length fun _ => True)
          (learner b l now) _ _ :=
        triple_learner_under hs₀ (fun _ _ => trivial) hb' fun _ _ _ _ => trivial
      refine Triple.bind (hlearner.weaken ?_ (fun _ _ _ h => h.1) fun _ _ _ h => h.1.1)
        fun _ => Triple.pure fun _ _ h => h
      rintro s' n' ⟨rfl, rfl⟩
      exact ⟨Advance.refl, rfl, trivial⟩

end Review

/-- The ledger `s` has the rows of `s₀`, its badges, and perhaps other badges. -/
structure Ledger.Extends (s₀ s : Ledger) : Prop where
  met : s.met = s₀.met
  manual : s.manual = s₀.manual
  awards : s.awards = s₀.awards
  badges : ∀ {id b}, s₀.badges.get? id = some b → s.badges.get? id = some b

namespace Ledger

variable {s₀ s s' : Ledger} {id : BadgeId}

theorem Extends.refl : Extends s₀ s₀ := ⟨rfl, rfl, rfl, fun h => h⟩

theorem Extends.insert (h : Extends s₀ s) (hid : s₀.badges.get? id = none) (b : Badge)
    (last last' : Int) : Extends s₀ { s with
      lastBadge := last, lastCriterion := last', badges := s.badges.insert id b } := by
  refine ⟨h.met, h.manual, h.awards, fun {j d} hj => ?_⟩
  dsimp only
  rw [s.badges.get?_insert_of_ne, h.badges hj]
  rintro rfl
  rw [hid] at hj
  cases hj

/-- A badge that is not one of `s₀` has no rows, so nothing is lost with it. -/
theorem Extends.erase (hs₀ : s₀.Sound) (h : Extends s₀ s) (hid : s₀.badges.get? id = none) :
    Extends s₀ { s with
      badges := s.badges.erase id
      met := s.met.filter fun _ r => r.badge ≠ id
      manual := s.manual.filter fun k _ => k.fst ≠ id
      awards := s.awards.filter fun k _ => k.fst ≠ id } := by
  have hne : ∀ {j b}, s₀.badges.get? j = some b → j ≠ id := by
    rintro j b hj rfl
    rw [hid] at hj
    cases hj
  refine ⟨?_, ?_, ?_, fun {j b} hj => Register.get?_erase_eq_some_iff.2 ⟨hne hj, h.badges hj⟩⟩
  · dsimp only
    rw [h.met]
    refine Register.filter_eq_self fun k r hr => ?_
    obtain ⟨-, b, hb, -⟩ := hs₀.met hr
    simpa using hne hb
  · dsimp only
    rw [h.manual]
    refine Register.filter_eq_self fun k a ha => ?_
    obtain ⟨rfl, b, hb⟩ := hs₀.manual ha
    simpa using hne hb
  · dsimp only
    rw [h.awards]
    refine Register.filter_eq_self fun k a ha => ?_
    obtain ⟨rfl, b, hb⟩ := hs₀.awards ha
    simpa using hne hb

end Ledger

namespace Definition

open Run Ledger

variable {setting : Setting} {s₀ : Ledger} {id : BadgeId}

theorem keeps_perform (hs₀ : s₀.Sound) (hid : s₀.badges.get? id = none) {op : Operation}
    (hop : (∃ r, op = .addCriterion id r) ∨ (∃ status, op = .setStatus id status) ∨
      op = .deleteBadge id) :
    Keeps setting (fun s _ => Extends s₀ s) (Run.perform op) := by
  refine Keeps.perform fun a s s' n hs h => ?_
  cases effect_of_perform h with
  | idle hidle => rcases hop with ⟨r, rfl⟩ | ⟨status, rfl⟩ | rfl <;> cases hidle
  | addCriterion =>
    obtain ⟨r, hop⟩ | ⟨_, hop⟩ | hop := hop <;> cases hop
    exact hs.insert hid _ _ _
  | setStatus =>
    obtain ⟨_, hop⟩ | ⟨_, hop⟩ | hop := hop <;> cases hop
    exact hs.insert hid _ _ _
  | deleteBadge =>
    obtain ⟨_, hop⟩ | ⟨_, hop⟩ | hop := hop <;> cases hop
    exact hs.erase hs₀ hid
  | _ => obtain ⟨_, hop⟩ | ⟨_, hop⟩ | hop := hop <;> cases hop

section Kept

variable {σ : Type} [Store σ] {I : Assertion σ} {b : Badge}

theorem triple_addCriteria (h : ∀ r, Keeps setting I (Run.perform (.addCriterion b.id r)))
    (rs : List Criterion.Record) :
    Triple setting I (addCriteria b rs) (fun b' s n => I s n ∧ b'.id = b.id) fun _ => I := by
  induction rs generalizing b with
  | nil => exact Triple.pure fun _ _ h => ⟨h, rfl⟩
  | cons r rs ih =>
    refine Triple.bind (Keeps.mapError (h r)) fun c => ?_
    exact ih (b := { b with criteria := b.criteria ++ [c] }) h

theorem keeps_configure (hadd : ∀ r, Keeps setting I (Run.perform (.addCriterion b.id r)))
    (hstatus : ∀ status, Keeps setting I (Run.perform (.setStatus b.id status)))
    (d : Definition) : Keeps setting I (configure b d) := by
  refine Triple.bind (triple_addCriteria hadd d.criteria) fun b' => ?_
  split
  · cases hactivate : b'.activate with
    | error e => exact Triple.fail fun _ _ h => h.1
    | ok b'' =>
      refine Triple.assume fun hid => ?_
      obtain ⟨-, -, -, rfl⟩ := Badge.activate_eq_ok_iff.1 hactivate
      dsimp only
      rw [hid]
      exact Keeps.bind (Keeps.mapError (hstatus b'.status.activated)) fun _ => Keeps.pure
  · exact Triple.pure fun _ _ h => h.1

theorem keeps_create (h : ∀ {op : Operation}, Keeps setting I (Run.perform op)) (d : Definition) :
    Keeps setting I d.create := by
  refine Keeps.bind (Keeps.mapError h) fun b => ?_
  exact Triple.bind_attempt (keeps_configure (fun _ => h) (fun _ => h) d) (fun b' => Keeps.pure)
    (fun e => Keeps.bind (Keeps.attempt h) fun _ => Triple.fail fun _ _ h => h) fun _ _ _ h => h

end Kept

/-- Creating a badge leaves everything that is there. -/
theorem triple_create (hs₀ : s₀.Sound) (d : Definition) (m : List Notice) :
    Triple setting (fun s n => s = s₀ ∧ n = m) (d.create)
      (fun _ s _ => Extends s₀ s) fun _ s _ => Extends s₀ s := by
  have hinsert : Triple setting (fun s n => s = s₀ ∧ n = m) (call (.insertBadge d.newBadge))
      (fun b s _ => Extends s₀ s ∧ s₀.badges.get? b.id = none) fun _ s _ => Extends s₀ s := by
    refine Triple.mapError (E := fun _ s _ => Extends s₀ s) (Triple.perform ?_ ?_)
      (fun _ _ _ h => h) fun _ _ _ h => h
    · rintro e s n ⟨rfl, -⟩ -
      exact Extends.refl
    · rintro h b s s' n ⟨rfl, -⟩ hop
      cases effect_of_perform hop with
      | idle hidle => cases hidle
      | insertBadge => exact ⟨Extends.refl.insert hs₀.get?_next _ _ _, hs₀.get?_next⟩
  refine Triple.bind hinsert fun b => Triple.assume fun hid => ?_
  have hconfigure : Keeps setting (fun s _ => Extends s₀ s) (configure b d) :=
    keeps_configure (fun r => keeps_perform hs₀ hid (.inl ⟨r, rfl⟩))
      (fun status => keeps_perform hs₀ hid (.inr (.inl ⟨status, rfl⟩))) d
  refine Triple.bind_attempt hconfigure (fun b' => Keeps.pure) (fun e => ?_) fun _ _ _ h => h
  refine Keeps.bind (Keeps.attempt (keeps_perform hs₀ hid (.inr (.inr rfl)))) fun _ => ?_
  exact Triple.fail fun _ _ h => h

end Definition

end Badging
