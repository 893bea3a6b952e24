import Badging.Proofs.Award.Justified
import Badging.Proofs.Review.Locking

/-!
# The locks of a pass

The lock belongs to the award. If writing it fails, the award stays, and nobody makes up for the
lock: whoever has the award already is not reviewed again, and only a review that issues an award
writes a status. So a pass over a store that does what it is asked locks the badges to which it adds
an award, and every other badge keeps the status it had.

`Relocked s₀ s` says this of the ledger `s₀` that a pass started with and the ledger `s` that it has
got to, and every review of a learner keeps it.
-/

namespace Badging

/-- Since `s₀` an award of the badge was added. -/
def Ledger.AwardedSince (s₀ s : Ledger) (id : BadgeId) : Prop :=
  ∃ l, s.awards.contains ⟨id, l⟩ = true ∧ s₀.awards.contains ⟨id, l⟩ = false

theorem Ledger.awardedSince_insert_iff {s₀ s s' : Ledger} {i id : BadgeId} {l : LearnerId}
    {a : Award} (hkept : ∀ {k}, s₀.awards.contains k = true → s.awards.contains k = true)
    (hnone : s.awards.get? ⟨i, l⟩ = none) (hawards : s'.awards = s.awards.insert ⟨i, l⟩ a) :
    s₀.AwardedSince s' id ↔ id = i ∨ s₀.AwardedSince s id := by
  have hnew : s₀.awards.contains ⟨i, l⟩ = false := by
    refine Bool.eq_false_iff.2 fun hold => ?_
    have hthere := hkept hold
    rw [Register.contains_eq_false_iff.2 hnone] at hthere
    cases hthere
  simp only [AwardedSince, hawards, Register.contains_insert, Bool.or_eq_true, decide_eq_true_eq,
    Pair.mk.injEq]
  constructor
  · rintro ⟨l', hl' | ⟨rfl, -⟩, hold⟩
    · exact .inr ⟨l', hl', hold⟩
    · exact .inl rfl
  · rintro (rfl | ⟨l', hl', hold⟩)
    · exact ⟨l, .inr ⟨rfl, rfl⟩, hnew⟩
    · exact ⟨l', .inl hl', hold⟩

namespace Review

open Run

/-- The ledger `s` has the awards and the badges of `s₀`, those badges locked that were awarded. -/
structure Relocked (s₀ s : Ledger) : Prop where
  awards : ∀ {k}, s₀.awards.contains k = true → s.awards.contains k = true
  locked : ∀ {id b}, s₀.badges.get? id = some b → s₀.AwardedSince s id →
    b.status.isActive = true ∧ s.badges.get? id = some b.lock
  left : ∀ {id b}, s₀.badges.get? id = some b → ¬ s₀.AwardedSince s id → s.badges.get? id = some b

variable {s₀ s s' : Ledger} {setting : Setting} {b d : Badge} {l : LearnerId} {now : Instant}

theorem Relocked.refl : Relocked s₀ s₀ where
  awards h := h
  locked := by
    rintro id b - ⟨l, hl, hl'⟩
    rw [hl] at hl'
    cases hl'
  left h _ := h

theorem Relocked.congr (h : Relocked s₀ s) (hbadges : s'.badges = s.badges)
    (hawards : s'.awards = s.awards) : Relocked s₀ s' := by
  obtain ⟨hkept, hlocked, hleft⟩ := h
  unfold Ledger.AwardedSince at hlocked hleft
  constructor
  · rwa [hawards]
  · unfold Ledger.AwardedSince
    rwa [hbadges, hawards]
  · unfold Ledger.AwardedSince
    rwa [hbadges, hawards]

theorem Relocked.stored (h : Relocked s₀ s) {id : BadgeId} (hb : s₀.badges.get? id = some b) :
    s.badges.get? id = some b ∨ s.badges.get? id = some b.lock := by
  by_cases hawarded : s₀.AwardedSince s id
  · exact .inr (h.locked hb hawarded).2
  · exact .inl (h.left hb hawarded)

theorem Relocked.insertAward (h : Relocked s₀ s) (hb : s₀.badges.get? b.id = some b)
    (hactive : b.status.isActive = true) (hd : s.badges.get? b.id = some d) {a : Award}
    (hnone : s.awards.get? ⟨b.id, l⟩ = none)
    (hbadges : s'.badges = s.badges.insert b.id d.afterAward)
    (hawards : s'.awards = s.awards.insert ⟨b.id, l⟩ a) : Relocked s₀ s' := by
  have hd' : d = b ∨ d = b.lock := by
    have hstored := h.stored hb
    rwa [hd, Option.some.injEq, Option.some.injEq] at hstored
  have hawarded : ∀ id, s₀.AwardedSince s' id ↔ id = b.id ∨ s₀.AwardedSince s id := fun id =>
    Ledger.awardedSince_insert_iff h.awards hnone hawards
  refine ⟨fun {k} hk => ?_, fun {id b'} hb' hid => ?_, fun {id b'} hb' hid => ?_⟩
  · rw [hawards, Register.contains_insert, h.awards hk, Bool.true_or]
  · rw [hbadges]
    by_cases hself : id = b.id
    · subst hself
      rw [hb, Option.some.injEq] at hb'
      rw [Register.get?_insert_self, Badge.afterAward_of_isActive hactive hd', ← hb']
      exact ⟨hactive, rfl⟩
    · rw [Register.get?_insert_of_ne _ hself]
      exact h.locked hb' (((hawarded id).1 hid).resolve_left hself)
  · have hother := not_or.1 fun hor => hid ((hawarded id).2 hor)
    rw [hbadges, Register.get?_insert_of_ne _ hother.1]
    exact h.left hb' hother.2

theorem Minor.awards_eq (h : Store.Reaches (Minor b l now) s s') : s'.awards = s.awards := by
  refine h.preserves (I := fun t => t.awards = s.awards) (fun ht hop hminor => ?_) rfl
  rw [← ht]
  cases Ledger.effect_of_perform hop with
  | insertAward | deleteBadge => cases hminor
  | _ => rfl

theorem reviewKeeps_relocked (hspared : setting.faults.SparesStore)
    (hb : s₀.badges.get? b.id = some b) (hactive : b.status.isActive = true) :
    ReviewKeeps setting now (fun s _ => Relocked s₀ s)
      (fun (_ : Cut ReviewError) s _ => Relocked s₀ s) b l := by
  refine Keeps.attempt (Triple.intro fun s n hs => ?_)
  have hlocks : Triple setting (fun t _ => Shows (fun s t => s = t) s.badges t)
      (learner b l now) _ _ := triple_learner_locks Ledger.catalog hspared
  have hcourse : Triple setting (Along (Minor b l now) s n) (learner b l now) _ _ := triple_learner
  refine (hlocks.and hcourse).weaken ?_ (fun outcome t m h => ?_) fun cut t m h => ?_
  · rintro t m ⟨rfl, rfl⟩
    exact ⟨⟨t, rfl, rfl⟩, .refl, rfl⟩
  · obtain ⟨hbadges, hcourse⟩ := h
    cases outcome with
    | awarded a =>
      obtain ⟨d, hd, _, rfl, hbadges⟩ := hbadges
      obtain ⟨s₁, s₂, token, hs₁, ha, hop, ht, -⟩ := hcourse
      obtain ⟨hbadge, hlearner⟩ := Award.key_of_issue ha
      obtain ⟨-, hnone, rfl⟩ := Ledger.perform_insertAward_true_iff.1 hop
      have hawards := Minor.awards_eq ht
      dsimp only at hawards
      rw [hbadge, hlearner, Minor.awards_eq hs₁] at hnone hawards
      exact hs.insertAward hb hactive hd hnone hbadges hawards
    | pending | alreadyAwarded =>
      obtain ⟨_, rfl, hbadges⟩ := hbadges
      exact hs.congr hbadges (Minor.awards_eq hcourse.1)
  · obtain ⟨⟨_, rfl, hbadges⟩, hminor⟩ := h
    exact hs.congr hbadges (Minor.awards_eq hminor.kept.1)

/-- A pass locks the badges to which it adds an award. -/
theorem triple_pass_relocked (hs₀ : s₀.Sound) (hspared : setting.faults.SparesStore)
    (n : List Notice) :
    Triple setting (fun s m => s = s₀ ∧ m = n) (pass now) (fun _ s _ => Relocked s₀ s)
      fun _ s _ => Relocked s₀ s := by
  have hbs : Store.perform .badges s₀ = .ok (s₀.badges.values, s₀) := rfl
  refine (triple_pass_of (I := fun s _ => Relocked s₀ s) (E := fun _ s _ => Relocked s₀ s) hspared
    hbs Relocked.refl fun b hb hreviewable l _ => ?_).weaken (fun _ _ h => h)
    (fun _ _ _ h => h.1) fun _ _ _ h => h
  obtain ⟨k, hk⟩ := Register.mem_values_iff.1 hb
  have hid : s₀.badges.get? b.id = some b := by rwa [(hs₀.badge hk).id_eq]
  exact reviewKeeps_relocked hspared hid hreviewable.1

/-- After a pass over a store that does what it is asked, a badge is locked exactly if it was locked
before or the pass added an award of it, and without such an award it is as it was. This holds of
every store of a service, whichever calls failed before. -/
theorem pass_locks_what_it_awards (past : List (Setting × Request)) (setting : Setting)
    (hspared : setting.faults.SparesStore) (now : Instant) {id : BadgeId} {b : Badge}
    (hb : (served past).store.badges.get? id = some b) :
    let start := (served past).store
    let after := ((pass now).exec setting (served past)).2.store
    ∃ b', after.badges.get? id = some b' ∧
      (b'.status.isLocked = true ↔ b.status.isLocked = true ∨ start.AwardedSince after id) ∧
      (¬ start.AwardedSince after id → b' = b) := by
  intro start after
  have hpass : Triple setting (fun s m => s = start ∧ m = (served past).sent) (pass now) _ _ :=
    triple_pass_relocked (sound_and_justified_served past).1 hspared (served past).sent
  have hrelocked : Relocked start after := hpass.after ⟨rfl, rfl⟩
  by_cases hawarded : start.AwardedSince after id
  · obtain ⟨hactive, hlocked⟩ := hrelocked.locked hb hawarded
    refine ⟨b.lock, hlocked, ⟨fun _ => .inr hawarded, fun _ => ?_⟩, fun h => absurd hawarded h⟩
    cases hstatus : b.status <;>
      simp_all [Badge.lock, Status.isActive, Status.locked, Status.isLocked]
  · exact ⟨b, hrelocked.left hb hawarded, by simp [hawarded], fun _ => rfl⟩

/-- The plan by which every change of a status fails. -/
def locksLost : FaultPlan := { FaultPlan.empty with
  store := fun _ op => match op with
    | .setStatus _ _ => some .conflict
    | _ => none }

/-- The first pass awards the badge and locks it. -/
theorem pass_locks_networker :
    let now : Instant := ⟨0, 0, by decide, by decide, by decide, by decide⟩
    let setting : Setting := ⟨connectedLearner.source, .empty, fun _ => "token"⟩
    let past := [(setting, Request.create networkerDefinition)]
    setting.faults.SparesStore ∧
      (served past).store.badges.get? ⟨1⟩ = some (networker .active) ∧
      let start := (served past).store
      let after := ((pass now).exec setting (served past)).2.store
      (after.awards.contains ⟨⟨1⟩, ⟨7⟩⟩ = true ∧ start.awards.contains ⟨⟨1⟩, ⟨7⟩⟩ = false) ∧
        ∃ b', after.badges.get? ⟨1⟩ = some b' ∧
          (b'.status.isLocked = true ↔
            (networker .active).status.isLocked = true ∨ start.AwardedSince after ⟨1⟩) ∧
          (¬ start.AwardedSince after ⟨1⟩ → b' = networker .active) := by
  refine ⟨fun _ _ => rfl, by decide +kernel, by decide +kernel, ?_⟩
  exact pass_locks_what_it_awards _ _ (fun _ _ => rfl) _ (by decide +kernel)

/-- A lock that was lost in one pass is not made up for by the next, which reviews the badge for the
learner who has the award. -/
theorem lost_lock_stays_lost :
    let now : Instant := ⟨0, 0, by decide, by decide, by decide, by decide⟩
    let setting : Setting := ⟨connectedLearner.source, .empty, fun _ => "token"⟩
    let past := [(setting, Request.create networkerDefinition),
      ({ setting with faults := locksLost }, Request.pass now)]
    let again := (pass now).exec setting (served past)
    Reviewable setting.facts now (networker .active) ∧
      again.1 = .done ⟨1, 1, 0, []⟩ ∧
      again.2.store.awards.get? ⟨⟨1⟩, ⟨7⟩⟩ = some (networkAward now) ∧
      again.2.store.badges.get? ⟨1⟩ = some (networker .active) ∧
      (networker .active).status.isLocked = false := by
  decide +kernel

end Review

end Badging
