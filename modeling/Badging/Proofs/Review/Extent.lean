import Badging.Proofs.Review.Relocking

/-!
# The extent of a pass

Wherever a pass ends and whichever of its calls fail, it stays within its `Extent`: new rows are of
badges and learners that it lists, a status changes by the lock of a badge that got an award, and
everything else is as it was.

That the rows are within the extent is known of every `Advance`, for `D` the pairs that are listed.
For the locks, an invariant of its own is carried along: `LocksAwarded` is kept by all that a review
does before it has inserted an award, and a lock is only written when an award was added.
-/

namespace Badging

namespace Review

open Run

def ListedIn (facts : FactSource) (now : Instant) (s : Ledger) (id : BadgeId) (l : LearnerId) :
    Prop :=
  ∃ b, s.badges.get? id = some b ∧ Listed facts now b l

/-- A badge that was active is locked, and since `s₀` an award of it was added. -/
def LockedSince (s₀ s : Ledger) (id : BadgeId) : Prop :=
  s₀.AwardedSince s id ∧ ∃ b, s₀.badges.get? id = some b ∧ b.status = .active ∧
    s.badges.get? id = some { b with status := .activeLocked }

/-- What a pass at `now` may make of the ledger `s₀`. -/
structure Extent (facts : FactSource) (now : Instant) (s₀ s : Ledger) : Prop where
  lastBadge : s.lastBadge = s₀.lastBadge
  lastCriterion : s.lastCriterion = s₀.lastCriterion
  manual : s.manual = s₀.manual
  badges : ∀ id, s.badges.get? id = s₀.badges.get? id ∨ LockedSince s₀ s id
  met_kept : ∀ {k r}, s₀.met.get? k = some r → s.met.get? k = some r
  met_new : ∀ {k r}, s.met.get? k = some r → s₀.met.get? k = some r ∨
    ∃ b l, s₀.badges.get? b.id = some b ∧ Listed facts now b l ∧
      ∃ c ∈ b.criteria, k = ⟨c.id, l⟩ ∧ r = c.met l now
  awards_kept : ∀ {k a}, s₀.awards.get? k = some a → s.awards.get? k = some a
  awards_new : ∀ {k a}, s.awards.get? k = some a → s₀.awards.get? k = some a ∨
    ∃ b l, s₀.badges.get? b.id = some b ∧ Listed facts now b l ∧
      k = ⟨b.id, l⟩ ∧ ∃ token, Award.issue b l now token = .ok a

/-- Awards are kept, and a badge that is not as it was is locked since. -/
structure LocksAwarded (s₀ s : Ledger) : Prop where
  awards : ∀ {k}, s₀.awards.contains k = true → s.awards.contains k = true
  badges : ∀ id, s.badges.get? id = s₀.badges.get? id ∨ LockedSince s₀ s id

namespace LocksAwarded

variable {s₀ s s' : Ledger} {id : BadgeId} {d : Badge} {l : LearnerId}

theorem refl : LocksAwarded s₀ s₀ := ⟨fun h => h, fun _ => .inl rfl⟩

theorem congr (h : LocksAwarded s₀ s) (hbadges : s'.badges = s.badges)
    (hawards : s'.awards = s.awards) : LocksAwarded s₀ s' := by
  obtain ⟨hkept, hlocked⟩ := h
  unfold LockedSince Ledger.AwardedSince at hlocked
  constructor
  · rwa [hawards]
  · unfold LockedSince Ledger.AwardedSince
    rwa [hbadges, hawards]

theorem insertAward (h : LocksAwarded s₀ s) {a : Award} (hnone : s.awards.get? ⟨id, l⟩ = none)
    (hs' : s' = { s with awards := s.awards.insert ⟨id, l⟩ a }) :
    LocksAwarded s₀ s' ∧ s₀.AwardedSince s' id := by
  subst hs'
  have hawarded : ∀ j, s₀.AwardedSince { s with awards := s.awards.insert ⟨id, l⟩ a } j ↔
      j = id ∨ s₀.AwardedSince s j := fun j => Ledger.awardedSince_insert_iff h.awards hnone rfl
  refine ⟨⟨fun {k} hk => ?_, fun j => ?_⟩, (hawarded id).2 (.inl rfl)⟩
  · rw [Register.contains_insert, h.awards hk, Bool.true_or]
  · exact (h.badges j).imp_right fun hlocked => ⟨(hawarded j).2 (.inr hlocked.1), hlocked.2⟩

theorem lock (h : LocksAwarded s₀ s) (hawarded : s₀.AwardedSince s id)
    (hd : s.badges.get? id = some d) (hactive : d.status = .active) :
    LocksAwarded s₀ { s with badges := s.badges.insert id { d with status := .activeLocked } } := by
  refine ⟨h.awards, fun j => ?_⟩
  by_cases hj : j = id
  · subst hj
    rcases h.badges j with hsame | ⟨-, b, -, -, hlocked⟩
    · rw [hsame] at hd
      exact .inr ⟨hawarded, d, hd, hactive, s.badges.get?_insert_self j _⟩
    · rw [hlocked, Option.some.injEq] at hd
      rw [← hd] at hactive
      cases hactive
  · rcases h.badges j with hsame | ⟨hj', b, hb, hstatus, hlocked⟩
    · left
      rw [Register.get?_insert_of_ne _ hj, hsame]
    · refine .inr ⟨hj', b, hb, hstatus, ?_⟩
      rw [Register.get?_insert_of_ne _ hj, hlocked]

end LocksAwarded

variable {setting : Setting} {s₀ : Ledger} {b : Badge} {l : LearnerId} {now : Instant}

theorem readingUpholds_ledger {I : Assertion Ledger} : ReadingUpholds setting I := by
  intro op hop
  apply Upholds.perform
  intro a s s' n hI hperform
  rwa [(Ledger.effect_of_perform hperform).eq_of_idle (.of_isReading hop a)]

theorem upholds_lock_awarded :
    Upholds setting (fun s _ => LocksAwarded s₀ s ∧ s₀.AwardedSince s b.id) (lockAwarded b.id) := by
  let Read (stored : Option Badge) : Assertion Ledger := fun s _ =>
    (LocksAwarded s₀ s ∧ s₀.AwardedSince s b.id) ∧ stored = s.badges.get? b.id
  have hread : Triple setting (fun s _ => LocksAwarded s₀ s ∧ s₀.AwardedSince s b.id)
      (Run.perform (.badge b.id)) Read
      (Unbroken fun s _ => LocksAwarded s₀ s ∧ s₀.AwardedSince s b.id) :=
    Triple.perform (fun _ _ _ h _ => h) fun _ a s s' n h hop => by
      cases hop
      exact ⟨h, rfl⟩
  refine Triple.bind hread fun stored => ?_
  cases stored with
  | none => exact Triple.pure fun _ _ h => h.1
  | some stored =>
    dsimp only
    split
    · next hactive =>
      refine Triple.perform (fun _ _ _ h _ => h.1) fun _ a s s' n h hop => ?_
      obtain ⟨⟨hlocks, hawarded⟩, hstored⟩ := h
      cases Ledger.effect_of_perform hop with
      | idle h => cases h
      | @setStatus _ _ d hd =>
        rw [hd, Option.some.injEq] at hstored
        subst hstored
        have hstatus : stored.lock.status = .activeLocked := by
          rw [Badge.lock, hactive]
          rfl
        rw [hstatus]
        exact ⟨hlocks.lock hawarded hd hactive, hawarded⟩
    · exact Triple.pure fun _ _ h => h.1

theorem keeps_issue : Keeps setting (fun s _ => LocksAwarded s₀ s) (issue b l now) := by
  refine Keeps.bind (Triple.freshToken fun _ _ _ h => h) fun token => ?_
  cases ha : Award.issue b l now token with
  | error p => exact Triple.breakOff fun _ _ h => h
  | ok a =>
    obtain ⟨hbadge, hlearner⟩ := Award.key_of_issue ha
    have hinsert : Triple setting (fun s _ => LocksAwarded s₀ s) (call (.insertAward a))
        (fun added s _ => LocksAwarded s₀ s ∧ (added = true → s₀.AwardedSince s b.id))
        fun _ s _ => LocksAwarded s₀ s := by
      refine Triple.mapError (E := fun _ s _ => LocksAwarded s₀ s) (Triple.perform
        (fun _ _ _ h _ => h) fun _ added s s' n h hop => ?_) (fun _ _ _ h => h) fun _ _ _ h => h
      cases added with
      | true =>
        obtain ⟨-, hnone, hs'⟩ := Ledger.perform_insertAward_true_iff.1 hop
        rw [hbadge, hlearner] at hnone hs'
        obtain ⟨hlocks, hawarded⟩ := h.insertAward hnone hs'
        exact ⟨hlocks, fun _ => hawarded⟩
      | false =>
        rw [(Ledger.effect_of_perform hop).eq_of_idle rfl]
        exact ⟨h, fun hadded => absurd hadded Bool.false_ne_true⟩
    refine Triple.bind hinsert fun added => ?_
    cases added with
    | false => exact Triple.pure fun _ _ h => h.1
    | true =>
      refine Triple.bind (Q := fun _ s _ => LocksAwarded s₀ s) ?_ fun _ => ?_
      · exact Triple.attempt (upholds_lock_awarded.weaken (fun _ _ h => ⟨h.1, h.2 rfl⟩)
          (fun _ _ _ h => h) fun _ _ _ h => h) (fun _ _ _ h => h.1) (fun _ _ _ h => h.1)
          fun _ _ _ h => h.elim
      · exact Triple.bind (Triple.notify fun _ _ h => h) fun _ => Triple.pure fun _ _ h => h

/-- A pass locks no badge but those that it awards. -/
theorem keeps_pass_locksAwarded : Keeps setting (fun s _ => LocksAwarded s₀ s) (pass now) := by
  have hreview : ∀ b l, ReviewKeeps setting now (fun s _ => LocksAwarded s₀ s)
      (fun (_ : Cut ReviewError) s _ => LocksAwarded s₀ s) b l := by
    intro b l
    apply Keeps.attempt
    refine triple_learner_of_issue readingUpholds_ledger (fun c _ => ?_) (fun _ _ _ h => h)
      (fun _ _ _ _ h => h) keeps_issue
    apply Upholds.perform
    intro a s s' n h hop
    cases Ledger.effect_of_perform hop with
    | idle => exact h
    | markMet => exact h.congr rfl rfl
  refine Keeps.bind (upholds_call (readingUpholds_ledger rfl)).keeps fun bs => ?_
  refine (triple_badges_of fun b _ _ l _ => hreview b l).weaken (fun _ _ h => h)
    (fun _ _ _ h => h.1) fun _ _ _ h => h

/-- A pass takes a sound ledger forward, by badges and learners that it lists. -/
theorem keeps_pass_under (hs₀ : s₀.Sound) (n : List Notice) :
    Triple setting (fun s m => s = s₀ ∧ m = n) (pass now)
      (fun _ => Under setting.facts now (ListedIn setting.facts now s₀) s₀ n.length fun _ => True)
      fun _ => Under setting.facts now (ListedIn setting.facts now s₀) s₀ n.length
        fun _ => True := by
  refine (triple_pass hs₀ (fun {id b} hb l hl s h _ _ => ?_) n).weaken (fun _ _ h => h)
    (fun _ _ _ h => ⟨h.1, h.2.1, trivial⟩) fun _ _ _ h => h.1
  exact ⟨b, by rwa [(hs₀.badge hb).id_eq], hl⟩

theorem Due.listed {facts : FactSource} {c : Criterion}
    (h : Due facts (ListedIn facts now s₀) s₀ b l c) : Listed facts now b l := by
  obtain ⟨b', hb', hlisted⟩ := h.pair
  rw [h.stored, Option.some.injEq] at hb'
  rwa [hb']

/-- A ledger that was taken forward by those who are listed, and whose locks belong to awards, is
within the extent. -/
theorem Advance.extent {facts : FactSource} {s : Ledger}
    (h : Advance facts now (ListedIn facts now s₀) s₀ s) (hlocks : LocksAwarded s₀ s) :
    Extent facts now s₀ s where
  lastBadge := h.lastBadge
  lastCriterion := h.lastCriterion
  manual := h.manual
  badges := hlocks.badges
  met_kept := h.met_kept
  met_new hr := by
    refine (h.met_new hr).imp_right ?_
    rintro ⟨b, l, c, hdue, hk, hr⟩
    exact ⟨b, l, hdue.stored, hdue.listed, c, hdue.mem, hk, hr⟩
  awards_kept := h.awards_kept
  awards_new ha := by
    refine (h.awards_new ha).imp_right ?_
    rintro ⟨b, l, hdeserved, hk⟩
    obtain ⟨o, hdue, -⟩ := hdeserved.overall
    exact ⟨b, l, hdue.stored, hdue.listed, hk, hdeserved.issued⟩

/-- Whatever was done to a ledger before, whatever the facts are and whichever calls fail, a pass
over it stays within its extent, however it ends. -/
theorem pass_within_extent (ops : List Operation) (w : World Ledger) (setting : Setting)
    (now : Instant) :
    let start := Store.run Ledger.empty ops
    let after := ((pass now).exec setting { w with store := start }).2.store
    Extent setting.facts now start after := by
  intro start after
  have hunder : Under setting.facts now (ListedIn setting.facts now start) start _ _ after _ :=
    (keeps_pass_under (Ledger.sound_run ops) w.sent).after ⟨rfl, rfl⟩
  have hlocks : LocksAwarded start after := keeps_pass_locksAwarded.after .refl
  exact hunder.1.extent hlocks

end Review

end Badging
