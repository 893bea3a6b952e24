import Badging.Facts.Snapshot
import Badging.Proofs.Review.Passing

/-!
# A pass after a pass that was cut short

A pass may be cut short anywhere, and the next one takes up what it left. At the same time and with
the same facts, a second pass that is not cut short leaves what a single one would have left, except
that its awards have other tokens, and all notices are sent once.

The argument has two parts. What reviews take a ledger to is determined as soon as nothing is left
to do for anyone in `D`: every record and every award is there that may be there. And reviews
compose, since what holds and what is earned is the same before and after the first pass.
-/

namespace Badging

/-- An award apart from its token. -/
def Award.withoutToken (a : Award) : Award := { a with token := "" }

namespace Review

variable {facts : FactSource} {now : Instant} {D : BadgeId → LearnerId → Prop}
  {s₀ s₁ s₂ s t : Ledger} {b b₁ : Badge} {l : LearnerId} {c : Criterion}

/-- For nobody in `D` is anything left to do. -/
def Complete (facts : FactSource) (D : BadgeId → LearnerId → Prop) (s₀ s : Ledger) : Prop :=
  ∀ {b l}, s₀.badges.get? b.id = some b → D b.id l → Finished facts s₀ b l s

section Unique

variable (hs₀ : s₀.Sound) (hD : ∀ {id l}, D id l → s₀.awards.get? ⟨id, l⟩ = none)

include hD in
/-- The award of someone in `D` is a new one, so what it rests on is known. -/
theorem Advance.deserved (h : Advance facts now D s₀ s) (hb : s₀.badges.get? b.id = some b)
    (hbl : D b.id l) {a : Award} (ha : s.awards.get? ⟨b.id, l⟩ = some a) :
    Deserved facts now D s₀ s b l a := by
  rcases h.awards_new ha with hold | ⟨b', l', hdeserved, hk⟩
  · rw [hD hbl] at hold
    cases hold
  · obtain ⟨hid, rfl⟩ := Pair.mk.injEq .. ▸ hk
    obtain ⟨o, hdue, -⟩ := hdeserved.overall
    have hstored := hdue.stored
    rw [← hid, hb, Option.some.injEq] at hstored
    exact hstored ▸ hdeserved

include hD in
theorem Complete.recorded (h : Advance facts now D s₀ s) (hcomplete : Complete facts D s₀ s)
    (hdue : Due facts D s₀ b l c) : Recorded s l c := by
  have hfinished := hcomplete hdue.stored hdue.pair
  cases hc : c.isOverall with
  | false =>
    have hreq : c ∈ b.requirements := Badge.mem_requirements_iff.2 ⟨hdue.mem, hc⟩
    rcases hfinished with ⟨a, ha⟩ | hleft
    · exact (h.deserved hD hdue.stored hdue.pair ha).settled c hreq (hdue.requirement hc)
    · obtain ⟨o, ho⟩ := Option.isSome_iff_exists.1 hdue.complete
      exact (hleft o ho).1 c hreq (hdue.requirement hc)
  | true =>
    obtain ⟨hoverall, hsatisfied⟩ := hdue.overall hc
    rcases hfinished with ⟨a, ha⟩ | hleft
    · obtain ⟨o, hdue', ho, hrecorded⟩ := (h.deserved hD hdue.stored hdue.pair ha).overall
      have heq := (hdue'.overall ho).1
      rw [hoverall, Option.some.injEq] at heq
      exact heq ▸ hrecorded
    · exact absurd hsatisfied (hleft c hoverall).2

include hs₀ in
theorem Due.met_eq {b' : Badge} {l' : LearnerId} {c' : Criterion} (h : Due facts D s₀ b l c)
    (h' : Due facts D s₀ b' l' c')
    (hk : (⟨c.id, l⟩ : Pair CriterionId LearnerId) = ⟨c'.id, l'⟩) :
    c.met l now = c'.met l' now := by
  obtain ⟨hid, rfl⟩ := Pair.mk.injEq .. ▸ hk
  have hb : b.id = b'.id := hs₀.owner_unique h.stored h'.stored h.mem h'.mem hid
  have hstored := h'.stored
  rw [← hb, h.stored, Option.some.injEq] at hstored
  subst hstored
  rw [(hs₀.badge h.stored).eq_of_id h.mem h'.mem hid]

include hs₀ hD in
theorem Advance.met_of_complete (h : Advance facts now D s₀ s) (h' : Advance facts now D s₀ t)
    (ht : Complete facts D s₀ t) {k : Pair CriterionId LearnerId} {r : MetRecord}
    (hr : s.met.get? k = some r) : t.met.get? k = some r := by
  rcases h.met_new hr with hold | ⟨b, l, c, hdue, rfl, rfl⟩
  · exact h'.met_kept hold
  · obtain ⟨r', hr'⟩ := Register.contains_eq_true_iff.1 (ht.recorded hD h' hdue)
    rcases h'.met_new hr' with hold | ⟨b', l', c', hdue', hk, rfl⟩
    · rw [← hr, h.met_kept hold, hr']
    · rw [hr', hdue.met_eq hs₀ hdue' hk]

include hs₀ hD in
theorem Advance.met_eq (h : Advance facts now D s₀ s) (hs : Complete facts D s₀ s)
    (h' : Advance facts now D s₀ t) (ht : Complete facts D s₀ t) : s.met = t.met := by
  refine Register.ext_get? fun k => Option.ext fun r => ?_
  exact ⟨h.met_of_complete hs₀ hD h' ht, h'.met_of_complete hs₀ hD h hs⟩

include hD in
theorem Advance.award_of_complete (h : Advance facts now D s₀ s) (h' : Advance facts now D s₀ t)
    (ht : Complete facts D s₀ t) {k : Pair BadgeId LearnerId} {a : Award}
    (ha : s.awards.get? k = some a) :
    ∃ a', t.awards.get? k = some a' ∧ a'.withoutToken = a.withoutToken := by
  rcases h.awards_new ha with hold | ⟨b, l, hdeserved, rfl⟩
  · exact ⟨a, h'.awards_kept hold, rfl⟩
  · obtain ⟨o, hdue, ho, -⟩ := hdeserved.overall
    obtain ⟨hoverall, hsatisfied⟩ := hdue.overall ho
    rcases ht hdue.stored hdue.pair with ⟨a', ha'⟩ | hleft
    · refine ⟨a', ha', ?_⟩
      obtain ⟨token, hissue⟩ := hdeserved.issued
      obtain ⟨token', hissue'⟩ := (h'.deserved hD hdue.stored hdue.pair ha').issued
      obtain ⟨x, hx, rfl⟩ := Award.issue_eq_ok_iff.1 hissue
      obtain ⟨x', hx', rfl⟩ := Award.issue_eq_ok_iff.1 hissue'
      rw [hx] at hx'
      cases hx'
      rfl
    · exact absurd hsatisfied (hleft o hoverall).2

include hD in
/-- The awards of two ledgers in which nothing is left to do differ at most in their tokens. -/
theorem Advance.awards_eq (h : Advance facts now D s₀ s) (hs : Complete facts D s₀ s)
    (h' : Advance facts now D s₀ t) (ht : Complete facts D s₀ t) :
    s.awards.mapValues (fun _ a => a.withoutToken) =
      t.awards.mapValues (fun _ a => a.withoutToken) := by
  refine Register.ext_get? fun k => ?_
  rw [Register.get?_mapValues, Register.get?_mapValues]
  cases ha : s.awards.get? k with
  | some a =>
    obtain ⟨a', ha', heq⟩ := h.award_of_complete hD h' ht ha
    rw [ha', Option.map_some, Option.map_some, heq]
  | none =>
    cases ha' : t.awards.get? k with
    | none => rfl
    | some a' =>
      obtain ⟨a, ha'', -⟩ := h'.award_of_complete hD h hs ha'
      rw [ha] at ha''
      cases ha''

end Unique

section Composition

theorem criterion_eq_of_requirement {σ : Type} [Store σ] (b b' : Badge) (l : LearnerId)
    (hc : c.isOverall = false) :
    (criterion b l c : Run σ ReviewError Bool) = criterion b' l c := by
  unfold criterion checks
  cases hkind : c.kind with
  | overall =>
    rw [Criterion.isOverall, Criterion.tag, hkind] at hc
    cases hc
  | _ => rfl

theorem Advance.holds_iff (h : Advance facts now D s₀ s₁) (b b₁ : Badge)
    (hc : c.isOverall = false) : Holds facts s₁ b₁ l c ↔ Holds facts s₀ b l c := by
  rw [← holds_iff_of_manual hc h.manual, Holds, Holds, criterion_eq_of_requirement b b₁ l hc]

theorem Advance.earned_iff (hs₀ : s₀.Sound) (h : Advance facts now D s₀ s₁)
    (hb : s₀.badges.get? b.id = some b) (b₁ : Badge) (hc : c ∈ b.requirements) :
    Earned facts s₁ b₁ l c ↔ Earned facts s₀ b l c := by
  have hreq := (Badge.mem_requirements_iff.1 hc).2
  constructor
  · rintro (hrecorded | hholds)
    · exact h.earned hs₀ hb hc hrecorded
    · exact .inr ((h.holds_iff b b₁ hreq).1 hholds)
  · rintro (hrecorded | hholds)
    · exact .inl (hrecorded.grown h.grown)
    · exact .inr ((h.holds_iff b b₁ hreq).2 hholds)

theorem Advance.satisfied_iff (hs₀ : s₀.Sound) (h : Advance facts now D s₀ s₁)
    (hb : s₀.badges.get? b.id = some b) (hlock : b₁.lock = b.lock) :
    Satisfied facts s₁ b₁ l c ↔ Satisfied facts s₀ b l c := by
  unfold Satisfied
  rw [requirements_of_lock hlock]
  refine and_congr_right fun _ => ⟨fun hasks => ?_, fun hasks => ?_⟩
  · exact hasks.mono fun d hd => (h.earned_iff hs₀ hb b₁ hd).1
  · exact hasks.mono fun d hd => (h.earned_iff hs₀ hb b₁ hd).2

theorem Advance.settledOn_iff (h : Advance facts now D s₀ s₁) (hlock : b₁.lock = b.lock) :
    SettledOn facts s₁ b₁ l b₁.requirements s ↔ SettledOn facts s₀ b l b.requirements s := by
  unfold SettledOn
  rw [requirements_of_lock hlock]
  refine forall₂_congr fun d hd => ?_
  rw [h.holds_iff b b₁ (Badge.mem_requirements_iff.1 hd).2]

variable {D₁ : BadgeId → LearnerId → Prop} (hs₀ : s₀.Sound) (h : Advance facts now D s₀ s₁)
  (hD : ∀ {id l}, D₁ id l → D id l)

include hs₀ h hD in
/-- What a second pass may write a first one may have written. -/
theorem Due.earlier (hb : s₀.badges.get? b.id = some b) (hlock : b₁.lock = b.lock)
    (hdue : Due facts D₁ s₁ b₁ l c) : Due facts D s₀ b l c where
  stored := hb
  mem := criteria_of_lock hlock ▸ hdue.mem
  pair := id_of_lock hlock ▸ hD hdue.pair
  complete := overall?_of_lock hlock ▸ hdue.complete
  requirement hc := (h.holds_iff b b₁ hc).1 (hdue.requirement hc)
  overall hc := by
    obtain ⟨hoverall, hsatisfied⟩ := hdue.overall hc
    exact ⟨overall?_of_lock hlock ▸ hoverall, (h.satisfied_iff hs₀ hb hlock).1 hsatisfied⟩

include hs₀ h hD in
theorem Advance.trans (h' : Advance facts now D₁ s₁ s₂) : Advance facts now D s₀ s₂ where
  lastBadge := h'.lastBadge.trans h.lastBadge
  lastCriterion := h'.lastCriterion.trans h.lastCriterion
  manual := h'.manual.trans h.manual
  badges := h'.badges.trans h.badges
  met_kept hr := h'.met_kept (h.met_kept hr)
  met_new {k r} hr := by
    rcases h'.met_new hr with hr | ⟨b₁, l, c, hdue, hk, hr⟩
    · exact h.met_new hr
    · obtain ⟨b, hb, hlock⟩ := h.get?_badge_start hdue.stored
      have hid : b.id = b₁.id := (hs₀.badge hb).id_eq
      exact .inr ⟨b, l, c, hdue.earlier hs₀ h hD (hid ▸ hb) hlock.symm, hk, hr⟩
  awards_kept ha := h'.awards_kept (h.awards_kept ha)
  awards_new {k a} ha := by
    rcases h'.awards_new ha with ha | ⟨b₁, l, hdeserved, hk⟩
    · rcases h.awards_new ha with ha | ⟨b, l, hdeserved, hk⟩
      · exact .inl ha
      · exact .inr ⟨b, l, hdeserved.grown h'.grown, hk⟩
    · obtain ⟨o, hdue, ho, hrecorded⟩ := hdeserved.overall
      obtain ⟨b, hb, hlock⟩ := h.get?_badge_start hdue.stored
      have hid : b.id = b₁.id := (hs₀.badge hb).id_eq
      refine .inr ⟨b, l, ⟨?_, ⟨o, hdue.earlier hs₀ h hD (hid ▸ hb) hlock.symm, ho, hrecorded⟩,
        (h.settledOn_iff hlock.symm).1 hdeserved.settled⟩, by rw [hk, hid]⟩
      obtain ⟨token, hissue⟩ := hdeserved.issued
      refine ⟨token, ?_⟩
      rwa [Award.issue, expiry_of_lock hlock, hid]

end Composition

/-- Who gets something new in a pass: a listed learner without an award. -/
def Newcomer (facts : FactSource) (now : Instant) (s₀ : Ledger) (id : BadgeId) (l : LearnerId) :
    Prop :=
  ∃ b, s₀.badges.get? id = some b ∧ Listed facts now b l ∧ s₀.awards.get? ⟨id, l⟩ = none

/-- The candidates for a badge do not depend on its status. -/
def OwnerDecides (facts : FactSource) : Prop :=
  ∀ {b b' : Badge}, b.owner = b'.owner → facts (.candidates b) = facts (.candidates b')

theorem listed_of_lock (hfacts : OwnerDecides facts) (hlock : b₁.lock = b.lock)
    (h : Listed facts now b l) : Listed facts now b₁ l := by
  obtain ⟨⟨hactive, hcriteria, hcourse⟩, hcandidates⟩ := h
  have hstatus : b₁.status.locked = b.status.locked := by
    have heq := congrArg Badge.status hlock
    exact heq
  refine ⟨⟨?_, ?_, ?_⟩, ?_⟩
  · rw [← Status.isActive_locked, hstatus, Status.isActive_locked, hactive]
  · rwa [Badge.hasCriteria, requirements_of_lock hlock]
  · rwa [owner_of_lock hlock]
  · rwa [hfacts (owner_of_lock hlock)]

section Passes

variable {setting : Setting} (hs₀ : s₀.Sound)

/-- Where no award is overlooked, whoever is reviewed without an award found is a newcomer. -/
theorem admits_newcomer (hseen : ∀ h b l, setting.faults.staleAward h b l = false)
    (hb : s₀.badges.get? b.id = some b) (hlisted : Listed setting.facts now b l) :
    Admits setting now (Newcomer setting.facts now s₀) s₀ b l := by
  intro s h hadvance hnone
  dsimp only [Run.received] at hnone
  rw [hseen, if_neg Bool.false_ne_true] at hnone
  refine ⟨b, hb, hlisted, ?_⟩
  cases ha : s₀.awards.get? ⟨b.id, l⟩ with
  | none => rfl
  | some a =>
    rw [hadvance.awards_kept ha] at hnone
    cases hnone

/-- What a pass leaves: the ledger was taken forward, each new award was announced, and unless
something cut the pass short nothing is left to do. -/
def PassLeaves (setting : Setting) (now : Instant) (s₀ : Ledger) (n₀ : Nat) :
    Run.Assertion Ledger := fun s n =>
  Advance setting.facts now (Newcomer setting.facts now s₀) s₀ s ∧
    (n.length : Int) + s₀.awards.size = n₀ + s.awards.size ∧
    (Excuse setting s₀ ∨ Complete setting.facts (Newcomer setting.facts now s₀) s₀ s)

include hs₀ in
theorem passLeaves (hseen : ∀ h b l, setting.faults.staleAward h b l = false) (w : World Ledger)
    (hw : w.store = s₀) : PassLeaves setting now s₀ w.sent.length
      ((pass now).exec setting w).2.store ((pass now).exec setting w).2.sent := by
  have hstored : ∀ {id b}, s₀.badges.get? id = some b → s₀.badges.get? b.id = some b :=
    fun hb => by rwa [(hs₀.badge hb).id_eq]
  have hpass : Run.Triple setting (fun s n => s = s₀ ∧ n = w.sent) (pass now) _ _ :=
    triple_pass hs₀ (fun hb l hl => admits_newcomer hseen (hstored hb) hl) w.sent
  have hspec : Run.Triple setting (fun s n => s = s₀ ∧ n = w.sent) (pass now)
      (fun _ => PassLeaves setting now s₀ w.sent.length)
      fun _ => PassLeaves setting now s₀ w.sent.length := by
    refine hpass.weaken (fun _ _ h => h) ?_ fun _ s n h => ⟨h.1.1, h.1.2.1, .inl h.2⟩
    intro _ s n h
    refine ⟨h.1, h.2.1, ?_⟩
    by_cases hexcuse : Excuse setting s₀
    · exact .inl hexcuse
    · refine .inr fun {b l} hb hbl => ?_
      obtain ⟨b', hb', hlisted, -⟩ := hbl
      rw [hb, Option.some.injEq] at hb'
      subst hb'
      exact (h.2.2 b.id b hb l hlisted).resolve_left hexcuse
  exact hspec.after ⟨hw, rfl⟩

include hs₀ in
/-- After a first pass that was cut short, a second one that leaves nothing to do has left nothing
to do for the newcomers of the first. -/
theorem Complete.of_second (hfacts : OwnerDecides facts)
    (h : Advance facts now (Newcomer facts now s₀) s₀ s₁)
    (h' : Advance facts now (Newcomer facts now s₁) s₁ s₂)
    (hcomplete : Complete facts (Newcomer facts now s₁) s₁ s₂) :
    Complete facts (Newcomer facts now s₀) s₀ s₂ := by
  intro b l hb hbl
  cases ha : s₁.awards.get? ⟨b.id, l⟩ with
  | some a => exact .inl ⟨a, h'.awards_kept ha⟩
  | none =>
    obtain ⟨b', hb', hlisted, -⟩ := hbl
    rw [hb, Option.some.injEq] at hb'
    subst hb'
    obtain ⟨b₁, hb₁, hlock⟩ := h.get?_badge hb
    have hid : b₁.id = b.id := id_of_lock hlock
    have hnewcomer : Newcomer facts now s₁ b₁.id l :=
      ⟨b₁, by rw [hid, hb₁], listed_of_lock hfacts hlock hlisted, by rw [hid, ha]⟩
    rcases hcomplete (by rw [hid, hb₁]) hnewcomer with hsome | hleft
    · rw [hid] at hsome
      exact .inl hsome
    · refine .inr fun o ho => ?_
      obtain ⟨hsettled, hnot⟩ := hleft o (by rw [overall?_of_lock hlock, ho])
      exact ⟨(h.settledOn_iff hlock).1 hsettled,
        fun hsatisfied => hnot ((h.satisfied_iff hs₀ hb hlock).2 hsatisfied)⟩

theorem Newcomer.earlier (hfacts : OwnerDecides facts)
    (h : Advance facts now (Newcomer facts now s₀) s₀ s₁) {id : BadgeId}
    (hnewcomer : Newcomer facts now s₁ id l) : Newcomer facts now s₀ id l := by
  obtain ⟨b₁, hb₁, hlisted, hnone⟩ := hnewcomer
  obtain ⟨b, hb, hlock⟩ := h.get?_badge_start hb₁
  refine ⟨b, hb, listed_of_lock hfacts hlock hlisted, ?_⟩
  cases ha : s₀.awards.get? ⟨id, l⟩ with
  | none => rfl
  | some a =>
    rw [h.awards_kept ha] at hnone
    cases hnone

theorem Advance.measurable (h : Advance facts now D s₀ s₁) (hs₀ : s₀.Measurable) :
    s₁.Measurable := by
  intro id b₁ hb₁
  obtain ⟨b, hb, hlock⟩ := h.get?_badge_start hb₁
  rw [← expiry_of_lock hlock]
  exact hs₀ hb

theorem not_excuse {facts : Snapshot} {tokens : Nat → String} (hs₀ : s₀.Measurable) :
    ¬ Excuse ⟨facts.source, .empty, tokens⟩ s₀ := by
  rintro (hfaults | htotal | hmeasurable)
  · exact hfaults rfl
  · exact htotal fun q => ⟨_, rfl⟩
  · exact hmeasurable hs₀

theorem ownerDecides_snapshot (facts : Snapshot) : OwnerDecides facts.source := by
  intro b b' howner
  show Except.ok (facts.candidates b) = Except.ok (facts.candidates b')
  rw [Snapshot.candidates, Snapshot.candidates, howner]

/-- The rows and the notices after a pass that was cut short and one that was not are those after a
single pass, except for the tokens of the awards. -/
theorem pass_again_converges (ops : List Operation) (facts : Snapshot) (now : Instant)
    (faults : FaultPlan) (tokens tokens' tokens'' : Nat → String)
    (hseen : ∀ h b l, faults.staleAward h b l = false)
    (hmeasurable : (Store.run Ledger.empty ops).Measurable) :
    let start := World.ofStore (Store.run Ledger.empty ops)
    let cut := ((pass now).exec ⟨facts.source, faults, tokens⟩ start).2
    let again := ((pass now).exec ⟨facts.source, .empty, tokens'⟩ cut).2
    let single := ((pass now).exec ⟨facts.source, .empty, tokens''⟩ start).2
    again.store.met = single.store.met ∧
      again.store.awards.mapValues (fun _ a => a.withoutToken) =
        single.store.awards.mapValues (fun _ a => a.withoutToken) ∧
      again.sent.length = single.sent.length := by
  intro start cut again single
  have hfacts : OwnerDecides facts.source := ownerDecides_snapshot facts
  have hsound : start.store.Sound :=
    Ledger.sound_empty.of_reaches (Store.reaches_run Ledger.empty ops)
  have hcutLeaves : PassLeaves ⟨facts.source, faults, tokens⟩ now start.store start.sent.length
      cut.store cut.sent := passLeaves hsound hseen start rfl
  obtain ⟨hcut, hcutCount, -⟩ := hcutLeaves
  have hagainLeaves : PassLeaves ⟨facts.source, .empty, tokens'⟩ now cut.store cut.sent.length
      again.store again.sent := passLeaves (hcut.sound hsound) (fun _ _ _ => rfl) cut rfl
  obtain ⟨hagain, hagainCount, hagainDone⟩ := hagainLeaves
  have hsingleLeaves : PassLeaves ⟨facts.source, .empty, tokens''⟩ now start.store
      start.sent.length single.store single.sent := passLeaves hsound (fun _ _ _ => rfl) start rfl
  obtain ⟨hsingle, hsingleCount, hsingleDone⟩ := hsingleLeaves
  have hnone : ∀ {id l}, Newcomer facts.source now start.store id l →
      start.store.awards.get? ⟨id, l⟩ = none := fun ⟨_, _, _, hnone⟩ => hnone
  -- The two passes together are reviews from the start, and they leave nothing to do either.
  have htogether := hcut.trans hsound (fun h => h.earlier hfacts hcut) hagain
  have hdone : Complete facts.source (Newcomer facts.source now start.store) start.store
      again.store := Complete.of_second hsound hfacts hcut hagain
    (hagainDone.resolve_left (not_excuse (hcut.measurable hmeasurable)))
  have hsingleComplete : Complete facts.source (Newcomer facts.source now start.store) start.store
      single.store := hsingleDone.resolve_left (not_excuse hmeasurable)
  have hawards := htogether.awards_eq hnone hdone hsingle hsingleComplete
  refine ⟨htogether.met_eq hsound hnone hdone hsingle hsingleComplete, hawards, ?_⟩
  have hsize : again.store.awards.size = single.store.awards.size := by
    have heq := congrArg Register.size hawards
    simpa [Register.size, Register.mapValues] using heq
  omega

end Passes

/-- An available badge for learners who are connected to a network. -/
def networkBadge : List Operation :=
  [.insertBadge ⟨"Networker", .site, .never⟩,
    .addCriterion ⟨1⟩ ⟨"overall", .all, none, .empty⟩,
    .addCriterion ⟨1⟩ ⟨"social", .all, none, .ofList [("social_web", "")]⟩,
    .setStatus ⟨1⟩ .active]

/-- A learner who is connected to it. -/
def connectedLearner : Snapshot := (Snapshot.empty.withSiteLearner ⟨7⟩).connect ⟨7⟩ "web"

/-- The plan by which every insert of an award fails. -/
def insertsLost : FaultPlan := { FaultPlan.empty with
  store := fun _ op => match op with
    | .insertAward _ => some .conflict
    | _ => none }

/-- The first pass records both criteria and loses the award. The second pass makes up for it. -/
theorem pass_again_converges_lost_insert :
    (∀ h b l, insertsLost.staleAward h b l = false) ∧
      (Store.run Ledger.empty networkBadge).Measurable ∧
      let now : Instant := ⟨0, 0, by decide, by decide, by decide, by decide⟩
      let tokens : Nat → String := fun _ => "first"
      let start := World.ofStore (Store.run Ledger.empty networkBadge)
      let cut := ((pass now).exec ⟨connectedLearner.source, insertsLost, tokens⟩ start).2
      let again := ((pass now).exec ⟨connectedLearner.source, .empty, tokens⟩ cut).2
      let single := ((pass now).exec ⟨connectedLearner.source, .empty, tokens⟩ start).2
      (cut.store.met.size = 2 ∧ cut.store.awards.size = 0 ∧ single.store.awards.size = 1) ∧
        again.store.met = single.store.met ∧
        again.store.awards.mapValues (fun _ a => a.withoutToken) =
          single.store.awards.mapValues (fun _ a => a.withoutToken) ∧
        again.sent.length = single.sent.length := by
  have hmeasurable : (Store.run Ledger.empty networkBadge).Measurable :=
    Ledger.measurable_of_values (by decide +kernel)
  refine ⟨fun _ _ _ => rfl, hmeasurable, by decide +kernel, ?_⟩
  exact pass_again_converges networkBadge connectedLearner _ insertsLost _ _ _
    (fun _ _ _ => rfl) hmeasurable

end Review

end Badging
