import Badging.Proofs.Review.Carrying
import Badging.Proofs.Review.View.Ledger

/-!
# What is known of one learner

The facts about a learner `x` may be anything, or may not be found out at all. Two passes with facts
that differ in this only go through the same reviews. What they write of `x` may differ, and then
the locks of badges may, but no review of another learner looks at either. So the views stay the
same `ApartFrom x`, and so do the reports.
-/

namespace Badging

namespace Review

open Run

variable {x : LearnerId}

/-- The report without awards, and without the failures of a learner. -/
def Report.apartFrom (x : LearnerId) (r : Report) : Report :=
  { r with awardsIssued := 0, failures := r.failures.filter fun f => f.learner ≠ some x }

@[simp] theorem Report.apartFrom_add (r s : Report) :
    (r + s).apartFrom x = r.apartFrom x + s.apartFrom x := by
  show apartFrom x (add r s) = add _ _
  simp [apartFrom, add]

theorem Decision.apartFrom_report {p : Badge × LearnerId} (hp : p.2 = x) (d : Decision) :
    (d.report p).apartFrom x = ⟨0, 1, 0, []⟩ := by
  cases d <;> simp [report, Report.apartFrom, hp]

namespace View

variable {V W : View} {answers answers' : LearnerId → Criterion → Except ReviewError Bool}
  {p : Badge × LearnerId} {ps : List (Badge × LearnerId)}
  {es : List (Report × List (Badge × LearnerId))}

/-- The views differ in the rows of `x` and in locks at most. -/
structure ApartFrom (x : LearnerId) (V W : View) : Prop where
  recorded : ∀ {c l}, l ≠ x → W.recorded c l = V.recorded c l
  awarded : ∀ {b l}, l ≠ x → W.awarded b l = V.awarded b l

theorem ApartFrom.refl : ApartFrom x V V := ⟨fun _ => rfl, fun _ => rfl⟩

section Apart

variable (hanswers : ∀ l, l ≠ x → answers' l = answers l)

include hanswers

theorem ApartFrom.resolution_eq (h : ApartFrom x V W) (hp : p.2 ≠ x) :
    W.resolution answers' p = V.resolution answers p := by
  rw [resolution, hanswers p.2 hp]
  exact resolution_congr (h.awarded hp) fun c _ => h.recorded hp

/-- A review keeps views the same apart from `x`, whether it is one of `x` or not. -/
theorem ApartFrom.review (h : ApartFrom x V W) :
    ApartFrom x (V.review answers p) (W.review answers' p) := by
  by_cases hp : p.2 = x
  · subst hp
    refine ⟨fun hl => ?_, fun hl => ?_⟩
    · simp only [View.review, recorded_after, hl, decide_false, Bool.false_and, Bool.or_false]
      exact h.recorded hl
    · simp only [View.review, awarded_after, hl, and_false, decide_false, Bool.and_false,
        Bool.or_false]
      exact h.awarded hl
  · refine ⟨fun hl => ?_, fun hl => ?_⟩
    · rw [View.review, View.review, h.resolution_eq hanswers hp, recorded_after, recorded_after,
        h.recorded hl]
    · rw [View.review, View.review, h.resolution_eq hanswers hp, awarded_after, awarded_after,
        h.awarded hl]

theorem ApartFrom.carry (h : ApartFrom x V W) :
    ApartFrom x (V.carry answers ps) (W.carry answers' ps) := by
  induction ps generalizing V W with
  | nil => exact h
  | cons p ps ih => exact ih (h.review hanswers)

theorem ApartFrom.tally_eq (h : ApartFrom x V W) :
    (W.tally answers' ps).apartFrom x = (V.tally answers ps).apartFrom x := by
  induction ps generalizing V W with
  | nil => rfl
  | cons p ps ih =>
    rw [tally_cons, tally_cons, Report.apartFrom_add, Report.apartFrom_add,
      ih (h.review hanswers)]
    by_cases hp : p.2 = x
    · rw [Decision.apartFrom_report hp, Decision.apartFrom_report hp]
    · rw [h.resolution_eq hanswers hp]

theorem ApartFrom.report_eq (h : ApartFrom x V W) :
    (W.report answers' es).apartFrom x = (V.report answers es).apartFrom x := by
  induction es generalizing V W with
  | nil => rfl
  | cons e es ih =>
    simp only [View.report, Report.apartFrom_add]
    rw [h.tally_eq hanswers, ih (h.carry hanswers)]

end Apart

end View

/-- Whom a pass reviews does not depend on facts about learners. -/
theorem agenda_congr {facts facts' : FactSource} {now : Instant} {bs : List Badge}
    (h : ∀ q, q.learner? = none → facts' q = facts q) :
    agenda facts' now bs = agenda facts now bs := by
  have hselected : ∀ b, selected facts' now b = selected facts now b := fun b => by
    have hreviewability : reviewability facts' now b = reviewability facts now b := by
      unfold reviewability
      cases b.owner with
      | site => rfl
      | course c =>
        dsimp only
        rw [h (.course c) rfl]
    rw [selected, selected, hreviewability, h (.candidates b) rfl]
  simp only [agenda, hselected]

/-- There are answers from either facts, and they differ in those about `x` at most. -/
theorem exists_answers_apart {facts facts' : FactSource}
    (hfacts : ∀ q, q.learner? ≠ some x → facts' q = facts q)
    (granted : BadgeId → LearnerId → RoleId → Bool) :
    ∃ answers answers' : LearnerId → Criterion → Except ReviewError Bool,
      (∀ l, l ≠ x → answers' l = answers l) ∧ ∀ setting : Setting, setting.faults.OnlyNotices →
        (setting.facts = facts → ∀ l, Answers Ledger setting granted l (answers l)) ∧
        (setting.facts = facts' → ∀ l, Answers Ledger setting granted l (answers' l)) := by
  choose known hknown using exists_answers Ledger facts granted
  choose known' hknown' using exists_answers Ledger facts' granted
  -- The answers about the others are those that were found first.
  refine ⟨known, fun l => if l = x then known' l else known l, fun l hl => if_neg hl,
    fun setting honly => ⟨fun h l => hknown l _ honly fun q _ => congrFun h q, fun h l => ?_⟩⟩
  dsimp only
  by_cases hl : l = x
  · rw [if_pos hl]
    exact hknown' l _ honly fun q _ => congrFun h q
  · rw [if_neg hl]
    refine hknown l _ honly fun q hq => (congrFun h q).trans (hfacts q ?_)
    rcases hq with hq | hq
    · rw [hq]
      exact Option.some_ne_none x ∘ Eq.symm
    · rw [hq]
      exact fun h => hl (Option.some.inj h)

theorem exec_pass_of_sound {s : Ledger} {now : Instant} (setting : Setting)
    (honly : setting.faults.OnlyNotices) (hsound : s.Sound)
    (hmeasurable : ∀ b ∈ s.view.badges.values, b.expiry.Measurable)
    {answers : LearnerId → Criterion → Except ReviewError Bool}
    (hanswers : ∀ l, Answers Ledger setting s.view.granted l (answers l)) :
    let es := agenda setting.facts now s.view.badges.values
    let final := (pass now).exec setting (World.ofStore s)
    ∃ r, final.1 = .done r ∧ r = s.view.report answers es ∧
      Ledger.ShownBy now s (s.view.carry answers (reviews es)) final.2.store :=
  (carries_pass (Ledger.viewable now s) honly (q := (World.ofStore s).scene)
    (Ledger.shownBy_view hsound.toBadgesSound) hmeasurable hanswers).exec
    (fresh_of_never fun _ _ => id)

/-- Two passes whose facts differ in what is known of one learner, or can be, leave the same rows of
all others and report the same of them. -/
theorem failures_stay_with_learner (ops : List Operation) (now : Instant) (x : LearnerId)
    (facts facts' : FactSource) (hfacts : ∀ q, q.learner? ≠ some x → facts' q = facts q)
    (faults faults' : FaultPlan) (tokens tokens' : Nat → String)
    (honly : faults.OnlyNotices) (honly' : faults'.OnlyNotices)
    (hmeasurable : (Store.run Ledger.empty ops).Measurable) :
    let start := World.ofStore (Store.run Ledger.empty ops)
    let one := (pass now).exec ⟨facts, faults, tokens⟩ start
    let other := (pass now).exec ⟨facts', faults', tokens'⟩ start
    (∃ r r', one.1 = .done r ∧ other.1 = .done r' ∧
      r'.badgesReviewed = r.badgesReviewed ∧ r'.learnersEvaluated = r.learnersEvaluated ∧
      r'.failures.filter (·.learner ≠ some x) = r.failures.filter (·.learner ≠ some x)) ∧
    ∀ y, y ≠ x →
      (∀ c, other.2.store.met.get? ⟨c, y⟩ = one.2.store.met.get? ⟨c, y⟩) ∧
      ∀ b, (other.2.store.awards.get? ⟨b, y⟩).map Award.withoutToken =
        (one.2.store.awards.get? ⟨b, y⟩).map Award.withoutToken := by
  intro start one other
  have hsound : start.store.Sound := Ledger.sound_run ops
  have hvalues : ∀ b ∈ start.store.view.badges.values, b.expiry.Measurable := fun b hb => by
    obtain ⟨id, hid⟩ := Register.mem_values_iff.1 hb
    exact hmeasurable hid
  obtain ⟨answers, answers', hanswers, hfound⟩ :=
    exists_answers_apart hfacts start.store.view.granted
  obtain ⟨r, hone, hr, hleft⟩ :=
    exec_pass_of_sound ⟨facts, faults, tokens⟩ honly hsound hvalues ((hfound _ honly).1 rfl)
  obtain ⟨r', hother, hr', hleft'⟩ :=
    exec_pass_of_sound ⟨facts', faults', tokens'⟩ honly' hsound hvalues ((hfound _ honly').2 rfl)
  have hagenda : agenda facts' now start.store.view.badges.values =
      agenda facts now start.store.view.badges.values :=
    agenda_congr fun q hq => hfacts q (hq ▸ Option.some_ne_none x ∘ Eq.symm)
  rw [hagenda] at hr' hleft'
  let due := reviews (agenda facts now start.store.view.badges.values)
  -- Both passes carry out one agenda, so they come to views that differ in rows of `x` only.
  have happart : View.ApartFrom x (start.store.view.carry answers due)
      (start.store.view.carry answers' due) := View.ApartFrom.refl.carry hanswers
  have hreport : r'.apartFrom x = r.apartFrom x := by
    rw [hr, hr']
    exact View.ApartFrom.refl.report_eq hanswers
  obtain ⟨hbadges, hlearners, -, hfailures⟩ := Report.mk.inj hreport
  refine ⟨⟨r, r', hone, hother, hbadges, hlearners, hfailures⟩,
    fun y hy => ⟨fun c => ?_, fun b => ?_⟩⟩
  · refine Ledger.Follows.get?_met_eq hsound.toBadgesSound hleft.follows hleft'.follows ?_
    have hrecorded := happart.recorded (c := c) hy
    rwa [hleft.view_eq, hleft'.view_eq] at hrecorded
  · refine Ledger.Follows.get?_award_eq hleft.follows hleft'.follows ?_
    have hawarded := happart.awarded (b := b) hy
    rwa [hleft.view_eq, hleft'.view_eq] at hawarded

/-- Two learners who are connected. -/
def connectedLearners : Snapshot := (connectedLearner.withSiteLearner ⟨8⟩).connect ⟨8⟩ "web"

/-- Nothing can be found out about the learner. -/
def offline (x : LearnerId) (facts : FactSource) : FactSource := fun q =>
  if q.learner? = some x then .error (.unavailable "networks" "offline") else facts q

/-- While nothing is found out about the one learner, the other is awarded the badge. -/
theorem failures_stay_with_learner_offline :
    let now : Instant := ⟨0, 0, by decide, by decide, by decide, by decide⟩
    let facts := connectedLearners.source
    let facts' := offline ⟨7⟩ facts
    let start := World.ofStore (Store.run Ledger.empty networkBadge)
    let one := (pass now).exec ⟨facts, .empty, fun _ => "token"⟩ start
    let other := (pass now).exec ⟨facts', .empty, fun _ => "token"⟩ start
    ((∀ q, q.learner? ≠ some ⟨7⟩ → facts' q = facts q) ∧ FaultPlan.empty.OnlyNotices ∧
        (Store.run Ledger.empty networkBadge).Measurable) ∧
      (one.1 = .done ⟨1, 2, 2, []⟩ ∧
        other.1 = .done ⟨1, 2, 1, [⟨⟨1⟩, some ⟨7⟩, .source (.unavailable "networks" "offline")⟩]⟩) ∧
      (∃ r r', one.1 = .done r ∧ other.1 = .done r' ∧
        r'.badgesReviewed = r.badgesReviewed ∧ r'.learnersEvaluated = r.learnersEvaluated ∧
        r'.failures.filter (·.learner ≠ some ⟨7⟩) = r.failures.filter (·.learner ≠ some ⟨7⟩)) ∧
      ∀ y, y ≠ ⟨7⟩ →
        (∀ c, other.2.store.met.get? ⟨c, y⟩ = one.2.store.met.get? ⟨c, y⟩) ∧
        ∀ b, (other.2.store.awards.get? ⟨b, y⟩).map Award.withoutToken =
          (one.2.store.awards.get? ⟨b, y⟩).map Award.withoutToken := by
  have hfacts : ∀ q, q.learner? ≠ some ⟨7⟩ →
      offline ⟨7⟩ connectedLearners.source q = connectedLearners.source q :=
    fun q hq => if_neg hq
  have hmeasurable : (Store.run Ledger.empty networkBadge).Measurable :=
    Ledger.measurable_of_values (by decide +kernel)
  refine ⟨⟨hfacts, FaultPlan.onlyNotices_empty, hmeasurable⟩, by decide +kernel, ?_⟩
  exact failures_stay_with_learner networkBadge _ ⟨7⟩ connectedLearners.source
    (offline ⟨7⟩ connectedLearners.source) hfacts .empty .empty (fun _ => "token")
    (fun _ => "token") FaultPlan.onlyNotices_empty FaultPlan.onlyNotices_empty hmeasurable

end Review

end Badging
