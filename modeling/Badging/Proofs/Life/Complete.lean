import Badging.Proofs.Life.Locked
import Badging.Proofs.Review.Complaint

/-!
# Active badges are complete

A badge is activated only when it has exactly one overall criterion and at least one other, and
while it is active nothing adds a second overall criterion, nor does a transition or a review change
its criteria. What can make it incomplete is a removal: an active badge that was never awarded is
editable, so its overall criterion may be taken from it, or the last of the others. `Event.spoils`
is such a removal, and it is the only way.

As long as it is not spoilt, an active badge has an overall criterion, and no review complains of
its lack.
-/

namespace Badging

def Badge.CompleteIn (place : Option Badge) : Prop :=
  ∀ b, place = some b → b.status.isActive = true → b.Complete

theorem Badge.complete_of_apply {b b' : Badge} {t : Transition}
    (hb : b.status.isActive = true → b.Complete) (h : b.apply t = .ok b')
    (hactive : b'.status.isActive = true) : b'.Complete := by
  cases t with
  | activate =>
    obtain ⟨-, hcomplete, rfl⟩ := activate_eq_ok_iff_complete.1 h
    exact hcomplete
  | deactivate =>
    cases h
    cases hstatus : b.status <;> rw [deactivate, hstatus] at hactive <;> cases hactive
  | lock =>
    cases h
    rw [lock, Status.isActive_locked] at hactive
    exact hb hactive
  | archive =>
    cases h
    cases hactive

/-- A criterion that is added to a complete badge is not an overall one. -/
theorem Badge.Complete.append {b : Badge} {cid : CriterionId} {r : Criterion.Record} {c : Criterion}
    (h : b.Complete) (hc : b.prepare cid r = .ok c) :
    Badge.Complete { b with criteria := b.criteria ++ [c] } := by
  obtain ⟨-, -, hsecond⟩ := prepare_eq_ok_iff.1 hc
  obtain ⟨o, ho⟩ := h.exists_overall
  have hrole : c.isOverall = false := by
    rw [← Bool.not_eq_true]
    exact fun hoverall => hsecond ⟨hoverall, by rw [ho]; rfl⟩
  obtain ⟨hcount, hothers⟩ := h
  constructor
  · rw [List.countP_append, hcount, List.countP_singleton, hrole]
    rfl
  · rw [requirements, List.filter_append]
    exact List.append_ne_nil_of_left_ne_nil hothers _

theorem lifeLaw_completeIn (id : BadgeId) : LifeLaw id Badge.CompleteIn where
  new := by
    rintro new - b hb hactive
    cases hb
    cases hactive
  transition := by
    rintro b b' t hQ ht d hd hactive
    cases hd
    exact Badge.complete_of_apply (hQ b rfl) ht hactive
  criterion := by
    rintro b cid r c hQ hc d hd hactive
    cases hd
    exact (hQ b rfl hactive).append hc

section Catalog

variable {σ : Type} [Store σ] {R : Ledger → σ → Prop} {form : Badge → Badge}

/-- The event takes from an active badge its overall criterion, or the last of the others. -/
def Event.spoils (e : Event) (id : BadgeId) (w : World σ) : Prop :=
  ∃ b c, Store.badge? w.store id = some b ∧ b.status.isActive = true ∧ b.Owns c ∧ b.Needs c ∧
    e.performs (.deleteCriterion c) w

theorem Event.spares_completeIn (C : FaithfulCatalog R form) {id : BadgeId} (es : List Event)
    {w : World σ} (h : w.Throughout (fun e w => ¬ e.spoils id w) es) :
    w.Throughout (Event.Spares R id Badge.CompleteIn) es := by
  induction es generalizing w with
  | nil => trivial
  | cons e es ih =>
    refine ⟨⟨fun _ b hb => (by cases hb), ?_⟩, ih h.2⟩
    rintro c s b hperforms hs hb - hc hQ d hd hactive
    cases hd
    have hroles := C.roles_form hs hb
    refine (hQ b rfl hactive).without fun hneeds => h.1 ⟨form b, c, ?_, ?_, ?_, ?_, hperforms⟩
    · rw [C.badge?_eq hs, hb, Option.map_some]
    · rw [C.status_form]
      exact hactive
    · exact (Badge.owns_of_roles hroles).2 hc
    · exact (Badge.needs_congr hroles).2 hneeds

/-- What is true of an active badge that a world has stored under `id`. -/
structure InOrder (id : BadgeId) (b : Badge) (w : World σ) : Prop where
  complete : b.Complete
  /-- No review of it fails because it has no overall criterion. -/
  review : ∀ (setting : Setting) (l : LearnerId) (now : Instant) (w' : World σ) (e : ReviewError),
    ((Review.learner b l now).exec setting w').1 = .failed e → e.IsOutside
  /-- No pass reports that it has none. -/
  pass : ∀ (setting : Setting) (now : Instant) (r : Review.Report),
    ((Review.pass now).exec setting w).1 = .done r → r.BlamesOutside id

/-- From a moment on at which a badge is not active, it is in order whenever it is active, unless it
was spoilt in the meantime. -/
def CompleteWhileActive (start : σ) : Prop :=
  ∀ (past later : List Event) (id : BadgeId), let w := (World.ofStore start).through past
    (∀ b, Store.badge? w.store id = some b → b.status.isActive = false) →
    w.Throughout (fun e w => ¬ e.spoils id w) later →
    ∀ b, Store.badge? (w.through later).store id = some b → b.status.isActive = true →
      InOrder id b (w.through later)

open Run Review in
theorem FaithfulCatalog.inOrder (C : FaithfulCatalog R form) {s : Ledger} {id : BadgeId} {b : Badge}
    {w : World σ} (hs : R s w.store) (hb : s.badges.get? id = some b) (hcomplete : b.Complete) :
    InOrder id (form b) w := by
  have hform : (form b).Complete := (Badge.complete_congr (C.roles_form hs hb)).2 hcomplete
  have hoverall : (form b).overall?.isSome = true := by
    obtain ⟨o, ho⟩ := hform.exists_overall
    rw [ho]
    rfl
  refine ⟨hform, fun setting l now w' e he => ?_, fun setting now r hr => ?_⟩
  · have houtside : FailsOutside setting (learner (form b) l now : Run σ ReviewError Outcome) :=
      failsOutside_learner hoverall l
    have hfails := houtside w' trivial
    revert hfails he
    rcases (learner (form b) l now).exec setting w' with ⟨_ | _ | _, w''⟩
    · rintro ⟨⟩
    · rintro ⟨⟩ hfails
      exact hfails e rfl
    · rintro ⟨⟩
  · have hlisted : ∀ d ∈ s.badges.values.map form, Reviewable setting.facts now d → d.id = id →
        d.overall?.isSome = true := by
      intro d hd _ hid
      rwa [C.eq_form_of_id hs hb hd hid]
    have hpass : Triple setting (fun t n => t = w.store ∧ n = w.sent) (pass now)
        (fun r _ _ => r.BlamesOutside id) fun _ _ _ => True :=
      triple_pass_listed (C.badges hs) (fun _ _ => trivial)
        ((triple_badges_blamesOutside hlisted).weaken (fun _ _ _ => trivial) (fun _ _ _ h => h)
          fun _ _ _ h => h)
    have hreport := hpass w ⟨rfl, rfl⟩
    revert hreport hr
    rcases (Review.pass now).exec setting w with ⟨_ | _ | _, w''⟩
    · rintro ⟨⟩ hreport
      exact hreport
    · rintro ⟨⟩
    · rintro ⟨⟩

theorem FaithfulCatalog.completeWhileActive (C : FaithfulCatalog R form) {start : σ}
    (hstart : ∃ s, R s start) : CompleteWhileActive start := by
  intro past later id w hinactive hspoils b hb hactive
  obtain ⟨s, hs⟩ := C.exists_through (w := .ofStore start) hstart past
  have hstands : Stands R id Badge.CompleteIn w.store w.sent := by
    refine ⟨s, hs, fun d hd hd' => ?_⟩
    have hshown := hinactive (form d) (by rw [C.badge?_eq hs, hd, Option.map_some])
    rw [C.status_form, hd'] at hshown
    cases hshown
  obtain ⟨s', hs', hcomplete⟩ :=
    (lifeLaw_completeIn id).stands_through C later hstands (Event.spares_completeIn C later hspoils)
  obtain ⟨d, hd, rfl⟩ := C.exists_of_badge? hs' hb
  rw [C.status_form] at hactive
  exact C.inOrder hs' hd (hcomplete d hd hactive)

end Catalog

/-- At either store an active badge is complete, and no review complains that it has no overall
criterion, unless since it was last inactive its overall criterion or the last of the others was
removed. -/
theorem ledger_and_tables_complete_while_active :
    CompleteWhileActive Ledger.empty ∧ CompleteWhileActive Tables.empty :=
  ⟨Ledger.faithfulCatalog.completeWhileActive ⟨_, rfl, Ledger.sound_empty⟩,
    Tables.faithfulCatalog.completeWhileActive ⟨_, .empty⟩⟩

/-- A badge that gets a second requirement can do without the first. -/
theorem ledger_and_tables_complete_networker :
    let setting : Setting := ⟨Review.connectedLearner.source, .empty, fun _ => "token"⟩
    let created : Event := ⟨setting, .create Review.networkerDefinition⟩
    let added : Event := ⟨setting, .operation
      (.addCriterion ⟨1⟩ ⟨"social", .any, none, .ofList [("social_mail", "")]⟩) rfl⟩
    let removed : Event := ⟨setting, .operation (.deleteCriterion ⟨2⟩) rfl⟩
    let b : Badge := ⟨⟨1⟩, "Networker", .site, .active, .never,
      [⟨⟨1⟩, ⟨1⟩, .all, none, .overall⟩, ⟨⟨3⟩, ⟨1⟩, .any, none, .social ["mail"]⟩]⟩
    let ledger := (World.ofStore Ledger.empty).through [created, added, removed]
    let tables := (World.ofStore Tables.empty).through [created, added, removed]
    (Store.badge? ledger.store ⟨1⟩ = some b ∧ Store.badge? tables.store ⟨1⟩ = some b) ∧
      InOrder ⟨1⟩ b ledger ∧ InOrder ⟨1⟩ b tables := by
  intro setting created added removed b ledger tables
  have hledger : Store.badge? ledger.store ⟨1⟩ = some b := by decide +kernel
  have htables : Store.badge? tables.store ⟨1⟩ = some b := by decide +kernel
  -- The badge as it is when its criterion is removed, and that it can do without it.
  let grown : Badge := ⟨⟨1⟩, "Networker", .site, .active, .never,
    [⟨⟨1⟩, ⟨1⟩, .all, none, .overall⟩, ⟨⟨2⟩, ⟨1⟩, .all, none, .social ["web"]⟩,
      ⟨⟨3⟩, ⟨1⟩, .any, none, .social ["mail"]⟩]⟩
  have hspared : ∀ {σ : Type} [Store σ] (w : World σ),
      Store.badge? (w.through [created, added]).store ⟨1⟩ = some grown →
      w.Throughout (fun e w => ¬ e.spoils ⟨1⟩ w) [created, added, removed] := by
    intro σ _ w hgrown
    refine ⟨?_, ?_, ?_, trivial⟩
    · rintro ⟨_, _, -, -, -, -, ⟨_, hdeed⟩, -⟩
      cases hdeed
    · rintro ⟨_, _, -, -, -, -, ⟨_, hdeed⟩, -⟩
      cases hdeed
    · rintro ⟨b', c, hb', -, -, hneeds, ⟨_, hdeed⟩, -⟩
      cases hdeed
      obtain rfl : b' = grown := Option.some.inj (hb'.symm.trans hgrown)
      revert hneeds
      decide
  have hnone : ∀ {σ : Type} [Store σ] {start : σ}, Store.badge? start ⟨1⟩ = none →
      ∀ d, Store.badge? start ⟨1⟩ = some d → d.status.isActive = false := by
    intro σ _ start hstart d hd
    rw [hstart] at hd
    cases hd
  exact ⟨⟨hledger, htables⟩,
    ledger_and_tables_complete_while_active.1 [] _ ⟨1⟩ (hnone (by decide +kernel))
      (hspared _ (by decide +kernel)) b hledger rfl,
    ledger_and_tables_complete_while_active.2 [] _ ⟨1⟩ (hnone (by decide +kernel))
      (hspared _ (by decide +kernel)) b htables rfl⟩

/-- An active badge that nobody was awarded yet may lose its overall criterion. It stays active, and
a pass that selects it fails for the lack. -/
theorem active_badge_loses_overall :
    let now : Instant := ⟨0, 0, by decide, by decide, by decide, by decide⟩
    let setting : Setting := ⟨Review.connectedLearner.source, .empty, fun _ => "token"⟩
    let spoilt : List Event := [⟨setting, .create Review.networkerDefinition⟩,
      ⟨setting, .operation (.deleteCriterion ⟨1⟩) rfl⟩]
    let ledger := (World.ofStore Ledger.empty).through spoilt
    let tables := (World.ofStore Tables.empty).through spoilt
    let b := (Review.networker .active).without ⟨1⟩
    let report : Review.Report := ⟨1, 1, 0, [⟨⟨1⟩, some ⟨7⟩, .missingOverall ⟨1⟩⟩]⟩
    (Store.badge? ledger.store ⟨1⟩ = some b ∧ Store.badge? tables.store ⟨1⟩ = some b) ∧
      b.status.isActive = true ∧ ¬ b.Complete ∧
      ((Review.learner b ⟨7⟩ now).exec setting ledger).1 = .failed (.missingOverall ⟨1⟩) ∧
      ((Review.learner b ⟨7⟩ now).exec setting tables).1 = .failed (.missingOverall ⟨1⟩) ∧
      ((Review.pass now).exec setting ledger).1 = .done report ∧
      ((Review.pass now).exec setting tables).1 = .done report := by
  decide +kernel

end Badging
