import Badging.Proofs.Review.Dominating
import Badging.Proofs.Review.Resolving
import Badging.Proofs.Review.View.Ledger
import Badging.Proofs.Review.View.Tables

/-!
# Reviews are monotone

A learner who has achieved more does not fare worse in a review. Who was awarded a badge, or had it,
is awarded it or has it; and who is still to meet some requirements was so before, with no more of
them met.

Two reviews are compared, of two stores and against two sets of facts. Each comes to its resolution,
and resolutions are monotone in the standing of the learner and in the answers to the requirements.
The answers are monotone because criteria are. On tables the token of an award may be taken, and
then the review ends as if the learner had the badge, which is as good here.
-/

namespace Badging

namespace Review

open Run

/-- The learner has the badge after the review. -/
def Won : Ending ReviewError Outcome → Prop
  | .done (.awarded _) | .done .alreadyAwarded => True
  | _ => False

instance (v : Ending ReviewError Outcome) : Decidable (Won v) := by
  unfold Won
  split <;> infer_instance

section Resolutions

variable {answer answer' : Criterion → Except ReviewError Bool} {holds holds' : Criterion → Bool}
  {b : Badge} {st st' : Standing} {o : Criterion}

theorem decision_of_answered (hnodup : (b.criteria.map (·.id)).Nodup)
    (h : ∀ c ∈ b.requirements, answer c = .ok (holds c)) (hnone : st.awarded = false)
    (ho : b.overall? = some o) :
    (resolve answer b st).decision =
      if o.method.verdict (b.requirements.map fun c => st.recorded c.id || holds c) then .granted
      else .pending (b.requirements.countP fun c => st.recorded c.id || holds c)
        b.requirements.length := by
  have hreq := Badge.nodup_requirements hnodup
  have hextend : ∀ c ∈ b.requirements, extend st.recorded
      (b.requirements.filter fun c => !st.recorded c.id && holds c) c.id =
        (st.recorded c.id || holds c) := fun _ hc => extend_of_answered hreq hc
  simp only [resolve, hnone, Bool.false_eq_true, if_false, ho, settlement_of_answered hreq h,
    List.map_congr_left hextend]
  split <;> rfl

/-- A standing is no worse than another if it has the records and the award of the other. -/
structure Standing.NoWorse (st st' : Standing) : Prop where
  awarded : st.awarded = true → st'.awarded = true
  recorded : ∀ c, st.recorded c = true → st'.recorded c = true

/-- A decision is no worse than another if the learner has the badge by it, or if no fewer
requirements of as many are met. -/
inductive Decision.NoWorse : Decision → Decision → Prop
  | known {d : Decision} : NoWorse d .known
  | granted {d : Decision} (h : d ≠ .known) : NoWorse d .granted
  | pending {met met' total : Nat} (h : met ≤ met') :
    NoWorse (.pending met total) (.pending met' total)
  | failed {e : ReviewError} : NoWorse (.failed e) (.failed e)

/-- With a standing and answers that are no worse, a review comes to a decision that is no worse. -/
theorem decision_mono (hnodup : (b.criteria.map (·.id)).Nodup)
    (h : ∀ c ∈ b.requirements, answer c = .ok (holds c))
    (h' : ∀ c ∈ b.requirements, answer' c = .ok (holds' c)) (hst : st.NoWorse st')
    (hholds : ∀ c ∈ b.requirements, holds c = true → holds' c = true) :
    (resolve answer b st).decision.NoWorse (resolve answer' b st').decision := by
  cases hawarded' : st'.awarded with
  | true =>
    have hknown : (resolve answer' b st').decision = .known := by simp [resolve, hawarded']
    exact hknown ▸ .known
  | false =>
    have hawarded : st.awarded = false := Bool.eq_false_iff.2 fun hawarded =>
      Bool.false_ne_true (hawarded'.symm.trans (hst.awarded hawarded))
    cases ho : b.overall? with
    | none =>
      simp only [resolve, hawarded, hawarded', ho, Bool.false_eq_true, if_false]
      exact .failed
    | some o =>
      have hmet : ∀ c ∈ b.requirements, (st.recorded c.id || holds c) = true →
          (st'.recorded c.id || holds' c) = true := fun c hc => by
        simp only [Bool.or_eq_true]
        exact Or.imp (hst.recorded c.id) (hholds c hc)
      rw [decision_of_answered hnodup h hawarded ho, decision_of_answered hnodup h' hawarded' ho]
      split
      · next hverdict =>
        obtain ⟨hne, hasks⟩ := Method.verdict_map_eq_true_iff.1 hverdict
        rw [if_pos (Method.verdict_map_eq_true_iff.2 ⟨hne, hasks.mono hmet⟩)]
        exact .granted fun h => by cases h
      · split
        · exact .granted fun h => by cases h
        · exact .pending (List.countP_mono_left hmet)

end Resolutions

/-- How a review ends that comes to a decision: if it grants the badge it is broken off over a
period that cannot be measured, and otherwise the learner has the badge. -/
def Decision.EndsIn (b : Badge) : Decision → Ending ReviewError Outcome → Prop
  | .failed e, v => v = .failed e
  | .known, v => v = .done .alreadyAwarded
  | .pending met total, v => v = .done (.pending met total)
  | .granted, v => (b.expiry.Measurable ∧ Won v) ∨ ¬ b.expiry.Measurable ∧ ∃ p, v = .broken p

theorem Decision.NoWorse.outcome {b : Badge} {d d' : Decision} {v v' : Ending ReviewError Outcome}
    (h : d.NoWorse d') (hv : d.EndsIn b v) (hv' : d'.EndsIn b v') :
    (Won v → Won v') ∧ ∀ met' total, v' = .done (.pending met' total) →
      ∃ met ≤ met', v = .done (.pending met total) := by
  cases h with
  | known =>
    rw [show v' = _ from hv']
    exact ⟨fun _ => trivial, nofun⟩
  | @granted d hd =>
    rcases hv' with ⟨hmeasurable, hwon⟩ | ⟨hnot, p, rfl⟩
    · refine ⟨fun _ => hwon, ?_⟩
      rintro met' total rfl
      exact hwon.elim
    · refine ⟨fun hwon => ?_, nofun⟩
      -- Who won the badge before was either known to have it, or was awarded it.
      cases d with
      | known => exact absurd rfl hd
      | failed e | pending met total =>
        rw [show v = _ from hv] at hwon
        exact hwon.elim
      | granted =>
        rcases hv with ⟨hmeasurable, -⟩ | ⟨-, p', rfl⟩
        · exact absurd hmeasurable hnot
        · exact hwon.elim
  | @pending met met' total hle =>
    rw [show v = _ from hv, show v' = _ from hv']
    refine ⟨False.elim, fun n t heq => ?_⟩
    cases heq
    exact ⟨met, hle, rfl⟩
  | failed =>
    rw [show v = _ from hv, show v' = _ from hv']
    exact ⟨False.elim, nofun⟩

section Ending

variable {σ : Type} [Store σ] {now : Instant} {Shown : View → σ → Prop}
  {Taken : σ → String → Prop} {setting : Setting} {V : View} {b : Badge} {l : LearnerId}

theorem endsIn_issue (K : Viewable now Shown Taken) (honly : setting.faults.OnlyNotices)
    {w : World σ} (hshown : Shown V w.store) (hb : V.Knows b)
    (hnone : V.awarded b.id l = false) :
    Decision.EndsIn b .granted ((issue b l now).exec setting w).1 := by
  cases ha : Award.issue b l now (setting.tokens w.issued) with
  | error p =>
    refine .inr ⟨(Expiry.endOf_eq_error_iff.1 (Award.issue_eq_error_iff.1 ha)).2, p, ?_⟩
    rw [issue, exec_bind_of_done (x := freshToken) rfl, ha]
    rfl
  | ok a =>
    obtain ⟨x, hx, -⟩ := Award.issue_eq_ok_iff.1 ha
    obtain ⟨v, V', q', hissue, -, -, -, hcase⟩ :=
      ends_issue K honly (q := w.scene) hshown hb hnone ha
    refine .inl ⟨Expiry.endOf_eq_ok_iff.1 ⟨x, hx⟩, ?_⟩
    rw [hissue.exec_eq.1]
    rcases hcase with ⟨-, rfl⟩ | ⟨rfl, -⟩ <;> trivial

/-- The review of a learner ends as its decision says, whether or not the token is taken. -/
theorem endsIn_learner (K : Viewable now Shown Taken) (honly : setting.faults.OnlyNotices)
    {w : World σ} (hshown : Shown V w.store) (hb : V.Knows b)
    {answer : Criterion → Except ReviewError Bool}
    (hanswer : Answers σ setting V.granted l answer) :
    (resolve answer b (V.standing b.id l)).decision.EndsIn b
      ((learner b l now).exec setting w).1 := by
  have hsettles : Settles now Shown Taken setting V b l w.scene _ :=
    settles_learner K honly hshown hb hanswer
  revert hsettles
  generalize resolve answer b (V.standing b.id l) = r
  intro hsettles
  cases hsettles with
  | @denied r v s hr hv hends =>
    rw [hends.exec_eq.1]
    -- The outcome is the same for every award, as no award is issued.
    have hv : r.decision.outcome ⟨b.id, l, now, none, "", true⟩ = v := hv _
    subst hv
    cases hdecision : r.decision with
    | granted =>
      rw [hdecision] at hr
      cases hr
    | _ => rfl
  | @granted ms o s hawarded ho hshown' htaken hgoes =>
    obtain ⟨w₁, hw₁, hexec⟩ := hgoes w rfl
    have hstore₁ : w₁.store = s := congrArg Scene.store hw₁
    obtain ⟨added, s', hmark, hshown₂, -⟩ := K.markMet (s := w₁.store) l (hstore₁ ▸ hshown')
      ((View.leads_record ms).knows hb) ho
    obtain ⟨w₂, hw₂, hexec₂⟩ := (ends_call (q := w₁.scene) honly hmark).goes_on rfl
    rw [hexec, hexec₂]
    have hstore₂ : w₂.store = s' := congrArg Scene.store hw₂
    rw [← View.record_append] at hshown₂
    exact endsIn_issue K honly (hstore₂ ▸ hshown₂) ((View.leads_record _).knows hb) hawarded

end Ending

/-- A view has the badges of another, and what the other has of a learner. -/
structure View.Exceeds (l : LearnerId) (V W : View) : Prop where
  badges : V.badges = W.badges
  recorded : ∀ c, W.recorded c l = true → V.recorded c l = true
  awarded : ∀ b, W.awarded b l = true → V.awarded b l = true
  granted : ∀ b r, W.granted b l r = true → V.granted b l r = true

section Compared

variable {σ : Type} [Store σ] {rows : σ → Rows} {now now' : Instant}
  {Shown Shown' : View → σ → Prop} {Taken Taken' : σ → String → Prop} {one two : Setting}
  {V V' : View} {w w' : World σ} {b : Badge} {l : LearnerId} {c : Criterion}

theorem rows_of_shown (hreadable : Readable rows) (K : Viewable now Shown Taken) {s : σ}
    (hshown : Shown V s) (l : LearnerId) :
    (∀ b r, (rows s).manual b l r = .ok (V.granted b l r)) ∧
      ∀ c, ∃ m, (rows s).met c l = .ok m ∧ m.isSome = V.recorded c l := by
  refine ⟨fun b r => ?_, fun c => ?_⟩
  · have hperform := K.manualExists b l r hshown
    rw [hreadable.manual, map_eq_ok_iff] at hperform
    obtain ⟨a, ha, heq⟩ := hperform
    cases heq
    exact ha
  · obtain ⟨m, hperform, hm⟩ := K.criterionMet c l hshown
    rw [hreadable.met, map_eq_ok_iff] at hperform
    obtain ⟨m', hm', heq⟩ := hperform
    cases heq
    exact ⟨_, hm', hm⟩

theorem rows_answer (hreadable : Readable rows) (K : Viewable now Shown Taken) {s : σ}
    (hshown : Shown V s) (l : LearnerId) : (rows s).Answer l := by
  obtain ⟨hmanual, hmet⟩ := rows_of_shown hreadable K hshown l
  exact ⟨fun b r => ⟨_, hmanual b r⟩, fun c => (hmet c).imp fun _ => And.left⟩

theorem rows_exceed (hreadable : Readable rows) (K : Viewable now Shown Taken)
    (K' : Viewable now' Shown' Taken') (hmore : V'.Exceeds l V) {s s' : σ} (hshown : Shown V s)
    (hshown' : Shown' V' s') : (rows s').Exceeds l (rows s) := by
  obtain ⟨hmanual, hmet⟩ := rows_of_shown hreadable K hshown l
  obtain ⟨hmanual', hmet'⟩ := rows_of_shown hreadable K' hshown' l
  refine ⟨fun {b r} h => ?_, fun {c m} h => ?_⟩
  · rw [hmanual, Except.ok.injEq] at h
    rw [hmanual', hmore.granted b r h]
  · obtain ⟨m₁, hm₁, hsome⟩ := hmet c
    obtain ⟨m₂, hm₂, hsome₂⟩ := hmet' c
    rw [h, Except.ok.injEq] at hm₁
    subst hm₁
    rw [hmore.recorded c hsome.symm, Option.isSome_iff_exists] at hsome₂
    obtain ⟨m', rfl⟩ := hsome₂
    exact ⟨m', hm₂⟩

theorem Answers.exec_eq (K : Viewable now Shown Taken) (hshown : Shown V w.store)
    {answer : Criterion → Except ReviewError Bool} (hanswer : Answers σ one V.granted l answer)
    (hc : c ∈ b.requirements) : ((criterion b l c).exec one w).1 = .ofExcept (answer c) :=
  (hanswer b c (Badge.mem_requirements_iff.1 hc).2 w.scene fun b l r =>
    K.manualExists b l r hshown).exec_eq.1

theorem Answers.answered (hreadable : Readable rows) (K : Viewable now Shown Taken)
    (honly : one.faults.OnlyNotices) (htotal : one.facts.Total) (hshown : Shown V w.store)
    {answer : Criterion → Except ReviewError Bool} (hanswer : Answers σ one V.granted l answer)
    (hc : c ∈ b.requirements) : ∃ a, answer c = .ok a := by
  obtain ⟨v, hv, hjudged⟩ := judged_criterion hreadable honly b l c w
  obtain ⟨a, rfl, -⟩ := hjudged.unblocked fun d _ =>
    d.not_blocked htotal (rows_answer hreadable K hshown l)
  rw [hanswer.exec_eq K hshown hc] at hv
  cases hanswer' : answer c <;> rw [hanswer'] at hv <;> cases hv
  exact ⟨a, rfl⟩

/-- Two reviews of a badge that both stores know: the second, of a learner who has achieved more,
ends no worse than the first. -/
theorem learner_mono (hreadable : Readable rows) (K : Viewable now Shown Taken)
    (K' : Viewable now' Shown' Taken') (hone : one.faults.OnlyNotices)
    (htwo : two.faults.OnlyNotices) (hfacts : two.facts.Dominates l one.facts)
    (hone' : one.facts.Total) (htwo' : two.facts.Total) (hmore : V'.Exceeds l V)
    (hshown : Shown V w.store) (hshown' : Shown' V' w'.store) (hb : V.Knows b) :
    (Won ((learner b l now).exec one w).1 → Won ((learner b l now').exec two w').1) ∧
      ∀ met' total, ((learner b l now').exec two w').1 = .done (.pending met' total) →
        ∃ met ≤ met', ((learner b l now).exec one w).1 = .done (.pending met total) := by
  obtain ⟨answer, hanswer⟩ := exists_answers σ one.facts V.granted l
  obtain ⟨answer', hanswer'⟩ := exists_answers σ two.facts V'.granted l
  have hans := hanswer one hone fun _ _ => rfl
  have hans' := hanswer' two htwo fun _ _ => rfl
  have hb' : V'.Knows b := by
    rw [View.Knows, View.locked, hmore.badges]
    exact hb
  choose! holds hholds using fun c (hc : c ∈ b.requirements) =>
    hans.answered hreadable K hone hone' hshown hc
  choose! holds' hholds' using fun c (hc : c ∈ b.requirements) =>
    hans'.answered hreadable K' htwo htwo' hshown' hc
  have hmono : ∀ c ∈ b.requirements, holds c = true → holds' c = true := fun c hc htrue => by
    have hmet := criterion_mono (b := b) (c := c) hreadable hone htwo hfacts htwo'
      (rows_exceed hreadable K K' hmore hshown hshown') (rows_answer hreadable K' hshown' l)
      (by rw [hans.exec_eq K hshown hc, hholds c hc, htrue]; rfl)
    rw [hans'.exec_eq K' hshown' hc, hholds' c hc] at hmet
    exact Ending.done.inj hmet
  have hdecision : (resolve answer b (V.standing b.id l)).decision.NoWorse
      (resolve answer' b (V'.standing b.id l)).decision := decision_mono
    ((K.sound hshown).nodup_of_knows hb) hholds hholds' ⟨hmore.awarded b.id, hmore.recorded⟩ hmono
  exact hdecision.outcome (endsIn_learner K hone hshown hb hans)
    (endsIn_learner K' htwo hshown' hb' hans')

end Compared

/-- A world with this store, in a setting with these facts in which nothing but notices is lost. -/
structure Undisturbed {σ : Type} (facts : FactSource) (s : σ) (setting : Setting) (w : World σ) :
    Prop where
  facts : setting.facts = facts
  store : w.store = s
  faults : setting.faults.OnlyNotices

/-- Reviews of a learner come to no worse with the second facts and the second store than with the
first: a criterion that was met is met, who won a badge of the store wins it, and who is still to
meet requirements of it had met no more of them. -/
structure NoWorse {σ : Type} [Store σ] (l : LearnerId) (facts facts' : FactSource) (s s' : σ) :
    Prop where
  criterion : ∀ (b : Badge) (c : Criterion) {one two : Setting} {w w' : World σ},
    Undisturbed facts s one w → Undisturbed facts' s' two w' →
      ((criterion b l c).exec one w).1 = .done true →
        ((criterion b l c).exec two w').1 = .done true
  learner : facts.Total → ∀ {id : BadgeId} {b : Badge},
    Store.perform (.badge id) s = .ok (some b, s) →
      ∀ (now now' : Instant) {one two : Setting} {w w' : World σ}, Undisturbed facts s one w →
        Undisturbed facts' s' two w' →
          (Won ((learner b l now).exec one w).1 → Won ((learner b l now').exec two w').1) ∧
            ∀ met' total, ((learner b l now').exec two w').1 = .done (.pending met' total) →
              ∃ met ≤ met', ((learner b l now).exec one w).1 = .done (.pending met total)

theorem noWorse_of_viewable {σ : Type} [Store σ] {rows : σ → Rows} (hreadable : Readable rows)
    {Shown Shown' : Instant → View → σ → Prop} {Taken : σ → String → Prop}
    (K : ∀ now, Viewable now (Shown now) Taken) (K' : ∀ now, Viewable now (Shown' now) Taken)
    {s s' : σ} {V V' : View} (hshown : ∀ now, Shown now V s) (hshown' : ∀ now, Shown' now V' s')
    {l : LearnerId} (hmore : V'.Exceeds l V) {facts facts' : FactSource}
    (hfacts : facts'.Dominates l facts) (htotal : facts'.Total) : NoWorse l facts facts' s s' where
  criterion b c one two w w' := by
    rintro ⟨rfl, rfl, hone⟩ ⟨rfl, rfl, htwo⟩
    -- The time of a review plays no part in the review of a criterion.
    let now : Instant := ⟨0, 0, by decide, by decide, by decide, by decide⟩
    exact criterion_mono hreadable hone htwo hfacts htotal
      (rows_exceed hreadable (K now) (K' now) hmore (hshown now) (hshown' now))
      (rows_answer hreadable (K' now) (hshown' now) l)
  learner hone' id b hb now now' one two w w' := by
    rintro ⟨rfl, rfl, hone⟩ ⟨rfl, rfl, htwo⟩
    rw [(K now).badge id (hshown now), Except.ok.injEq, Prod.mk.injEq] at hb
    exact learner_mono hreadable (K now) (K' now') hone htwo hfacts hone' htotal hmore (hshown now)
      (hshown' now') (((K now).sound (hshown now)).knows hb.1)

end Review

namespace Ledger

/-- The ledger `s'` has the badges and all rows of `s`, and maybe other rows. -/
structure HasMore (s s' : Ledger) : Prop where
  lastBadge : s'.lastBadge = s.lastBadge
  lastCriterion : s'.lastCriterion = s.lastCriterion
  badges : s'.badges = s.badges
  met : ∀ {k r}, s.met.get? k = some r → s'.met.get? k = some r
  manual : ∀ {k a}, s.manual.get? k = some a → s'.manual.get? k = some a
  awards : ∀ {k a}, s.awards.get? k = some a → s'.awards.get? k = some a

variable {s s' : Ledger}

theorem HasMore.badgesSound (h : s.HasMore s') (hs : s.BadgesSound) : s'.BadgesSound := by
  obtain ⟨hbadge, hrange, hcounters, hunique⟩ := hs
  rw [← h.lastBadge, ← h.badges] at hrange
  rw [← h.lastCriterion, ← h.badges] at hbadge
  rw [← h.lastBadge, ← h.lastCriterion] at hcounters
  rw [← h.badges] at hunique
  exact ⟨hbadge, hrange, hcounters, hunique⟩

theorem HasMore.exceeds (h : s.HasMore s') (l : LearnerId) : s'.view.Exceeds l s.view where
  badges := h.badges
  recorded c hc := by
    obtain ⟨r, hr⟩ := Register.contains_eq_true_iff.1 hc
    exact Register.contains_eq_true_iff.2 ⟨r, h.met hr⟩
  awarded b hb := by
    obtain ⟨a, ha⟩ := Register.contains_eq_true_iff.1 hb
    exact Register.contains_eq_true_iff.2 ⟨a, h.awards ha⟩
  granted b r hr := by
    obtain ⟨a, ha⟩ := Register.contains_eq_true_iff.1 hr
    exact Register.contains_eq_true_iff.2 ⟨a, h.manual ha⟩

end Ledger

namespace Tables

/-- The tables `t'` have the badges and all rows of `t`, and maybe other rows, which were written
for records and awards. -/
structure HasMore (t t' : Tables) : Prop where
  lastBadge : t'.lastBadge = t.lastBadge
  lastCriterion : t'.lastCriterion = t.lastCriterion
  badges : t'.badges = t.badges
  criteria : t'.criteria = t.criteria
  params : t'.params = t.params
  met : ∀ r ∈ t.met, r ∈ t'.met
  manual : ∀ r ∈ t.manual, r ∈ t'.manual
  issued : ∀ r ∈ t.issued, r ∈ t'.issued
  written : t'.Written

variable {t t' : Tables}

theorem HasMore.hasBadges (h : t.HasMore t') {s : Ledger} (M : HasBadges s t) : HasBadges s t' where
  lastBadge := h.lastBadge.trans M.lastBadge
  lastCriterion := h.lastCriterion.trans M.lastCriterion
  badges := h.badges.trans M.badges
  criteria := h.criteria ▸ M.criteria
  owned := h.criteria ▸ M.owned
  params := h.params ▸ M.params
  params_le := h.params ▸ M.params_le
  legible := M.legible
  sound := M.sound

theorem HasMore.exceeds (h : t.HasMore t') (B : Register BadgeId Badge) (l : LearnerId) :
    (t'.view B).Exceeds l (t.view B) where
  badges := rfl
  recorded c hc := by
    obtain ⟨r, hr, hkey⟩ := List.any_eq_true.1 hc
    exact List.any_eq_true.2 ⟨r, h.met r hr, hkey⟩
  awarded b hb := by
    obtain ⟨r, hr, hkey⟩ := List.any_eq_true.1 hb
    exact List.any_eq_true.2 ⟨r, h.issued r hr, hkey⟩
  granted b role hrole := by
    obtain ⟨r, hr, hkey⟩ := List.any_eq_true.1 hrole
    exact List.any_eq_true.2 ⟨r, h.manual r hr, hkey⟩

end Tables

namespace Review

/-- On either store, whatever was done to it before: a learner who has achieved more by the facts,
and has more records, manual awards or awards in the store, does not fare worse in any review. -/
theorem reviews_are_monotone (ops : List Operation) {l : LearnerId} {facts facts' : FactSource}
    (hfacts : facts'.Dominates l facts) (htotal : facts'.Total) :
    (∀ s', (Store.run Ledger.empty ops).HasMore s' →
      NoWorse l facts facts' (Store.run Ledger.empty ops) s') ∧
    ∀ t', (Store.run Tables.empty ops).HasMore t' →
      NoWorse l facts facts' (Store.run Tables.empty ops) t' := by
  refine ⟨fun s' hs' => ?_, fun t' ht' => ?_⟩
  · have hsound : (Store.run Ledger.empty ops).BadgesSound := (Ledger.sound_run ops).toBadgesSound
    exact noWorse_of_viewable Ledger.readable (fun now => Ledger.viewable now _)
      (fun now => Ledger.viewable now _) (fun _ => Ledger.shownBy_view hsound)
      (fun _ => Ledger.shownBy_view (hs'.badgesSound hsound)) (hs'.exceeds l) hfacts htotal
  · obtain ⟨V, s, M, W, rfl⟩ :=
      Tables.exists_shownBy (Store.reaches_run Tables.empty ops)
    exact noWorse_of_viewable Tables.readable Tables.viewable Tables.viewable
      (fun _ => ⟨s, M, W, rfl⟩) (fun _ => ⟨s, ht'.hasBadges M, ht'.written, rfl⟩)
      (ht'.exceeds s.badges l) hfacts htotal

/-- The learner is connected to the network, and the criterion is recorded besides. Before, the
review was pending; now the badge is awarded. -/
theorem reviews_are_monotone_networker :
    let now : Instant := ⟨0, 0, by decide, by decide, by decide, by decide⟩
    let facts := Snapshot.empty.withSiteLearner ⟨7⟩
    let recorded : List Operation := [.markMet ⟨⟨2⟩, ⟨1⟩, ⟨7⟩, now⟩]
    let ledger := Store.run Ledger.empty networkBadge
    let tables := Store.run Tables.empty networkBadge
    (FactSource.Dominates ⟨7⟩ connectedLearner.source facts.source ∧
        FactSource.Total connectedLearner.source ∧ ledger.HasMore (Store.run ledger recorded) ∧
        tables.HasMore (Store.run tables recorded)) ∧
      (((learner (networker .active) ⟨7⟩ now).exec (.clean facts.source) (.ofStore tables)).1 =
          .done (.pending 0 1) ∧
        Won ((learner (networker .active) ⟨7⟩ now).exec (.clean connectedLearner.source)
          (.ofStore (Store.run tables recorded))).1) ∧
      NoWorse ⟨7⟩ facts.source connectedLearner.source ledger (Store.run ledger recorded) ∧
      NoWorse ⟨7⟩ facts.source connectedLearner.source tables (Store.run tables recorded) := by
  intro now facts recorded ledger tables
  have hfacts : FactSource.Dominates ⟨7⟩ connectedLearner.source facts.source := .connect _ _ _ _
  have htotal : FactSource.Total connectedLearner.source := fun q => ⟨_, rfl⟩
  have hledger : ledger.HasMore (Store.run ledger recorded) := by
    have hrows : ledger.met = .empty ∧ ledger.manual = .empty ∧ ledger.awards = .empty := by
      decide +kernel
    refine ⟨by decide +kernel, by decide +kernel, by decide +kernel, fun h => ?_, fun h => ?_,
      fun h => ?_⟩
    · rw [hrows.1] at h
      cases h
    · rw [hrows.2.1] at h
      cases h
    · rw [hrows.2.2] at h
      cases h
  have htables : tables.HasMore (Store.run tables recorded) := by
    have hmet : (Store.run tables recorded).met = [MetRecord.row ⟨⟨2⟩, ⟨1⟩, ⟨7⟩, now⟩] := by
      decide +kernel
    have hissued : (Store.run tables recorded).issued = [] := by decide +kernel
    refine ⟨by decide +kernel, by decide +kernel, by decide +kernel, by decide +kernel,
      by decide +kernel, by decide +kernel, by decide +kernel, by decide +kernel,
      fun r hr => ⟨⟨⟨2⟩, ⟨1⟩, ⟨7⟩, now⟩, ?_⟩, fun r hr => ?_⟩
    · rw [hmet] at hr
      exact (List.mem_singleton.1 hr).symm
    · rw [hissued] at hr
      cases hr
  obtain ⟨hL, hT⟩ := reviews_are_monotone networkBadge hfacts htotal
  exact ⟨⟨hfacts, htotal, hledger, htables⟩, by decide +kernel, hL _ hledger, hT _ htables⟩

end Review

end Badging
