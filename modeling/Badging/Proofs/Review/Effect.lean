import Badging.Proofs.Review.Resolving
import Badging.Proofs.Review.View.Ledger

/-!
# What a review does

Where nothing fails but the delivery of notices, the review of a learner for a badge that was just
read does one of four things, and which one it is can be told from the ledger, the badge and the
facts before the review. Those requirements count as met that are on record or hold. The review
writes the records that are missing among them, and if the method of the overall criterion is
content with them the award follows.

The overall criterion is checked against the records that the review has just written. So the
argument keeps apart what the ledger was when the review began, which decides what is met, and the
register of records, which is all that changes until the award.
-/

namespace Badging

/-- The records `met'` are those of `met`, and new ones of a learner for the given criteria, as far
as they had none. -/
structure RecordsAdded (l : LearnerId) (now : Instant) (cs : List Criterion)
    (met met' : Register (Pair CriterionId LearnerId) MetRecord) : Prop where
  kept : ∀ {k r}, met.get? k = some r → met'.get? k = some r
  added : ∀ c ∈ cs, met.get? ⟨c.id, l⟩ = none → met'.get? ⟨c.id, l⟩ = some (c.met l now)
  only : ∀ {k}, met.get? k = none → (∀ c ∈ cs, k ≠ ⟨c.id, l⟩) → met'.get? k = none

namespace RecordsAdded

variable {l : LearnerId} {now : Instant} {c : Criterion} {cs cs' : List Criterion}
  {met met' met'' : Register (Pair CriterionId LearnerId) MetRecord}

theorem nil : RecordsAdded l now [] met met :=
  ⟨fun h => h, fun _ hc => absurd hc List.not_mem_nil, fun h _ => h⟩

theorem of_contains (h : met.contains ⟨c.id, l⟩ = true) : RecordsAdded l now [c] met met := by
  refine ⟨fun h => h, fun d hd hnone => ?_, fun h _ => h⟩
  rw [List.mem_singleton.1 hd, ← Register.contains_eq_false_iff, h] at hnone
  cases hnone

theorem insert (h : met.get? ⟨c.id, l⟩ = none) :
    RecordsAdded l now [c] met (met.insert ⟨c.id, l⟩ (c.met l now)) := by
  refine ⟨fun {k r} hr => ?_, fun d hd _ => ?_, fun {k} hk hne => ?_⟩
  · rw [met.get?_insert_of_ne, hr]
    rintro rfl
    rw [h] at hr
    cases hr
  · rw [List.mem_singleton.1 hd, met.get?_insert_self]
  · rw [met.get?_insert_of_ne (hne c List.mem_cons_self), hk]

theorem trans (h : RecordsAdded l now cs met met') (h' : RecordsAdded l now cs' met' met'')
    (hapart : ∀ c ∈ cs, ∀ d ∈ cs', c.id ≠ d.id) : RecordsAdded l now (cs ++ cs') met met'' := by
  refine ⟨fun hr => h'.kept (h.kept hr), fun c hc hnone => ?_, fun {k} hk hne => ?_⟩
  · rcases List.mem_append.1 hc with hc | hc
    · exact h'.kept (h.added c hc hnone)
    · refine h'.added c hc (h.only hnone fun d hd heq => ?_)
      exact hapart d hd c hc (Pair.mk.inj heq).1.symm
  · exact h'.only (h.only hk fun c hc => hne c (List.mem_append_left _ hc))
      fun c hc => hne c (List.mem_append_right _ hc)

theorem contains_iff (h : RecordsAdded l now cs met met') :
    met'.contains ⟨c.id, l⟩ = true ↔ met.contains ⟨c.id, l⟩ = true ∨ ∃ d ∈ cs, d.id = c.id := by
  cases hmet : met.get? ⟨c.id, l⟩ with
  | some r =>
    rw [Register.contains_eq_true_iff, Register.contains_eq_true_iff]
    exact iff_of_true ⟨r, h.kept hmet⟩ (.inl ⟨r, hmet⟩)
  | none =>
    rw [Register.contains_eq_false_iff.2 hmet, Register.contains_eq_true_iff]
    constructor
    · rintro ⟨r, hr⟩
      by_contra hno
      push Not at hno
      rw [h.only hmet fun d hd heq => hno.2 d hd (Pair.mk.inj heq).1.symm] at hr
      cases hr
    · rintro (h' | ⟨d, hd, hid⟩)
      · cases h'
      · exact ⟨_, hid ▸ h.added d hd (hid.symm ▸ hmet)⟩

end RecordsAdded

namespace Review

open Run Ledger

instance (facts : FactSource) (s : Ledger) (b : Badge) (l : LearnerId) (c : Criterion) :
    Decidable (Holds facts s b l c) := inferInstanceAs (Decidable (_ = _))

/-- The requirement has a met record of the learner, or its review finds that it holds. -/
def IsMet (facts : FactSource) (s : Ledger) (b : Badge) (l : LearnerId) (c : Criterion) : Prop :=
  Recorded s l c ∨ Holds facts s b l c

instance (facts : FactSource) (s : Ledger) (b : Badge) (l : LearnerId) (c : Criterion) :
    Decidable (IsMet facts s b l c) := inferInstanceAs (Decidable (_ ∨ _))

/-- The requirements of a badge that count as met. -/
def metRequirements (facts : FactSource) (s : Ledger) (b : Badge) (l : LearnerId) :
    List Criterion :=
  b.requirements.filter fun c => decide (IsMet facts s b l c)

/-- The method is content with those that are met of all requirements. -/
def Contents (method : Method) (met all : List Criterion) : Prop :=
  match method with
  | .all => met = all ∧ 0 < all.length
  | .any => met ≠ []

/-- The four things that the review of a learner for a badge may come to, each with what it does to
the ledger and what it tells about. -/
inductive LearnerEffect (setting : Setting) (now : Instant) (b : Badge) (l : LearnerId)
    (w w' : World Ledger) : Ending ReviewError Outcome → Prop
  | known (haward : ∃ a, w.store.awards.get? ⟨b.id, l⟩ = some a) (hstore : w'.store = w.store)
      (hcalls : w'.calls = .store (.award b.id l) :: w.calls) :
      LearnerEffect setting now b l w w' (.done .alreadyAwarded)
  | incomplete (hnone : w.store.awards.get? ⟨b.id, l⟩ = none) (ho : b.overall? = none)
      (hstore : w'.store = w.store) (hcalls : w'.calls = .store (.award b.id l) :: w.calls) :
      LearnerEffect setting now b l w w' (.failed (.missingOverall b.id))
  | pending {o : Criterion} {met' : Register (Pair CriterionId LearnerId) MetRecord}
      (hnone : w.store.awards.get? ⟨b.id, l⟩ = none) (ho : b.overall? = some o)
      (hnot : ¬ Contents o.method (metRequirements setting.facts w.store b l) b.requirements)
      (hmet : RecordsAdded l now (metRequirements setting.facts w.store b l) w.store.met met')
      (hstore : w'.store = { w.store with met := met' }) (hsent : w'.sent = w.sent) :
      LearnerEffect setting now b l w w' (.done
        (.pending (metRequirements setting.facts w.store b l).length b.requirements.length))
  | awarded {o : Criterion} {met' : Register (Pair CriterionId LearnerId) MetRecord} {a : Award}
      {expiresAt : Option Instant}
      (hnone : w.store.awards.get? ⟨b.id, l⟩ = none) (ho : b.overall? = some o)
      (hcontent : Contents o.method (metRequirements setting.facts w.store b l) b.requirements)
      (hmet : RecordsAdded l now (metRequirements setting.facts w.store b l ++ [o])
        w.store.met met')
      (hend : b.expiry.endOf now = .ok expiresAt)
      (ha : a = ⟨b.id, l, now, expiresAt, setting.tokens w.issued, true⟩)
      (hstore : w'.store = { w.store with
        met := met'
        awards := w.store.awards.insert ⟨b.id, l⟩ a
        badges := w.store.badges.insert b.id b.afterAward })
      (hsent : w'.sent = a.notice b :: w.sent) :
      LearnerEffect setting now b l w w' (.done (.awarded a))

section Steps

variable {setting : Setting} {now : Instant} {s₀ : Ledger} {b : Badge} {l : LearnerId}
  {c : Criterion} {cs : List Criterion} {met : Register (Pair CriterionId LearnerId) MetRecord}
  {n : List Notice} {i : Nat}

theorem tells_requirement (s₀ : Ledger) (honly : setting.faults.OnlyNotices)
    (htotal : setting.facts.Total) (hc : c.isOverall = false) :
    Tells setting (fun s : Ledger => s.manual = s₀.manual) (criterion b l c)
      (.ok (decide (Holds setting.facts s₀ b l c))) := by
  let granted := fun b l r => s₀.manual.contains ⟨b, l, r⟩
  have hgrants : ∀ s : Ledger, s.manual = s₀.manual → Grants granted s := fun s hs b l r => by
    show Except.ok (s.manual.contains ⟨b, l, r⟩, s) = _
    rw [hs]
  obtain ⟨answer, hanswer⟩ := exists_answers Ledger setting.facts granted l
  -- The same answer is found where nothing fails at all, and there it is not a failure.
  have hclean : ((criterion b l c).exec (.clean setting.facts) (.ofStore s₀)).1 =
      .ofExcept (answer c) :=
    (hanswer (.clean setting.facts) FaultPlan.onlyNotices_empty (fun _ _ => rfl) b c hc
      (World.ofStore s₀).scene (hgrants s₀ rfl)).exec_eq.1
  obtain ⟨v, hv, hok⟩ := steady_requirement setting.facts s₀ b l hc
  obtain ⟨a, rfl⟩ := hok htotal
  have hfound := hv.exec_clean (w := World.ofStore s₀) rfl
  have hholds : decide (Holds setting.facts s₀ b l c) = a := by
    rw [Bool.eq_iff_iff, decide_eq_true_iff, Holds, hfound, Ending.ofExcept, Ending.done.injEq]
  have hanswered : answer c = .ok (decide (Holds setting.facts s₀ b l c)) := by
    rw [hfound] at hclean
    rw [hholds]
    cases hc' : answer c <;> rw [hc'] at hclean <;> cases hclean
    rfl
  intro q hq
  rw [← hanswered]
  exact hanswer setting honly (fun _ _ => rfl) b c hc q (hgrants q.store hq)

theorem ends_markMet (l : LearnerId) (now : Instant)
    (met : Register (Pair CriterionId LearnerId) MetRecord) (honly : setting.faults.OnlyNotices)
    (hs₀ : s₀.Sound) (hb : s₀.badges.get? b.id = some b) (hc : c ∈ b.criteria) :
    ∃ added met', Ends setting (call (.markMet (c.met l now))) ⟨{ s₀ with met := met }, n, i⟩
        (.ok added) ⟨{ s₀ with met := met' }, n, i⟩ ∧
      RecordsAdded l now [c] met met' := by
  have hbadge : c.badge = b.id := (hs₀.badge hb).badge_eq c hc
  have hstored : s₀.badges.get? (c.met l now).badge = some b := by rw [Criterion.met, hbadge, hb]
  have hperform := perform_markMet (r := c.met l now) (s := { s₀ with met := met }) hstored
    ⟨c, hc, rfl⟩
  cases hmet : met.contains ⟨c.id, l⟩ with
  | true =>
    simp only [Criterion.met, hmet, if_true] at hperform
    exact ⟨false, met, ends_call honly hperform, .of_contains hmet⟩
  | false =>
    simp only [Criterion.met, hmet, Bool.false_eq_true, if_false] at hperform
    exact ⟨true, _, ends_call honly hperform, .insert (Register.contains_eq_false_iff.1 hmet)⟩

theorem ends_settle (now : Instant) (honly : setting.faults.OnlyNotices)
    (htotal : setting.facts.Total) (hs₀ : s₀.Sound) (hb : s₀.badges.get? b.id = some b)
    (hc : c ∈ b.requirements)
    (hmet : met.contains ⟨c.id, l⟩ = s₀.met.contains ⟨c.id, l⟩) :
    ∃ met', Ends setting (settle b l now c) ⟨{ s₀ with met := met }, n, i⟩
        (.ok (decide (IsMet setting.facts s₀ b l c))) ⟨{ s₀ with met := met' }, n, i⟩ ∧
      RecordsAdded l now ([c].filter fun c => decide (IsMet setting.facts s₀ b l c)) met met' := by
  obtain ⟨hmem, hrole⟩ := Badge.mem_requirements_iff.1 hc
  have hlookup : Ends setting (call (.criterionMet c.id l)) ⟨{ s₀ with met := met }, n, i⟩
      (.ok (met.get? ⟨c.id, l⟩)) ⟨{ s₀ with met := met }, n, i⟩ := ends_call honly rfl
  have hanswer := tells_requirement s₀ (b := b) (l := l) honly htotal hrole
    ⟨{ s₀ with met := met }, n, i⟩ rfl
  by_cases hrecorded : Recorded s₀ l c
  · have hfound : (met.get? ⟨c.id, l⟩).isSome = true := hmet.trans hrecorded
    have hismet : IsMet setting.facts s₀ b l c := .inl hrecorded
    rw [List.filter_singleton, decide_eq_true hismet, cond_true]
    refine ⟨met, .bind hlookup ?_, .of_contains hfound⟩
    rw [if_pos hfound]
    exact .pure true
  · have hnone : ¬ (met.get? ⟨c.id, l⟩).isSome = true := fun h => hrecorded (hmet.symm.trans h)
    by_cases hholds : Holds setting.facts s₀ b l c
    · have hismet : IsMet setting.facts s₀ b l c := .inr hholds
      rw [List.filter_singleton, decide_eq_true hismet, cond_true]
      rw [decide_eq_true hholds] at hanswer
      obtain ⟨added, met', hmark, hadded⟩ := ends_markMet l now met (n := n) (i := i) honly
        hs₀ hb hmem
      refine ⟨met', .bind hlookup ?_, hadded⟩
      rw [if_neg hnone]
      exact .bind hanswer (.bind hmark (.pure true))
    · have hismet : ¬ IsMet setting.facts s₀ b l c := fun h => h.elim hrecorded hholds
      rw [List.filter_singleton, decide_eq_false hismet, cond_false]
      rw [decide_eq_false hholds] at hanswer
      refine ⟨met, .bind hlookup ?_, .nil⟩
      rw [if_neg hnone]
      exact .bind hanswer (.pure false)

/-- Requirements are settled one after the other. What the ledger was when the review began decides
about all of them, since each has a record of its own. -/
theorem ends_settleAll_exact (now : Instant) (honly : setting.faults.OnlyNotices)
    (htotal : setting.facts.Total) (hs₀ : s₀.Sound) (hb : s₀.badges.get? b.id = some b)
    (hcs : ∀ c ∈ cs, c ∈ b.requirements)
    (hnodup : (cs.map (·.id)).Nodup)
    (hmet : ∀ c ∈ cs, met.contains ⟨c.id, l⟩ = s₀.met.contains ⟨c.id, l⟩) :
    ∃ met', Ends setting (settleAll b l now cs) ⟨{ s₀ with met := met }, n, i⟩
        (.ok (cs.filter fun c => decide (IsMet setting.facts s₀ b l c)).length)
        ⟨{ s₀ with met := met' }, n, i⟩ ∧
      RecordsAdded l now (cs.filter fun c => decide (IsMet setting.facts s₀ b l c)) met met' := by
  induction cs generalizing met with
  | nil => exact ⟨met, .pure 0, .nil⟩
  | cons c cs ih =>
    obtain ⟨hc, hrest⟩ := List.forall_mem_cons.1 hcs
    obtain ⟨hmetc, hmetrest⟩ := List.forall_mem_cons.1 hmet
    obtain ⟨hnew, hdistinct⟩ := List.nodup_cons.1 hnodup
    have hapart : ∀ d ∈ cs, c.id ≠ d.id := fun d hd heq => hnew (List.mem_map.2 ⟨d, hd, heq.symm⟩)
    obtain ⟨met₁, hsettle, hadded⟩ := ends_settle now (n := n) (i := i) honly htotal hs₀ hb hc
      hmetc
    -- The record of one requirement does not count for the others.
    have hmet₁ : ∀ d ∈ cs, met₁.contains ⟨d.id, l⟩ = s₀.met.contains ⟨d.id, l⟩ := fun d hd => by
      rw [← hmetrest d hd, Bool.eq_iff_iff, hadded.contains_iff, or_iff_left]
      rintro ⟨d', hd', hid⟩
      rw [List.mem_singleton.1 (List.mem_of_mem_filter hd')] at hid
      exact hapart d hd hid
    obtain ⟨met', hends, hadded'⟩ := ih hrest hdistinct hmet₁
    let p := fun c => decide (IsMet setting.facts s₀ b l c)
    have hsplit : (c :: cs).filter p = [c].filter p ++ cs.filter p := List.filter_append [c] cs
    have hlength : ((c :: cs).filter p).length =
        if p c then (cs.filter p).length + 1 else (cs.filter p).length := by
      rw [List.filter_cons]
      split <;> rfl
    refine ⟨met', ?_, hsplit ▸ hadded.trans hadded' fun d hd e he => ?_⟩
    · rw [hlength]
      exact .bind hsettle (.bind_pure hends)
    · rw [List.mem_singleton.1 (List.mem_of_mem_filter hd)]
      exact hapart e (List.mem_of_mem_filter he)

theorem contains_settled (hs₀ : s₀.Sound) (hb : s₀.badges.get? b.id = some b) {facts : FactSource}
    (hadded : RecordsAdded l now (metRequirements facts s₀ b l) s₀.met met)
    (hc : c ∈ b.requirements) :
    met.contains ⟨c.id, l⟩ = decide (IsMet facts s₀ b l c) := by
  rw [Bool.eq_iff_iff, hadded.contains_iff, decide_eq_true_iff]
  constructor
  · rintro (hrecorded | ⟨d, hd, hid⟩)
    · exact .inl hrecorded
    · obtain ⟨hd, hmet⟩ := List.mem_filter.1 hd
      have hdc : d = c := (hs₀.badge hb).eq_of_id (Badge.mem_requirements_iff.1 hd).1
        (Badge.mem_requirements_iff.1 hc).1 hid
      exact hdc ▸ of_decide_eq_true hmet
  · exact fun h => .inr ⟨c, List.mem_filter.2 ⟨hc, decide_eq_true h⟩, rfl⟩

theorem contents_filter_iff {method : Method} {p : Criterion → Bool} :
    Contents method (cs.filter p) cs ↔ method.verdict (cs.map p) = true := by
  rw [Method.verdict_map_eq_true_iff]
  cases method with
  | all =>
    show cs.filter p = cs ∧ 0 < cs.length ↔ cs ≠ [] ∧ ∀ c ∈ cs, p c = true
    rw [List.filter_eq_self, List.length_pos_iff, and_comm]
  | any =>
    show cs.filter p ≠ [] ↔ cs ≠ [] ∧ ∃ c ∈ cs, p c = true
    simp only [ne_eq, List.filter_eq_nil_iff, not_forall, not_not, exists_prop]
    exact (and_iff_right_of_imp fun ⟨c, hc, _⟩ => List.ne_nil_of_mem hc).symm

theorem ends_overall_exact (honly : setting.faults.OnlyNotices) (hs₀ : s₀.Sound)
    (hb : s₀.badges.get? b.id = some b)
    (hadded : RecordsAdded l now (metRequirements setting.facts s₀ b l) s₀.met met)
    (hc : c.isOverall = true) :
    ∃ v, Ends setting (criterion b l c) ⟨{ s₀ with met := met }, n, i⟩ (.ok v)
        ⟨{ s₀ with met := met }, n, i⟩ ∧
      (v = true ↔ Contents c.method (metRequirements setting.facts s₀ b l) b.requirements) := by
  let s : Ledger := { s₀ with met := met }
  have hs : s.BadgesSound := hs₀.toBadgesSound.of_rows
  have hends := ends_overall (viewable now s) honly (q := ⟨s, n, i⟩) (b := b) (l := l)
    (shownBy_view hs) hc
  have hrecords : (b.requirements.map fun d => s.view.recorded d.id l) =
      b.requirements.map fun d => decide (IsMet setting.facts s₀ b l d) :=
    List.map_congr_left fun d hd => contains_settled hs₀ hb hadded hd
  rw [hrecords] at hends
  exact ⟨_, hends, contents_filter_iff.symm⟩

theorem ends_lockAwarded_exact (honly : setting.faults.OnlyNotices) {s : Ledger}
    (hb : s.badges.get? b.id = some b) :
    Ends setting (lockAwarded b.id) ⟨s, n, i⟩ (.ok ())
      ⟨{ s with badges := s.badges.insert b.id b.afterAward }, n, i⟩ := by
  have hread : Ends setting (Run.perform (.badge b.id)) ⟨s, n, i⟩ (.ok (some b)) ⟨s, n, i⟩ :=
    .perform honly (hb ▸ rfl)
  refine .bind hread ?_
  dsimp only
  by_cases hstatus : b.status = .active
  · rw [if_pos hstatus, Badge.afterAward, if_pos hstatus]
    refine .perform honly ?_
    simp only [Store.perform, Ledger.perform, Ledger.setStatus, hb]
    rfl
  · rw [if_neg hstatus, Badge.afterAward, if_neg hstatus, Register.insert_of_get? hb]
    exact .pure ()

theorem ends_issue_exact (honly : setting.faults.OnlyNotices) {s : Ledger} {a : Award}
    (hb : s.badges.get? b.id = some b) (hnone : s.awards.get? ⟨b.id, l⟩ = none)
    (ha : Award.issue b l now (setting.tokens i) = .ok a) :
    Ends setting (issue b l now) ⟨s, n, i⟩ (.ok (.awarded a))
      ⟨{ s with
          awards := s.awards.insert ⟨b.id, l⟩ a
          badges := s.badges.insert b.id b.afterAward }, a.notice b :: n, i + 1⟩ := by
  obtain ⟨hbadge, hlearner⟩ := Award.key_of_issue ha
  have hperform := perform_insertAward (a := a) (s := s) (b := b) (hbadge ▸ hb)
  rw [hbadge, hlearner, Register.contains_eq_false_iff.2 hnone] at hperform
  have hlock := ends_lockAwarded_exact (n := n) (i := i + 1) honly
    (s := { s with awards := s.awards.insert ⟨b.id, l⟩ a }) hb
  refine .bind .freshToken ?_
  rw [ha]
  exact .bind (ends_call honly hperform) (.bind hlock.attempt (.bind .notify (.pure _)))

end Steps

variable {setting : Setting} {now : Instant} {b : Badge} {l : LearnerId} {w : World Ledger}

theorem exec_call_award (honly : setting.faults.OnlyNotices) (id : BadgeId) :
    (call (.award id l)).exec setting w =
      (.done (w.store.awards.get? ⟨id, l⟩),
        { w with calls := .store (.award id l) :: w.calls }) := by
  rw [call, exec_mapError, exec_perform_of_ok honly rfl]

/-- A learner without an award is reviewed for a badge with an overall criterion. -/
theorem learnerEffect_due (honly : setting.faults.OnlyNotices) (htotal : setting.facts.Total)
    (hs : w.store.Sound) (hb : w.store.badges.get? b.id = some b) (hexpiry : b.expiry.Measurable)
    (hnone : w.store.awards.get? ⟨b.id, l⟩ = none) {o : Criterion} (ho : b.overall? = some o) :
    LearnerEffect setting now b l w ((learner b l now).exec setting w).2
      ((learner b l now).exec setting w).1 := by
  have hnodup := Badge.nodup_requirements ((sound_view hs.toBadgesSound).nodup hb)
  have hoverall : o.isOverall = true := List.find?_some ho
  obtain ⟨met₁, hsettle, hadded⟩ := ends_settleAll_exact now (l := l) (n := w.sent)
    (i := w.issued) honly htotal hs hb (fun _ hc => hc) hnodup fun _ _ => rfl
  obtain ⟨v, hverdict, hv⟩ := ends_overall_exact (n := w.sent) (i := w.issued) honly hs hb hadded
    hoverall
  have hlookup : Store.perform (.award b.id l) w.scene.store = .ok (none, w.scene.store) := by
    rw [← hnone]
    rfl
  cases v with
  | false =>
    obtain ⟨hending, hscene⟩ := (ends_learner_due honly hlookup rfl ho
      (.bind hsettle (.bind hverdict (.pure _)))).exec_eq
    rw [hending]
    exact .pending hnone ho (fun h => Bool.false_ne_true (hv.2 h)) hadded
      (congrArg Scene.store hscene) (congrArg Scene.sent hscene)
  | true =>
    obtain ⟨x, hx⟩ := Expiry.endOf_eq_ok_iff.2 hexpiry
    have hissue : Award.issue b l now (setting.tokens w.issued) =
        .ok ⟨b.id, l, now, x, setting.tokens w.issued, true⟩ :=
      Award.issue_eq_ok_iff.2 ⟨x, hx, rfl⟩
    obtain ⟨_, met₂, hmark, hadded'⟩ := ends_markMet l now met₁ (n := w.sent) (i := w.issued) honly
      hs hb (List.mem_of_find?_eq_some ho)
    have hissued := ends_issue_exact (s := { w.store with met := met₂ }) (n := w.sent) honly hb
      hnone hissue
    obtain ⟨hending, hscene⟩ := (ends_learner_due honly hlookup rfl ho
      (.bind hsettle (.bind hverdict (.bind hmark hissued)))).exec_eq
    rw [hending]
    refine .awarded hnone ho (hv.1 rfl) (hadded.trans hadded' fun c hc d hd heq => ?_) hx rfl
      (congrArg Scene.store hscene) (congrArg Scene.sent hscene)
    -- The overall criterion is none of the requirements that were recorded before it.
    obtain rfl := List.mem_singleton.1 hd
    obtain ⟨hmem, hrole⟩ := Badge.mem_requirements_iff.1 (List.mem_filter.1 hc).1
    obtain rfl := (hs.badge hb).eq_of_id hmem (List.mem_of_find?_eq_some ho) heq
    rw [hoverall] at hrole
    cases hrole

/-- Whatever was done to a ledger, the review of a learner for a badge that was just read from it
has one of the four effects, provided that nothing fails but the delivery of notices. -/
theorem learner_has_effect (ops : List Operation) (setting : Setting) (w : World Ledger)
    (hw : w.store = Store.run Ledger.empty ops) {id : BadgeId} {b : Badge}
    (hb : w.store.badges.get? id = some b) (hexpiry : b.expiry.Measurable)
    (honly : setting.faults.OnlyNotices) (htotal : setting.facts.Total) (l : LearnerId)
    (now : Instant) :
    LearnerEffect setting now b l w ((learner b l now).exec setting w).2
      ((learner b l now).exec setting w).1 := by
  have hs : w.store.Sound := hw ▸ sound_run ops
  have hb' : w.store.badges.get? b.id = some b := by rwa [(hs.badge hb).id_eq]
  cases haward : w.store.awards.get? ⟨b.id, l⟩ with
  | some a =>
    have hexec : (learner b l now).exec setting w = _ :=
      exec_bind_of_done (exec_call_award honly b.id)
    rw [haward] at hexec
    rw [hexec]
    exact .known ⟨a, haward⟩ rfl rfl
  | none =>
    cases ho : b.overall? with
    | none =>
      have hexec : (learner b l now).exec setting w = _ :=
        exec_bind_of_done (exec_call_award honly b.id)
      rw [haward, ho] at hexec
      rw [hexec]
      exact .incomplete haward ho rfl rfl
    | some o => exact learnerEffect_due honly htotal hs hb' hexpiry haward ho

/-- The learner who is connected gets the badge with the review. -/
theorem learner_has_effect_networker :
    let now : Instant := ⟨0, 0, by decide, by decide, by decide, by decide⟩
    let setting : Setting := ⟨connectedLearner.source, .empty, fun _ => "token"⟩
    let w := World.ofStore (Store.run Ledger.empty networkBadge)
    let reviewed := (learner (networker .active) ⟨7⟩ now).exec setting w
    w.store.badges.get? ⟨1⟩ = some (networker .active) ∧
      (networker .active).expiry.Measurable ∧ setting.faults.OnlyNotices ∧ setting.facts.Total ∧
      reviewed.1 = .done (.awarded (networkAward now)) ∧
      LearnerEffect setting now (networker .active) ⟨7⟩ w reviewed.2 reviewed.1 := by
  intro now setting w reviewed
  have hb : w.store.badges.get? ⟨1⟩ = some (networker .active) := by decide +kernel
  have honly : setting.faults.OnlyNotices := FaultPlan.onlyNotices_empty
  have htotal : setting.facts.Total := fun _ => ⟨_, rfl⟩
  exact ⟨hb, trivial, honly, htotal, by decide +kernel,
    learner_has_effect networkBadge setting w rfl hb trivial honly htotal ⟨7⟩ now⟩

end Review

end Badging
