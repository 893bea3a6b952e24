import Badging.Proofs.Store.Lookup

/-!
# Tables refine a ledger

A ledger and the tables that mirror it answer every operation alike and mirror each other again
afterwards, so along a run of any length they never differ by more than what is lost in rows. Two
things are asked of a run, since the tables ask for something else there than the ledger. The tables
take a token only once, so two awards with one token have to be for the same badge and learner. And
the tables look for the criterion of a met record and for its badge one by one, so a record of a
criterion that exists has to name the badge that has it.
-/

namespace Badging

open Tables

/-- What is asked of an operation on a ledger: a met record names the badge of its criterion, and an
award has a token of its own. -/
def Ledger.Admits (s : Ledger) : Operation → Prop
  | .markMet r => ∀ {id b c}, s.badges.get? id = some b → c ∈ b.criteria → c.id = r.criterion →
    c.badge = r.badge
  | .insertAward a => ∀ {k a'}, s.awards.get? k = some a' → a'.token = a.token →
    a'.badge = a.badge ∧ a'.learner = a.learner
  | _ => True

/-- What a ledger and tables make of an operation: answers that agree and states that mirror each
other, or one refusal, which is not that something could not be read. -/
inductive Matched (op : Operation) :
    Except StoreError (op.Answer × Ledger) → Except StoreError (op.Answer × Tables) → Prop
  | answer {a a' : op.Answer} {s : Ledger} {t : Tables} (h : op.Agree (.ok a) (.ok a'))
      (M : Mirrors s t) : Matched op (.ok (a, s)) (.ok (a', t))
  | refusal {e : StoreError} (h : ∀ reason, e ≠ .unavailable reason) :
      Matched op (.error e) (.error e)

namespace Matched

variable {op : Operation}

theorem notFound : Matched op (.error .notFound) (.error .notFound) := by
  refine .refusal fun reason h => ?_
  cases h

theorem locked (id : BadgeId) : Matched op (.error (.locked id)) (.error (.locked id)) := by
  refine .refusal fun reason h => ?_
  cases h

end Matched

namespace Mirrors

variable {s : Ledger} {t : Tables} (M : Mirrors s t)

include M

theorem matched_insertBadge (new : NewBadge) : Matched (.insertBadge new)
    (Ledger.perform (.insertBadge new) s) (Tables.perform (.insertBadge new) t) := by
  have hlegible : (Badge.ofNew ⟨s.lastBadge + 1⟩ new).Legible := fun c hc => by cases hc
  have htables : Tables.perform (.insertBadge new) t = .ok (t.insertBadge new) := rfl
  rw [htables, insertBadge_eq, M.lastBadge]
  refine .answer (.answer (Badge.reread_eq hlegible) (Badge.reread_eq hlegible)) ?_
  exact ⟨M.toMirrorsBadges.insertBadge M.sound.toBadgesSound new, M.toMirrorsRows.of_badges,
    M.sound.insertBadge new⟩

theorem matched_badge (id : BadgeId) : Matched (.badge id)
    (Ledger.perform (.badge id) s) (Tables.perform (.badge id) t) := by
  rw [M.lookup (.badge id) rfl rfl]
  refine .answer ?_ M
  cases hb : s.badges.get? id with
  | none => exact .answer rfl rfl
  | some b =>
    have h := M.legible hb
    have hreread : Operation.reread (.badge id) (some b) = .ok (some b.rebuilt) := by
      show b.reread.map some = _
      rw [Badge.reread_eq h]
      rfl
    have hrebuilt : Operation.reread (.badge id) (some b.rebuilt) = .ok (some b.rebuilt) := by
      show b.rebuilt.reread.map some = _
      rw [Badge.reread_rebuilt h]
      rfl
    exact .answer hreread hrebuilt

theorem matched_badges : Matched .badges (Ledger.perform .badges s) (Tables.perform .badges t) := by
  have hlegible : ∀ b ∈ s.badges.values, b.Legible := fun b hb => by
    obtain ⟨k, hk⟩ := Register.mem_values_iff.1 hb
    exact M.legible hk
  have hreread : s.badges.values.mapM Badge.reread = .ok (s.badges.values.map Badge.rebuilt) :=
    mapM_eq_ok_map fun b hb => Badge.reread_eq (hlegible b hb)
  have hrebuilt : (s.badges.values.map Badge.rebuilt).mapM Badge.reread =
      .ok (s.badges.values.map Badge.rebuilt) := by
    rw [mapM_eq_ok_iff, List.forall₂_map_left_iff, List.forall₂_map_right_iff, List.forall₂_same]
    exact fun b hb => Badge.reread_rebuilt (hlegible b hb)
  rw [M.lookup .badges rfl rfl]
  exact .answer (.answer hreread hrebuilt) M

theorem matched_setStatus (id : BadgeId) (status : Status) : Matched (.setStatus id status)
    (Ledger.perform (.setStatus id status) s) (Tables.perform (.setStatus id status) t) := by
  have hany := M.any_badges M.sound.toBadgesSound id
  simp only [Ledger.perform, Ledger.setStatus, Tables.perform, Tables.setStatus, hany]
  cases hb : s.badges.get? id with
  | none =>
    have hcontains : s.badges.contains id = false := Register.contains_eq_false_iff.2 hb
    rw [hcontains]
    exact .notFound
  | some b =>
    have hcontains : s.badges.contains id = true := Register.contains_eq_true_iff.2 ⟨b, hb⟩
    rw [hcontains]
    exact .answer (.answer rfl rfl) ⟨M.toMirrorsBadges.setStatus M.sound.toBadgesSound hb status,
      M.toMirrorsRows.of_badges, M.sound.setStatus hb status⟩

theorem matched_deleteBadge (id : BadgeId) : Matched (.deleteBadge id)
    (Ledger.perform (.deleteBadge id) s) (Tables.perform (.deleteBadge id) t) := by
  have hbadges := M.sound.toBadgesSound
  have hrows := M.sound.toRowsSound
  have hany := M.any_badges hbadges id
  simp only [Ledger.perform, Ledger.deleteBadge, Tables.perform, Tables.deleteBadge, hany]
  cases hb : s.badges.get? id with
  | none =>
    have hcontains : s.badges.contains id = false := Register.contains_eq_false_iff.2 hb
    rw [hcontains]
    exact .notFound
  | some b =>
    have hcontains : s.badges.contains id = true := Register.contains_eq_true_iff.2 ⟨b, hb⟩
    rw [hcontains]
    -- The tables also remove records by the badge of their criterion, which is the one they name.
    have hmet : ∀ k r, s.met.get? k = some r → decide (r.badge ≠ id) =
        (decide (r.row.badge ≠ id) && !t.belongs r.row.criterion id) := by
      intro k r hr
      by_cases hid : r.badge = id
      · simp [MetRecord.row, hid]
      · have hkept : t.belongs r.criterion id = false := by
          refine Bool.eq_false_iff.2 fun hgone => ?_
          obtain ⟨d, hd, e, he, heq⟩ := (M.belongs_iff hbadges).1 hgone
          obtain ⟨-, d', hd', e', he', heq'⟩ := hrows.met hr
          exact hid (hbadges.owner_unique hd' hd he' he (heq'.trans heq.symm))
        simp [MetRecord.row, hid, hkept]
    refine .answer (.answer rfl rfl) ⟨(M.toMirrorsBadges.deleteBadge hbadges id).of_rows,
      ⟨M.met.filter hmet, M.manual.filter fun k a ha => ?_, M.issued.filter fun k a ha => ?_⟩,
      M.sound.deleteBadge id⟩
    · rw [(hrows.manual ha).1]
      rfl
    · rw [(hrows.awards ha).1]
      rfl

theorem matched_addCriterion (id : BadgeId) (record : Criterion.Record) :
    Matched (.addCriterion id record) (Ledger.perform (.addCriterion id record) s)
      (Tables.perform (.addCriterion id record) t) := by
  have hbadges := M.sound.toBadgesSound
  simp only [Ledger.perform, Ledger.addCriterion, Tables.perform, Tables.addCriterion,
    M.badge?_eq hbadges]
  cases hb : s.badges.get? id with
  | none => exact .notFound
  | some b =>
    simp only [Option.map_some, Badge.prepare_rebuilt (M.legible hb) ⟨s.lastCriterion + 1⟩ ⟨0⟩]
    cases hc : b.prepare ⟨s.lastCriterion + 1⟩ record with
    | error e =>
      refine .refusal fun reason he => ?_
      subst he
      exact Badge.prepare_ne_unavailable hc
    | ok c =>
      obtain ⟨-, hread, -⟩ := Badge.prepare_eq_ok_iff.1 hc
      obtain ⟨hcid, hcbadge⟩ := Criterion.id_of_ofRecord hread
      have hlegible : c.kind.Legible := Criterion.legible_of_ofRecord hread
      have hanswer : Operation.Agree (.addCriterion id record) (.ok c) (.ok c) :=
        .answer (Criterion.rebuild_eq hlegible) (Criterion.rebuild_eq hlegible)
      have hnext := M.toMirrorsBadges.addCriterion hbadges hb hc
      have hsound := M.sound.addCriterion hb hc
      obtain ⟨cid, cbadge, method, description, kind⟩ := c
      obtain ⟨rfl, rfl⟩ : cid = ⟨s.lastCriterion + 1⟩ ∧ cbadge = id :=
        ⟨hcid, hcbadge.trans (hbadges.badge hb).id_eq⟩
      simp only [Except.map, M.lastCriterion]
      exact .answer hanswer ⟨hnext, M.toMirrorsRows.of_badges, hsound⟩

theorem matched_deleteCriterion (id : CriterionId) : Matched (.deleteCriterion id)
    (Ledger.perform (.deleteCriterion id) s) (Tables.perform (.deleteCriterion id) t) := by
  have hbadges := M.sound.toBadgesSound
  simp only [Ledger.perform, Ledger.deleteCriterion, Tables.perform, Tables.deleteCriterion]
  cases hrow : t.criteria.find? (·.id == id) with
  | none =>
    cases howner : s.ownerOf? id with
    | none => exact .notFound
    | some e =>
      obtain ⟨key, b⟩ := e
      obtain ⟨hb, c, hc, hcid⟩ := Ledger.get?_of_ownerOf? howner
      -- A criterion that the ledger finds has a row.
      have hnone := List.find?_eq_none.1 hrow c.row (M.row_mem hb hc)
      exact absurd (beq_iff_eq.2 hcid) hnone
  | some row =>
    obtain ⟨b, hb, c, hc, rfl⟩ := M.exists_criterion (List.mem_of_find?_eq_some hrow)
    have htest := List.find?_some hrow
    have hcid : c.id = id := beq_iff_eq.1 htest
    have howner : s.ownerOf? id = some (c.row.badge, b) := hbadges.ownerOf?_eq hb hc hcid
    simp only [howner, M.badge?_eq hbadges, hb, Option.map_some]
    have hid : b.id = c.row.badge := (hbadges.badge hb).id_eq
    have heditable : b.rebuilt.isEditable = b.isEditable := rfl
    rw [heditable]
    cases hedit : b.isEditable with
    | false =>
      rw [hid]
      exact .locked _
    | true =>
      have hmet : ∀ k r, s.met.get? k = some r →
          decide (k.fst ≠ id) = decide (r.row.criterion ≠ id) := by
        intro k r hr
        rw [(M.sound.met hr).1]
        rfl
      exact .answer (.answer rfl rfl)
        ⟨(M.toMirrorsBadges.deleteCriterion hbadges hb ⟨c, hc, hcid⟩).of_rows,
          ⟨M.met.filter hmet, M.manual, M.issued⟩, M.sound.deleteCriterion hb⟩

theorem matched_criterionMet (c : CriterionId) (l : LearnerId) : Matched (.criterionMet c l)
    (Ledger.perform (.criterionMet c l) s) (Tables.perform (.criterionMet c l) t) := by
  rw [M.lookup (.criterionMet c l) rfl rfl]
  refine .answer (.answer rfl ?_) M
  show Except.ok (Option.map _ (Option.map _ _)) = _
  rw [Option.map_map]
  rfl

theorem matched_metRecords (b : BadgeId) (l : LearnerId) : Matched (.metRecords b l)
    (Ledger.perform (.metRecords b l) s) (Tables.perform (.metRecords b l) t) := by
  rw [M.lookup (.metRecords b l) rfl rfl]
  refine .answer (.answer rfl ?_) M
  show Except.ok (List.map _ (List.map _ _)) = _
  rw [List.map_map]
  rfl

theorem matched_award (b : BadgeId) (l : LearnerId) : Matched (.award b l)
    (Ledger.perform (.award b l) s) (Tables.perform (.award b l) t) := by
  rw [M.lookup (.award b l) rfl rfl]
  refine .answer (.answer rfl ?_) M
  show Except.ok (Option.map _ (Option.map _ _)) = _
  rw [Option.map_map, Award.wholeSeconds_comp]

theorem matched_awards (b : BadgeId) : Matched (.awards b)
    (Ledger.perform (.awards b) s) (Tables.perform (.awards b) t) := by
  rw [M.lookup (.awards b) rfl rfl]
  refine .answer (.answer rfl ?_) M
  show Except.ok (List.map _ (List.map _ _)) = _
  rw [List.map_map, Award.wholeSeconds_comp]

theorem matched_manualExists (b : BadgeId) (l : LearnerId) (o : RoleId) :
    Matched (.manualExists b l o) (Ledger.perform (.manualExists b l o) s)
      (Tables.perform (.manualExists b l o) t) := by
  rw [M.lookup (.manualExists b l o) rfl rfl]
  exact .answer (.answer rfl rfl) M

theorem markMet_of_missing {r : MetRecord} (hc : t.criteria.any (·.id == r.criterion) = false) :
    Ledger.perform (.markMet r) s = .error .notFound ∧
      Tables.perform (.markMet r) t = .error .notFound := by
  constructor
  · simp only [Ledger.perform, Ledger.markMet]
    cases hb : s.badges.get? r.badge with
    | none => rfl
    | some b =>
      have hnot : b.criteria.any (·.id == r.criterion) = false := by
        refine Bool.eq_false_iff.2 fun hsome => ?_
        obtain ⟨c, hc', hid⟩ := List.any_eq_true.1 hsome
        exact M.id_ne_of_any_criteria hc hb hc' (beq_iff_eq.1 hid)
      simp only [hnot]
      rfl
  · have hnone : s.met.contains ⟨r.criterion, r.learner⟩ = false :=
      Register.contains_eq_false_iff.2 (M.sound.not_met r.learner (M.id_ne_of_any_criteria hc))
    have hany := M.any_met M.sound.toRowsSound r.criterion r.learner
    simp [Tables.perform, Tables.markMet, hany, hnone, hc]

theorem matched_markMet {r : MetRecord} (hr : s.Admits (.markMet r)) : Matched (.markMet r)
    (Ledger.perform (.markMet r) s) (Tables.perform (.markMet r) t) := by
  have hbadges := M.sound.toBadgesSound
  cases hc : t.criteria.any (·.id == r.criterion) with
  | false =>
    obtain ⟨hledger, htables⟩ := M.markMet_of_missing hc
    rw [hledger, htables]
    exact .notFound
  | true =>
    -- The tables look for the criterion alone; the ledger finds it in the badge that is named.
    obtain ⟨k, b, c, hb, hc', hid⟩ := M.any_criteria_iff.1 hc
    have hk : k = r.badge := ((hbadges.badge hb).badge_eq c hc').symm.trans (hr hb hc' hid)
    subst hk
    have hany := M.any_met M.sound.toRowsSound r.criterion r.learner
    have hexists : t.badges.any (·.id == r.badge) = true := by
      rw [M.any_badges hbadges]
      exact Register.contains_eq_true_iff.2 ⟨b, hb⟩
    rw [Ledger.perform_markMet hb ⟨c, hc', hid⟩]
    simp only [Tables.perform, Tables.markMet, hany, hc, hexists, Bool.and_self, if_true]
    cases hmet : s.met.contains ⟨r.criterion, r.learner⟩ with
    | true => exact .answer (.answer rfl rfl) M
    | false =>
      have hnew := Register.contains_eq_false_iff.1 hmet
      exact .answer (.answer rfl rfl) ⟨M.toMirrorsBadges.of_rows,
        ⟨M.met.insert hnew r, M.manual, M.issued⟩,
        M.sound.effect (.markMet hb ⟨c, hc', hid⟩ hnew)⟩

theorem matched_recordManual (a : ManualAward) : Matched (.recordManual a)
    (Ledger.perform (.recordManual a) s) (Tables.perform (.recordManual a) t) := by
  have hany := M.any_manual M.sound.toRowsSound a.badge a.recipient a.issuerRole
  simp only [Ledger.perform, Ledger.recordManual, Tables.perform, Tables.recordManual,
    M.badge?_eq M.sound.toBadgesSound, hany]
  cases hb : s.badges.get? a.badge with
  | none =>
    have hcontains : s.badges.contains a.badge = false := Register.contains_eq_false_iff.2 hb
    rw [hcontains]
    exact .notFound
  | some b =>
    have hcontains : s.badges.contains a.badge = true := Register.contains_eq_true_iff.2 ⟨b, hb⟩
    rw [hcontains]
    simp only [Option.map_some, if_true]
    cases hmanual : s.manual.contains ⟨a.badge, a.recipient, a.issuerRole⟩ with
    | true => exact .answer (.answer rfl rfl) M
    | false =>
      have hnew := Register.contains_eq_false_iff.1 hmanual
      exact .answer (.answer rfl rfl) ⟨M.toMirrorsBadges.of_rows,
        ⟨M.met, M.manual.insert hnew a, M.issued⟩, M.sound.effect (.recordManual hb hnew)⟩

theorem matched_insertAward {a : Award} (ha : s.Admits (.insertAward a)) : Matched (.insertAward a)
    (Ledger.perform (.insertAward a) s) (Tables.perform (.insertAward a) t) := by
  have hrows := M.sound.toRowsSound
  have hany : (t.issued.any fun x =>
      x.token == a.token || (x.badge == a.badge && x.learner == a.learner)) =
      s.awards.contains ⟨a.badge, a.learner⟩ := by
    refine M.issued.any_eq fun k x hx => ?_
    rw [Bool.or_eq_true, hrows.award_key a.badge a.learner hx, beq_iff_eq]
    refine or_iff_right_of_imp fun htoken => ?_
    obtain ⟨hbadge, hlearner⟩ := ha hx htoken
    rw [(hrows.awards hx).1, hbadge, hlearner]
  simp only [Ledger.perform, Ledger.insertAward, Tables.perform, Tables.insertAward, hany,
    M.any_badges M.sound.toBadgesSound]
  cases hcontains : s.badges.contains a.badge with
  | false =>
    have hbadge := Register.contains_eq_false_iff.1 hcontains
    have hnone : s.awards.contains ⟨a.badge, a.learner⟩ = false :=
      Register.contains_eq_false_iff.2 (hrows.not_awarded a.learner hbadge)
    rw [hnone]
    exact .notFound
  | true =>
    obtain ⟨b, hb⟩ := Register.contains_eq_true_iff.1 hcontains
    cases hawards : s.awards.contains ⟨a.badge, a.learner⟩ with
    | true => exact .answer (.answer rfl rfl) M
    | false =>
      have hnew := Register.contains_eq_false_iff.1 hawards
      exact .answer (.answer rfl rfl) ⟨M.toMirrorsBadges.of_rows,
        ⟨M.met, M.manual, M.issued.insert hnew a⟩, M.sound.effect (.insertAward hb hnew)⟩

/-- Stores that mirror each other make the same of every operation that is admitted. -/
theorem matched_perform {op : Operation} (hop : s.Admits op) :
    Matched op (Ledger.perform op s) (Tables.perform op t) := by
  cases op with
  | insertBadge new => exact M.matched_insertBadge new
  | badge id => exact M.matched_badge id
  | badges => exact M.matched_badges
  | setStatus id status => exact M.matched_setStatus id status
  | deleteBadge id => exact M.matched_deleteBadge id
  | addCriterion id record => exact M.matched_addCriterion id record
  | deleteCriterion id => exact M.matched_deleteCriterion id
  | criterionMet c l => exact M.matched_criterionMet c l
  | metRecords b l => exact M.matched_metRecords b l
  | markMet r => exact M.matched_markMet hop
  | recordManual a => exact M.matched_recordManual a
  | manualExists b l r => exact M.matched_manualExists b l r
  | award b l => exact M.matched_award b l
  | awards b => exact M.matched_awards b
  | insertAward a => exact M.matched_insertAward hop

end Mirrors

/-- What is asked of a run from an empty store: two awards with one token are for the same badge and
learner, and a met record of a criterion that is there names the badge of the criterion. -/
structure Orderly (ops : List Operation) : Prop where
  tokens : ∀ {a a'}, .insertAward a ∈ ops → .insertAward a' ∈ ops → a.token = a'.token →
    a.badge = a'.badge ∧ a.learner = a'.learner
  owners : ∀ pre r post, ops = pre ++ .markMet r :: post →
    (Store.run Ledger.empty pre).Admits (.markMet r)

theorem Orderly.earlier {ops ops' : List Operation} (h : Orderly (ops ++ ops')) : Orderly ops where
  tokens ha ha' := h.tokens (List.mem_append_left _ ha) (List.mem_append_left _ ha')
  owners pre r post heq := h.owners pre r (post ++ ops') (by simp [heq])

theorem Ledger.Effect.award_stored {op : Operation} {a : op.Answer} {s s' : Ledger}
    (h : Ledger.Effect s op a s') {k : Pair BadgeId LearnerId} {w : Award}
    (hw : s'.awards.get? k = some w) : s.awards.get? k = some w ∨ op = .insertAward w := by
  cases h with
  | idle | insertBadge | setStatus | addCriterion | deleteCriterion | markMet | recordManual =>
    exact .inl hw
  | deleteBadge => exact .inl (Register.get?_filter_eq_some_iff.1 hw).1
  | insertAward =>
    rcases Register.get?_insert_eq_some_iff.1 hw with ⟨-, rfl⟩ | ⟨-, hw⟩
    · exact .inr rfl
    · exact .inl hw

/-- Every award that is stored was inserted on the way. -/
theorem Ledger.inserted_of_stored {ops : List Operation} {k : Pair BadgeId LearnerId} {w : Award}
    (h : (Store.run Ledger.empty ops).awards.get? k = some w) : .insertAward w ∈ ops := by
  induction ops using List.reverseRecOn with
  | nil => cases h
  | append_singleton ops op ih =>
    have hstep : Store.run Ledger.empty (ops ++ [op]) =
        (Store.step op (Store.run Ledger.empty ops)).2 := Store.run_append _ _ _
    rw [hstep, Store.step] at h
    cases hop : Store.perform op (Store.run Ledger.empty ops) with
    | error e =>
      rw [hop] at h
      exact List.mem_append_left _ (ih h)
    | ok p =>
      obtain ⟨a, s'⟩ := p
      rw [hop] at h
      rcases (Ledger.effect_of_perform hop).award_stored h with h | rfl
      · exact List.mem_append_left _ (ih h)
      · exact List.mem_append_right _ List.mem_cons_self

/-- In an orderly run every operation is one that the ledger admits. -/
theorem Orderly.admits {ops : List Operation} {op : Operation} (h : Orderly (ops ++ [op])) :
    (Store.run Ledger.empty ops).Admits op := by
  cases op with
  | markMet r => exact h.owners ops r [] rfl
  | insertAward a =>
    intro k a' ha' htoken
    exact h.tokens (List.mem_append_left _ (Ledger.inserted_of_stored ha'))
      (List.mem_append_right _ List.mem_cons_self) htoken
  | _ => trivial

theorem Matched.step {op : Operation} {s : Ledger} {t : Tables} (M : Mirrors s t)
    (h : Matched op (Store.perform op s) (Store.perform op t)) :
    op.Agree (Store.step op s).1 (Store.step op t).1 ∧
      (∀ reason, (Store.step op t).1 ≠ .error (.unavailable reason)) ∧
      Mirrors (Store.step op s).2 (Store.step op t).2 := by
  unfold Store.step
  generalize Store.perform op s = x at h ⊢
  generalize Store.perform op t = y at h ⊢
  cases h with
  | answer h M' =>
    refine ⟨h, fun reason heq => ?_, M'⟩
    cases heq
  | refusal h => exact ⟨.refusal _, fun reason heq => h reason (Except.error.inj heq), M⟩

theorem Orderly.mirrors {ops : List Operation} (h : Orderly ops) :
    Mirrors (Store.run Ledger.empty ops) (Store.run Tables.empty ops) := by
  induction ops using List.reverseRecOn with
  | nil => exact mirrors_empty
  | append_singleton ops op ih =>
    have M := ih h.earlier
    rw [Store.run_append, Store.run_append]
    exact (Matched.step M (M.matched_perform h.admits)).2.2

/-- At every step of an orderly run a ledger and tables that were empty at first have outcomes that
agree, and the tables are never unable to read a row. -/
theorem tables_refine_ledger {ops pre post : List Operation} {op : Operation} (h : Orderly ops)
    (hops : ops = pre ++ op :: post) :
    op.Agree (Store.step op (Store.run Ledger.empty pre)).1
        (Store.step op (Store.run Tables.empty pre)).1 ∧
      ∀ reason, (Store.step op (Store.run Tables.empty pre)).1 ≠ .error (.unavailable reason) := by
  have hpre : Orderly (pre ++ [op]) := by
    have hall : Orderly (pre ++ [op] ++ post) := by
      rwa [List.append_assoc, List.singleton_append, ← hops]
    exact hall.earlier
  have M := hpre.earlier.mirrors
  obtain ⟨hagree, havailable, -⟩ := Matched.step M (M.matched_perform hpre.admits)
  exact ⟨hagree, havailable⟩

/-- A time with a part below a second. -/
def lateSecond : Instant := ⟨86400, 500000000, by decide, by decide, by decide, by decide⟩

/-- A badge with a date and with a criterion that asks for one activity twice. -/
def datedBadge : List Operation :=
  [.insertBadge ⟨"Reader", .site, .onDate lateSecond⟩,
    .addCriterion ⟨1⟩ ⟨"activity", .all, none, .ofList [("module_07", ""), ("module_7", "")]⟩]

/-- The rows of the first learner who has it. -/
def firstAward : List Operation :=
  [.markMet ⟨⟨1⟩, ⟨1⟩, ⟨5⟩, lateSecond⟩, .insertAward ⟨⟨1⟩, ⟨5⟩, lateSecond, none, "token", true⟩]

theorem orderly_firstAward : Orderly (datedBadge ++ firstAward ++ [.badges]) where
  tokens {a a'} ha ha' _ := by
    simp only [datedBadge, firstAward, List.cons_append, List.nil_append, List.mem_cons,
      reduceCtorEq, Operation.insertAward.injEq, List.not_mem_nil, or_false, false_or] at ha ha'
    rw [ha, ha']
    exact ⟨rfl, rfl⟩
  owners pre r post heq := by
    have hpre : pre = datedBadge ∧ r = ⟨⟨1⟩, ⟨1⟩, ⟨5⟩, lateSecond⟩ := by
      rcases pre with _ | ⟨p₁, _ | ⟨p₂, _ | ⟨p₃, _ | ⟨p₄, _ | ⟨p₅, pre⟩⟩⟩⟩⟩
      · simp [datedBadge, firstAward] at heq
      · simp [datedBadge, firstAward] at heq
      · simp_all [datedBadge, firstAward]
      · simp [datedBadge, firstAward] at heq
      · simp [datedBadge, firstAward] at heq
      · simp [datedBadge, firstAward] at heq
    obtain ⟨rfl, rfl⟩ := hpre
    have hkeys : (Store.run Ledger.empty datedBadge).badges.keys = [⟨1⟩] := by decide +kernel
    intro id b c hb hc _
    have hsound := Ledger.sound_empty.of_reaches (Store.reaches_run Ledger.empty datedBadge)
    have hid : id ∈ (Store.run Ledger.empty datedBadge).badges.keys :=
      Register.mem_keys_iff.2 ⟨b, hb⟩
    rw [hkeys] at hid
    rw [(hsound.badge hb).badge_eq c hc, List.mem_singleton.1 hid]

/-- The badge is listed alike, though the tables keep neither the half second nor the repetition. -/
theorem tables_refine_ledger_first_award :
    Orderly (datedBadge ++ firstAward ++ [.badges]) ∧
      (Store.step .badges (Store.run Ledger.empty (datedBadge ++ firstAward))).1 ≠
        (Store.step .badges (Store.run Tables.empty (datedBadge ++ firstAward))).1 ∧
      Operation.badges.Agree
        (Store.step .badges (Store.run Ledger.empty (datedBadge ++ firstAward))).1
        (Store.step .badges (Store.run Tables.empty (datedBadge ++ firstAward))).1 :=
  ⟨orderly_firstAward, by decide +kernel, (tables_refine_ledger orderly_firstAward rfl).1⟩

end Badging
