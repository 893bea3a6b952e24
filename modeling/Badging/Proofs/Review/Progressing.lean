import Badging.Proofs.Award.Once
import Badging.Proofs.Review.Resolving
import Badging.Proofs.Review.View.Ledger
import Badging.Proofs.Review.View.Tables
import Badging.Proofs.Store.Recorded
import Badging.Review.Progress

/-!
# Progress agrees with reviews

A review finds out row by row which requirements have a met record. Progress reads the award and one
list of met records, and counts those of the requirements that are on the list. Right after a review
the two agree, and from then on the count of progress does not go back while the criteria of the
badge stay as they are.

The list is made by the badge that a record names, and a review goes by the criterion of a record.
So a store may hold records that only the review sees, unless records name the badge of their
criterion. That the count does not go back needs no such condition, as it is about records that are
listed.
-/

namespace Badging

namespace Store

variable {σ : Type} [Store σ]

/-- The award of a badge to a learner that a store has. -/
def award? (s : σ) (b : BadgeId) (l : LearnerId) : Option Award :=
  match perform (.award b l) s with
  | .ok (a, _) => a
  | .error _ => none

def listed (s : σ) (b : BadgeId) (l : LearnerId) : List MetRecord :=
  match perform (.metRecords b l) s with
  | .ok (rs, _) => rs
  | .error _ => []

/-- Whether a store has a met record of a learner for a criterion. -/
def recorded (s : σ) (c : CriterionId) (l : LearnerId) : Bool :=
  match perform (.criterionMet c l) s with
  | .ok (r, _) => r.isSome
  | .error _ => false

/-- The store can be asked how far a learner is. It lists the met records for which `HasRecord`. -/
structure Lists (HasRecord : σ → BadgeId → LearnerId → CriterionId → Prop) (s : σ) : Prop where
  award : ∀ b l, perform (.award b l) s = .ok (award? s b l, s)
  metRecords : ∀ b l, perform (.metRecords b l) s = .ok (listed s b l, s)
  any_listed : ∀ b l c, (listed s b l).any (·.criterion == c) = true ↔ HasRecord s b l c

end Store

namespace Progress

open Run Review

variable {σ : Type} [Store σ] {HasRecord : σ → BadgeId → LearnerId → CriterionId → Prop} {s s' : σ}
  {b : Badge} {l : LearnerId} {setting : Setting}

def stored (s : σ) (b : Badge) (l : LearnerId) : Progress :=
  ofRows b l (Store.award? s b.id l) (Store.listed s b.id l)

theorem exec_look (honly : setting.faults.OnlyNotices) {w : World σ}
    (h : Store.Lists HasRecord w.store) :
    ((look b l).exec setting w).1 = .done (stored w.store b l) := by
  have hends : Ends setting (look b l : Run σ StoreError Progress) w.scene
      (.ok (stored w.store b l)) w.scene :=
    .bind (.perform (q := w.scene) honly (h.award b.id l))
      (.bind (.perform (q := w.scene) honly (h.metRecords b.id l)) (.pure _))
  exact hends.exec_eq.1

theorem criteriaMet_le : (stored s b l).criteriaMet ≤ (stored s b l).criteriaTotal :=
  List.countP_le_length

theorem criteriaMet_eq (h : Store.Lists HasRecord s) {p : Criterion → Bool}
    (hp : ∀ c ∈ b.requirements, HasRecord s b.id l c.id ↔ p c = true) :
    (stored s b l).criteriaMet = b.requirements.countP p :=
  List.countP_congr fun c hc => (h.any_listed b.id l c.id).trans (hp c hc)

/-- The count does not go back if no record of a requirement is lost. -/
theorem criteriaMet_mono (h : Store.Lists HasRecord s) (h' : Store.Lists HasRecord s') {b' : Badge}
    (hid : b'.id = b.id) (hcriteria : b'.criteria = b.criteria)
    (hkept : ∀ c ∈ b.requirements, HasRecord s b.id l c.id → HasRecord s' b.id l c.id) :
    (stored s b l).criteriaMet ≤ (stored s' b' l).criteriaMet := by
  show b.requirements.countP _ ≤ b'.requirements.countP _
  rw [hid, Badge.requirements_congr hcriteria]
  refine List.countP_mono_left fun c hc hlisted => ?_
  rw [h'.any_listed]
  exact hkept c hc ((h.any_listed b.id l c.id).1 hlisted)

/-- What progress is after a review from `s` to `s'`, by how the review ended. -/
def Reflects (s s' : σ) (b : Badge) (l : LearnerId) (p : Progress) : Outcome → Prop
  | .pending met total =>
    p.status = "in_progress" ∧ p.token = none ∧ p.criteriaMet = met ∧ p.criteriaTotal = total
  | .awarded a =>
    p.status = "awarded" ∧ p.token = some a.token ∧
      p.criteriaMet = b.requirements.countP fun c => Store.recorded s' c.id l
  | .alreadyAwarded =>
    p.status = "awarded" ∧ ∃ a, Store.award? s b.id l = some a ∧ p.token = some a.token

theorem status_of_token {p : Progress} {token? : Option String} (h : p.token = token?) :
    p.status = if token?.isSome then "awarded" else "in_progress" := by
  rw [status, h]

section Viewed

variable {now : Instant} {Shown : View → σ → Prop} {Taken : σ → String → Prop} {V : View}

theorem recorded_eq (K : Viewable now Shown Taken) (hshown : Shown V s) (c : CriterionId)
    (l : LearnerId) : Store.recorded s c l = V.recorded c l := by
  obtain ⟨r, hop, hr⟩ := K.criterionMet c l hshown
  rw [Store.recorded, hop]
  exact hr

theorem isSome_award? (K : Viewable now Shown Taken) (hshown : Shown V s) (id : BadgeId)
    (l : LearnerId) : (Store.award? s id l).isSome = V.awarded id l := by
  obtain ⟨a, hop, ha⟩ := K.award id l hshown
  rw [Store.award?, hop]
  exact ha

theorem exists_after_learner (K : Viewable now Shown Taken) (honly : setting.faults.OnlyNotices)
    {w w' : World σ} {outcome : Outcome} (hshown : Shown V w.store) (hb : V.Knows b)
    (hexpiry : b.expiry.Measurable) (hfresh : ¬ Taken w.store (setting.tokens w.issued))
    (hexec : (Review.learner b l now).exec setting w = (.done outcome, w')) :
    ∃ answer V' a, Shown V' w'.store ∧ V'.Knows b ∧
      V'.standing b.id l = (V.standing b.id l).after (resolve answer b (V.standing b.id l)) ∧
      (resolve answer b (V.standing b.id l)).decision.outcome a = .ok outcome ∧
      ((resolve answer b (V.standing b.id l)).AtRest → w'.store = w.store) := by
  obtain ⟨answer, hanswer⟩ := exists_answers σ setting.facts V.granted l
  have hresolves := resolves_learner (q := w.scene) K honly hshown hb hexpiry
    (hanswer setting honly fun _ _ => rfl)
  obtain ⟨v, V', q', hends, hshown', hleads, -, hcarried⟩ := hresolves
  obtain ⟨⟨a, -, rfl⟩, rfl, -, hstill⟩ := hcarried.resolve_right fun h => hfresh h.2.2
  obtain ⟨hended, rfl⟩ := hends.exec_eq
  rw [hexec] at hended hshown' hstill
  refine ⟨answer, _, a, hshown', hleads.knows hb, View.standing_after, ?_, fun hrest =>
    congrArg Scene.store (hstill hrest)⟩
  revert hended
  cases (resolve answer b (V.standing b.id l)).decision <;> intro hended <;> cases hended <;> rfl

/-- Progress reflects a review of a learner, if what is listed of the requirements is what the view
shows. -/
theorem reflects_learner (K : Viewable now Shown Taken) (honly : setting.faults.OnlyNotices)
    (hrecorded : ∀ {V s} {b : Badge} {c : Criterion} (l : LearnerId), Shown V s → V.Knows b →
      c ∈ b.criteria → (HasRecord s b.id l c.id ↔ V.recorded c.id l = true))
    {w w' : World σ} {outcome : Outcome} (hshown : Shown V w.store) (hb : V.Knows b)
    (hexpiry : b.expiry.Measurable) (hfresh : ¬ Taken w.store (setting.tokens w.issued))
    (hexec : (Review.learner b l now).exec setting w = (.done outcome, w'))
    (hlists : Store.Lists HasRecord w'.store)
    (haward : ∀ a, outcome = .awarded a → ∃ a', Store.award? w'.store b.id l = some a' ∧
      a'.token = a.token) :
    Reflects w.store w'.store b l (stored w'.store b l) outcome := by
  obtain ⟨answer, V', a, hshown', hb', hstanding, houtcome, hstill⟩ :=
    exists_after_learner K honly hshown hb hexpiry hfresh hexec
  -- The count of progress is that of the records in the view after the review.
  have hcount : (stored w'.store b l).criteriaMet =
      b.requirements.countP fun c => V'.recorded c.id l :=
    criteriaMet_eq hlists fun c hc =>
      hrecorded l hshown' hb' (Badge.mem_requirements_iff.1 hc).1
  cases hdecision : (resolve answer b (V.standing b.id l)).decision with
  | failed e =>
    rw [hdecision] at houtcome
    cases houtcome
  | known =>
    rw [hdecision] at houtcome
    cases houtcome
    obtain ⟨hawarded, hrest⟩ := resolve_of_known hdecision
    obtain ⟨a, ha⟩ := Option.isSome_iff_exists.1 ((isSome_award? K hshown b.id l).trans hawarded)
    have htoken : (stored w'.store b l).token = some a.token := by
      rw [hstill hrest]
      exact congrArg (Option.map _) ha
    exact ⟨status_of_token htoken, a, ha, htoken⟩
  | pending met total =>
    rw [hdecision] at houtcome
    cases houtcome
    obtain ⟨hawarded, rfl, rfl⟩ :=
      resolve_of_pending ((K.sound hshown).nodup_of_knows hb) hdecision
    have hawarded' : V'.awarded b.id l = false := by
      have hstood := congrArg Standing.awarded hstanding
      rw [Standing.after, hawarded, hdecision] at hstood
      exact hstood
    have hnone : Store.award? w'.store b.id l = none := by
      rw [← Option.not_isSome_iff_eq_none, isSome_award? K hshown' b.id l, hawarded']
      exact Bool.false_ne_true
    have htoken : (stored w'.store b l).token = none := congrArg (Option.map _) hnone
    refine ⟨status_of_token htoken, htoken, hcount.trans ?_, rfl⟩
    exact congrArg (fun st : Standing => b.requirements.countP fun c => st.recorded c.id) hstanding
  | granted =>
    rw [hdecision] at houtcome
    cases houtcome
    obtain ⟨a', ha', htoken⟩ := haward a rfl
    have htoken' : (stored w'.store b l).token = some a.token := by
      rw [← htoken]
      exact congrArg (Option.map _) ha'
    refine ⟨status_of_token htoken', htoken', hcount.trans ?_⟩
    simp only [recorded_eq K hshown']

end Viewed

end Progress

namespace Ledger

variable {s : Ledger} {id : BadgeId} {l : LearnerId} {d : Criterion}

theorem lists (s : Ledger) : Store.Lists HasRecord s where
  award _ _ := rfl
  metRecords _ _ := rfl
  any_listed b l c := by
    show (s.metRecords b l).any _ = true ↔ _
    simp only [metRecords, List.any_filter, List.any_eq_true, Register.mem_values_iff,
      Bool.and_eq_true, beq_iff_eq]
    constructor
    · rintro ⟨r, ⟨k, hr⟩, ⟨hb, hl⟩, hc⟩
      exact ⟨k, r, hr, hb, hl, hc⟩
    · rintro ⟨k, r, hr, hb, hl, hc⟩
      exact ⟨r, ⟨k, hr⟩, ⟨hb, hl⟩, hc⟩

theorem Sound.hasRecord_iff (hs : s.Sound) (hd : s.HasCriterion id d) :
    s.HasRecord id l d.id ↔ s.met.contains ⟨d.id, l⟩ = true := by
  rw [Register.contains_eq_true_iff]
  constructor
  · rintro ⟨k, r, hr, -, rfl, hc⟩
    exact ⟨r, by rw [← hc, ← (hs.met hr).1, hr]⟩
  · rintro ⟨r, hr⟩
    obtain ⟨hk, b, hb, c, hc, hid⟩ := hs.met hr
    obtain ⟨hcriterion, hlearner⟩ := Pair.mk.inj hk
    obtain ⟨b', hb', hd⟩ := hd
    exact ⟨_, r, hr, hs.owner_unique hb hb' hc hd (hid.trans hcriterion.symm), hlearner.symm,
      hcriterion.symm⟩

theorem award?_of_won {w : World Ledger} (hs : w.store.Sound) {t : Turn} {a : Award}
    (h : t.won? w = some a) : ∃ a', Store.award? (t.next w).store a.badge a.learner = some a' ∧
      a'.token = a.token := by
  have hrow : ((t.next w).store.awards.get? ⟨a.badge, a.learner⟩).toList = [a] :=
    (awardLaws.of_won hs h).2
  exact ⟨a, Option.toList_eq_singleton_iff.1 hrow, rfl⟩

/-- A ledger stays sound while reviews write to it. -/
theorem viewable_of_sound (now : Instant) (s₀ : Ledger) :
    Review.Viewable now (fun V s => ShownBy now s₀ V s ∧ s.Sound) fun _ _ => False :=
  (viewable now s₀).and (fun _ hs _ _ hop => hs.effect (effect_of_perform hop))
    (fun hs hop => hs.effect (effect_of_perform hop))
    fun hs hop => hs.effect (effect_of_perform hop)

end Ledger

namespace Tables

variable {s : Ledger} {t : Tables} {id : BadgeId} {l : LearnerId} {d : Criterion}

/-- The rows for met records name the badge of their criterion. -/
def NamesOwners (t : Tables) : Prop :=
  ∀ r ∈ t.met, ∀ k ∈ t.criteria, k.id = r.criterion → k.badge = r.badge

instance (t : Tables) : Decidable t.NamesOwners :=
  inferInstanceAs
    (Decidable (∀ r ∈ t.met, ∀ k ∈ t.criteria, k.id = r.criterion → k.badge = r.badge))

theorem Written.exists_metRecords (h : Written t) (b : BadgeId) (l : LearnerId) :
    ∃ rs, Store.perform (.metRecords b l) t = .ok (rs, t) ∧
      ∀ c, rs.any (·.criterion == c) = true ↔ t.HasRecord b l c := by
  let rows := orderBy (·.criterion.val) (t.met.filter fun r => r.badge == b && r.learner == l)
  have hmem : ∀ {r}, r ∈ rows ↔ r ∈ t.met ∧ r.badge = b ∧ r.learner = l := fun {r} => by
    rw [(orderBy_perm _).mem_iff, List.mem_filter, Bool.and_eq_true, beq_iff_eq, beq_iff_eq]
  obtain ⟨rs, hrs, hread⟩ : ∃ rs, rows.mapM MetRow.read = .ok rs ∧
      List.Forall₂ (fun r m => m.criterion = r.criterion) rows rs :=
    exists_mapM_eq_ok fun r hr => by
      obtain ⟨m, rfl⟩ := h.met r (hmem.1 hr).1
      exact ⟨m.wholeSeconds, MetRow.read_row m, rfl⟩
  refine ⟨rs, congrArg (Except.map (·, t)) hrs, fun c => ?_⟩
  simp only [List.any_eq_true, beq_iff_eq]
  constructor
  · rintro ⟨m, hm, rfl⟩
    obtain ⟨r, hr, hcriterion⟩ := forall₂_mem_right hread hm
    obtain ⟨hr, hb, hl⟩ := hmem.1 hr
    exact ⟨r, hr, hb, hl, hcriterion.symm⟩
  · rintro ⟨r, hr, hb, hl, rfl⟩
    exact forall₂_mem_left hread (hmem.2 ⟨hr, hb, hl⟩)

theorem Written.lists (h : Written t) : Store.Lists HasRecord t where
  award b l := by
    obtain ⟨a, ha, -⟩ := h.award? b l
    have hop : Store.perform (.award b l) t = .ok (a, t) := congrArg (Except.map (·, t)) ha
    rw [Store.award?, hop]
  metRecords b l := by
    obtain ⟨rs, hop, -⟩ := h.exists_metRecords b l
    rw [Store.listed, hop]
  any_listed b l c := by
    obtain ⟨rs, hop, hany⟩ := h.exists_metRecords b l
    rw [Store.listed, hop]
    exact hany c

theorem HasBadges.hasRecord_iff (M : HasBadges s t) (hnamed : t.NamesOwners)
    (hd : s.HasCriterion id d) : t.HasRecord id l d.id ↔
      (t.met.any fun r => r.criterion == d.id && r.learner == l) = true := by
  simp only [List.any_eq_true, Bool.and_eq_true, beq_iff_eq]
  constructor
  · rintro ⟨r, hr, -, hl, hc⟩
    exact ⟨r, hr, hc, hl⟩
  · rintro ⟨r, hr, hc, hl⟩
    obtain ⟨b, hb, hd⟩ := hd
    have howner : d.badge = r.badge := hnamed r hr d.row (M.row_mem hb hd) hc.symm
    exact ⟨r, hr, by rw [← howner, (M.sound.badge hb).badge_eq d hd], hl, hc⟩

theorem award?_of_won {w : World Tables} (hs : w.store.BadgesNumbered) {t : Turn} {a : Award}
    (h : t.won? w = some a) : ∃ a', Store.award? (t.next w).store a.badge a.learner = some a' ∧
      a'.token = a.token := by
  have hrow : (t.next w).store.issuedTo a.badge a.learner = [a.row] := (awardLaws.of_won hs h).2
  refine ⟨a.wholeSeconds, ?_, rfl⟩
  have hfound : ((t.next w).store.issued.find?
      fun r => r.badge == a.badge && r.learner == a.learner) = some a.row := by
    rw [← List.head?_filter]
    exact congrArg List.head? hrow
  have hop : Store.perform (.award a.badge a.learner) (t.next w).store =
      .ok (some a.wholeSeconds, (t.next w).store) := by
    show ((t.next w).store.award? a.badge a.learner).map _ = _
    rw [Tables.award?, hfound]
    simp only [IssuedRow.read_row]
    rfl
  rw [Store.award?, hop]

/-- The tables name the badges of criteria as long as reviews write to them. -/
theorem viewable_of_namesOwners (now : Instant) :
    Review.Viewable now (fun V t => ShownBy V t ∧ t.NamesOwners) Taken := by
  refine (viewable now).and (fun {V t t' b c l added} hshown hnamed hb hc hop => ?_)
    (fun hnamed hop => ?_) fun hnamed hop => ?_
  · cases effect_of_perform hop with
    | idle => exact hnamed
    | markMet =>
      intro r hr k hk hid
      rcases List.mem_append.1 hr with hr | hr
      · exact hnamed r hr k hk hid
      · obtain rfl : r = (c.met l now).row := List.mem_singleton.1 hr
        obtain ⟨s, M, -, rfl⟩ := hshown
        obtain ⟨d, hd, hcriteria⟩ := exists_stored hb
        obtain ⟨c', hc', hid'⟩ := hcriteria c hc
        obtain ⟨d', hd', e, he, rfl⟩ := M.exists_criterion hk
        have howner := M.sound.owner_unique hd' hd he hc' (hid.trans hid'.symm)
        exact howner.trans (M.sound_view.badge_eq_of_knows hb hc).symm
  · cases effect_of_perform hop with
    | idle | setStatus => exact hnamed
  · cases effect_of_perform hop with
    | idle | insertAward => exact hnamed

end Tables

namespace Review

variable {σ : Type} [Store σ]

/-- On a store in the state `s` progress agrees with reviews. -/
structure ProgressAgrees (Taken : σ → String → Prop) (s : σ) : Prop where
  /-- Right after a review that ended, progress says how. -/
  reflects : ∀ {id : BadgeId} {b : Badge}, Store.badge? s id = some b → b.expiry.Measurable →
    ∀ (l : LearnerId) (now : Instant) {setting : Setting} {w w' : World σ} {outcome : Outcome},
      w.store = s → setting.faults.OnlyNotices → ¬ Taken s (setting.tokens w.issued) →
        (learner b l now).exec setting w = (.done outcome, w') →
          ∃ p, ((Progress.look b l).exec setting w').1 = .done p ∧
            p.Reflects s w'.store b l outcome
  /-- Whatever is done and reviewed next, no more requirements are met than there are. -/
  bounded : ∀ {w : World σ}, w.store = s → ∀ (past : List Turn) (b : Badge) (l : LearnerId)
    {setting : Setting}, setting.faults.OnlyNotices →
      ∃ p, ((Progress.look b l).exec setting (w.after past)).1 = .done p ∧
        p.criteriaMet ≤ p.criteriaTotal
  /-- Between two moments at which a badge has the same criteria, such as the ends of two reviews,
  no requirement is lost. -/
  growing : ∀ {w : World σ}, w.store = s →
    ∀ (past future : List Turn) {id : BadgeId} {b b' : Badge},
      Store.badge? (w.after past).store id = some b →
        Store.badge? (w.after (past ++ future)).store id = some b' → b'.criteria = b.criteria →
          ∀ (l : LearnerId) {one two : Setting}, one.faults.OnlyNotices → two.faults.OnlyNotices →
            ∃ p p', ((Progress.look b l).exec one (w.after past)).1 = .done p ∧
              ((Progress.look b' l).exec two (w.after (past ++ future))).1 = .done p' ∧
                p.criteriaMet ≤ p'.criteriaMet

section Agreeing

variable {R : Ledger → σ → Prop} {form : Badge → Badge}
  {HasRecord : σ → BadgeId → LearnerId → CriterionId → Prop} {Shown : Instant → View → σ → Prop}
  {Taken : σ → String → Prop} {s : σ} {V : View}

/-- Progress agrees with reviews of a store that is seen in a view, lists its records and keeps
them. -/
theorem progressAgrees (C : FaithfulCatalog R form) (hkeeps : Store.KeepsRecords R HasRecord)
    (K : ∀ now, Viewable now (Shown now) Taken)
    (hrecorded : ∀ {now V s} {b : Badge} {c : Criterion} (l : LearnerId), Shown now V s →
      V.Knows b → c ∈ b.criteria → (HasRecord s b.id l c.id ↔ V.recorded c.id l = true))
    (hlists : ∀ {t}, Store.Reaches Store.Anything s t → Store.Lists HasRecord t)
    (hwon : ∀ {w : World σ} {t : Turn} {a : Award}, w.store = s → t.won? w = some a →
      ∃ a', Store.award? (t.next w).store a.badge a.learner = some a' ∧ a'.token = a.token)
    {r : Ledger} (hr : R r s) (hshown : ∀ now, Shown now V s) : ProgressAgrees Taken s where
  reflects {id b} hb hexpiry l now {setting w w' outcome} hw honly hfresh hexec := by
    subst hw
    have hknows : V.Knows b := by
      have hop := (K now).badge id (hshown now)
      rw [Store.badge?, hop] at hb
      exact ((K now).sound (hshown now)).knows hb
    let t : Turn := ⟨setting, .review b l now⟩
    have hnext : t.next w = w' := congrArg Prod.snd hexec
    have hreach : Store.Reaches Store.Anything w.store w'.store := hnext ▸ t.reaches w
    refine ⟨_, Progress.exec_look honly (hlists hreach), Progress.reflects_learner (K now) honly
      hrecorded (hshown now) hknows hexpiry hfresh hexec (hlists hreach) fun a ha => ?_⟩
    subst ha
    have hturn : t.won? w = some a := by
      simp only [t, Turn.won?, hexec]
    obtain ⟨hbadge, hlearner, -⟩ := Turn.won_review hturn
    have hstored := hwon rfl hturn
    rwa [hnext, hbadge, hlearner] at hstored
  bounded {w} hw past b l {setting} honly := by
    subst hw
    exact ⟨_, Progress.exec_look honly (hlists (Turn.reaches_after w past)),
      Progress.criteriaMet_le⟩
  growing {w} hw past future {id b b'} hb hb' hcriteria l {one two} hone htwo := by
    subst hw
    have hpast := Turn.reaches_after w past
    rw [World.after_append] at hb' ⊢
    have hfuture := Turn.reaches_after (w.after past) future
    have hlists₁ := hlists hpast
    have hlists₂ := hlists (hpast.trans hfuture)
    refine ⟨_, _, Progress.exec_look hone hlists₁, Progress.exec_look htwo hlists₂, ?_⟩
    obtain ⟨r₁, hr₁⟩ := C.exists_of_reaches hr hpast
    obtain ⟨r₂, hr₂⟩ := C.exists_of_reaches hr₁ hfuture
    -- Both copies of the badge have the identity under which they were read.
    have hid : ∀ {r t b}, R r t → Store.badge? t id = some b → b.id = id := fun hr hb => by
      obtain ⟨d, hd, rfl⟩ := C.exists_of_badge? hr hb
      rw [C.id_form, ((C.sound hr).badge hd).id_eq]
    have hids := hid hr₁ hb
    refine Progress.criteriaMet_mono hlists₁ hlists₂ ((hid hr₂ hb').trans hids.symm) hcriteria
      fun c hc hrecord => ?_
    have hmem := (Badge.mem_requirements_iff.1 hc).1
    rw [hids] at hrecord ⊢
    exact C.hasRecord_of_owns hkeeps hfuture hr₁ hb hb' ⟨c, hmem, rfl⟩
      ⟨c, hcriteria ▸ hmem, rfl⟩ hrecord

end Agreeing

/-- On a ledger, whatever was done to it, and on tables whose met records name the badge of their
criterion, progress agrees with reviews. -/
theorem progress_agrees_with_reviews (ops : List Operation) :
    ProgressAgrees (fun _ _ => False) (Store.run Ledger.empty ops) ∧
      ((Store.run Tables.empty ops).NamesOwners →
        ProgressAgrees Tables.Taken (Store.run Tables.empty ops)) := by
  constructor
  · have hsound := Ledger.sound_run ops
    refine progressAgrees (V := (Store.run Ledger.empty ops).view) Ledger.faithfulCatalog
      Ledger.keepsRecords (fun now => Ledger.viewable_of_sound now (Store.run Ledger.empty ops))
      (fun {now V s b c} l hshown hb hc => ?_) (fun _ => Ledger.lists _) (fun hw h => ?_)
      ⟨rfl, hsound⟩ fun now => ⟨Ledger.shownBy_view hsound.toBadgesSound, hsound⟩
    · obtain ⟨⟨rfl, -⟩, hs⟩ := hshown
      obtain ⟨d, hd, hlock⟩ := View.knows_iff.1 hb
      exact hs.hasRecord_iff ⟨d, hd, criteria_of_lock hlock ▸ hc⟩
    · exact Ledger.award?_of_won (hw ▸ hsound) h
  · intro hnamed
    have hreach := Store.reaches_run Tables.empty ops
    obtain ⟨V, s, M, W, rfl⟩ := Tables.exists_shownBy hreach
    refine progressAgrees Tables.faithfulCatalog Tables.keepsRecords Tables.viewable_of_namesOwners
      (fun {now V t b c} l hshown hb hc => ?_) (fun h => (W.of_reaches h).lists) (fun hw h => ?_) M
      fun now => ⟨⟨s, M, W, rfl⟩, hnamed⟩
    · obtain ⟨⟨s', M', -, rfl⟩, hnamed'⟩ := hshown
      obtain ⟨d, hd, hcriteria⟩ := Tables.exists_stored hb
      obtain ⟨c', hc', hid⟩ := hcriteria c hc
      rw [← hid]
      exact M'.hasRecord_iff hnamed' ⟨d, hd, hc'⟩
    · refine Tables.award?_of_won ?_ h
      rw [hw]
      exact Tables.awardLaws.inv_of_reaches (fun _ hr => (List.not_mem_nil hr).elim) hreach

/-- The operations of `networkBadge`, with a criterion that asks for a second network. -/
def twoNetworksBadge : List Operation :=
  networkBadge.dropLast ++
    [.addCriterion ⟨1⟩ ⟨"social", .all, none, .ofList [("social_chat", "")]⟩,
      .setStatus ⟨1⟩ .active]

/-- The badge that `twoNetworksBadge` makes. -/
def networkerOfTwo : Badge :=
  { networker .active with
    criteria := (networker .active).criteria ++ [⟨⟨3⟩, ⟨1⟩, .all, none, .social ["chat"]⟩] }

/-- The learner is connected to one of the two networks, so one of two requirements is met. -/
theorem progress_agrees_with_reviews_networker :
    let now : Instant := ⟨0, 0, by decide, by decide, by decide, by decide⟩
    let setting := Setting.clean connectedLearner.source
    let tables := Store.run Tables.empty twoNetworksBadge
    (tables.NamesOwners ∧ Store.badge? tables ⟨1⟩ = some networkerOfTwo ∧
        networkerOfTwo.expiry.Measurable ∧ setting.faults.OnlyNotices ∧
        ¬ tables.Taken (setting.tokens 0)) ∧
      ∃ w' p, (learner networkerOfTwo ⟨7⟩ now).exec setting (.ofStore tables) =
          (.done (.pending 1 2), w') ∧
        ((Progress.look networkerOfTwo ⟨7⟩).exec setting w').1 = .done p ∧
          p.status = "in_progress" ∧ p.token = none ∧ p.criteriaMet = 1 ∧ p.criteriaTotal = 2 := by
  intro now setting tables
  have hnamed : tables.NamesOwners := by decide +kernel
  have hbadge : Store.badge? tables ⟨1⟩ = some networkerOfTwo := by decide +kernel
  have hexpiry : networkerOfTwo.expiry.Measurable := by decide +kernel
  have hfresh : ¬ tables.Taken (setting.tokens 0) := by
    have hissued : tables.issued = [] := by decide +kernel
    rintro ⟨r, hr, -⟩
    rw [hissued] at hr
    cases hr
  refine ⟨⟨hnamed, hbadge, hexpiry, FaultPlan.onlyNotices_empty, hfresh⟩, ?_⟩
  have hdone : ((learner networkerOfTwo ⟨7⟩ now).exec setting (.ofStore tables)).1 =
      .done (.pending 1 2) := by decide +kernel
  obtain ⟨w', hexec⟩ : ∃ w', (learner networkerOfTwo ⟨7⟩ now).exec setting (.ofStore tables) =
      (.done (.pending 1 2), w') := by
    generalize (learner networkerOfTwo ⟨7⟩ now).exec setting (.ofStore tables) = x at hdone ⊢
    exact ⟨x.2, Prod.ext hdone rfl⟩
  have hagrees := (progress_agrees_with_reviews twoNetworksBadge).2 hnamed
  obtain ⟨p, hp, hreflects⟩ := hagrees.reflects hbadge hexpiry ⟨7⟩ now rfl
    FaultPlan.onlyNotices_empty hfresh hexec
  exact ⟨w', p, hexec, hp, hreflects⟩

end Review

end Badging
