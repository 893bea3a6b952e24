import Badging.Proofs.Review.Carrying
import Badging.Proofs.Review.View.Ledger
import Badging.Proofs.Review.View.Tables

/-!
# A pass that is repeated

A pass brings every review of its agenda to rest. None of them can become due again, since a review
at rest stays at rest whatever else is reviewed, and reviews neither add badges nor change whom they
are reviewed for. So a second pass finds nothing to write. It reports what the first one did, except
that it issues no awards.
-/

namespace Badging

namespace Review

open Run

def Report.withoutAwards (r : Report) : Report := { r with awardsIssued := 0 }

@[simp] theorem Report.withoutAwards_add (r s : Report) :
    (r + s).withoutAwards = r.withoutAwards + s.withoutAwards := rfl

theorem Decision.report_again (p : Badge × LearnerId) (d : Decision) :
    d.again.report p = (d.report p).withoutAwards := by
  cases d <;> rfl

theorem Decision.isGranted_again (d : Decision) : d.again.isGranted = false := by
  cases d <;> rfl

namespace View

variable {V V' W : View} {answers : LearnerId → Criterion → Except ReviewError Bool}
  {p : Badge × LearnerId} {ps : List (Badge × LearnerId)}
  {es : List (Report × List (Badge × LearnerId))}

/-- What is at rest in `V` is at rest in `W`, and comes to the same. -/
def Retains (answers : LearnerId → Criterion → Except ReviewError Bool) (V W : View) : Prop :=
  ∀ p, V.Knows p.1 → (V.resolution answers p).AtRest →
    W.resolution answers p = V.resolution answers p

theorem Leads.map_lock_values (h : V.Leads W) :
    W.badges.values.map Badge.lock = V.badges.values.map Badge.lock := by
  have heq := congrArg Register.values h.locked
  rwa [View.locked, View.locked, Register.values_mapValues, Register.values_mapValues] at heq

theorem Leads.measurable (h : V.Leads W) (hV : ∀ b ∈ V.badges.values, b.expiry.Measurable) :
    ∀ b ∈ W.badges.values, b.expiry.Measurable := fun b hb => by
  have hmem := List.mem_map_of_mem (f := Badge.lock) hb
  rw [h.map_lock_values] at hmem
  obtain ⟨d, hd, hlock⟩ := List.mem_map.1 hmem
  exact expiry_of_lock hlock ▸ hV d hd

theorem Retains.refl : Retains answers V V := fun _ _ _ => rfl

theorem Retains.trans (hleads : V.Leads V') (h : Retains answers V V')
    (h' : Retains answers V' W) : Retains answers V W := fun p hp hrest => by
  have heq := h p hp hrest
  rw [h' p (hleads.knows hp) (heq ▸ hrest), heq]

theorem retains_carry (hV : V.Sound) (hps : ∀ p ∈ ps, V.Knows p.1) :
    Retains answers V (V.carry answers ps) := by
  induction ps generalizing V with
  | nil => exact .refl
  | cons p ps ih =>
    have hfirst : Retains answers V (V.review answers p) := fun p' hp' hrest =>
      resolution_review_of_atRest hV (hps p List.mem_cons_self) hp' hrest
    exact hfirst.trans leads_review (ih (hV.leads leads_review) fun p' hp' =>
      leads_review.knows (hps p' (List.mem_cons_of_mem p hp')))

/-- Reviews that were carried out are at rest, and report what they did, without awards. -/
theorem settled_of_retains (hV : V.Sound) (hps : ∀ p ∈ ps, V.Knows p.1)
    (hW : Retains answers (V.carry answers ps) W) :
    (∀ p ∈ ps, (W.resolution answers p).AtRest) ∧
      W.tally answers ps = (V.tally answers ps).withoutAwards := by
  induction ps generalizing V with
  | nil => exact ⟨fun p hp => (List.not_mem_nil hp).elim, rfl⟩
  | cons p ps ih =>
    have hp := hps p List.mem_cons_self
    have hleads : V.Leads (V.review answers p) := leads_review
    have hV' := hV.leads hleads
    have hps' : ∀ p' ∈ ps, (V.review answers p).Knows p'.1 := fun p' hp' =>
      hleads.knows (hps p' (List.mem_cons_of_mem p hp'))
    obtain ⟨hrest, htally⟩ := ih hV' hps' hW
    -- The first review is at rest at once, and stays so during the others.
    have hself : (V.review answers p).resolution answers p =
        ⟨(V.resolution answers p).decision.again, []⟩ := resolution_review_self hV hp
    have hfirst : W.resolution answers p = ⟨(V.resolution answers p).decision.again, []⟩ := by
      rw [← hself]
      exact (retains_carry hV' hps').trans leads_carry hW p (hleads.knows hp)
        (hself ▸ ⟨rfl, Decision.isGranted_again _⟩)
    have hatRest : (W.resolution answers p).AtRest :=
      hfirst ▸ ⟨rfl, Decision.isGranted_again _⟩
    refine ⟨fun p' hp' => ?_, ?_⟩
    · rcases List.mem_cons.1 hp' with rfl | hp'
      · exact hatRest
      · exact hrest p' hp'
    · rw [tally_cons, tally_cons, review_of_atRest hatRest, htally, hfirst, Decision.report_again]
      rfl

theorem report_of_retains (hV : V.Sound) (hes : ∀ p ∈ reviews es, V.Knows p.1)
    (hnotes : ∀ e ∈ es, e.1.awardsIssued = 0)
    (hW : Retains answers (V.carry answers (reviews es)) W) :
    W.report answers es = (V.report answers es).withoutAwards := by
  induction es generalizing V with
  | nil => rfl
  | cons e es ih =>
    obtain ⟨note, ps⟩ := e
    have hps : ∀ p ∈ ps, V.Knows p.1 := fun p hp => hes p (List.mem_append_left _ hp)
    have hcarry : V.carry answers (reviews ((note, ps) :: es)) =
        (V.carry answers ps).carry answers (reviews es) := carry_append
    rw [hcarry] at hW
    have hleads : V.Leads (V.carry answers ps) := leads_carry
    have hV' := hV.leads hleads
    have hes' : ∀ p ∈ reviews es, (V.carry answers ps).Knows p.1 := fun p hp =>
      hleads.knows (hes p (List.mem_append_right _ hp))
    have hrest := ih hV' hes' (fun e he => hnotes e (List.mem_cons_of_mem _ he)) hW
    obtain ⟨hatRest, htally⟩ := settled_of_retains hV hps
      ((retains_carry hV' hes').trans leads_carry hW)
    have hnote : note.withoutAwards = note := by
      rw [Report.withoutAwards, ← hnotes (note, ps) List.mem_cons_self]
    simp only [report, Report.withoutAwards_add, hnote]
    rw [htally, carry_of_atRest hatRest, hrest]

end View

section Agenda

variable {facts : FactSource} {now now' : Instant} {b : Badge} {bs : List Badge}

theorem reviewability_eq_ok_true_iff :
    reviewability facts now b = .ok true ↔ Reviewable facts now b := by
  unfold reviewability Reviewable
  split
  · next h =>
    rw [Bool.and_eq_true] at h
    cases b.owner with
    | site => simp [h.1, h.2]
    | course c =>
      dsimp only
      cases facts (.course c) with
      | error e => simp [Except.map]
      | ok found => cases found <;> simp [Except.map, h.1, h.2]
  · next h =>
    rw [Bool.and_eq_true, not_and] at h
    simpa using fun hactive hcriteria => absurd hcriteria (h hactive)

theorem reviewability_eq (h : Reviewable facts now b ↔ Reviewable facts now' b) :
    reviewability facts now' b = reviewability facts now b := by
  rw [← reviewability_eq_ok_true_iff, ← reviewability_eq_ok_true_iff] at h
  revert h
  unfold reviewability
  split
  · cases b.owner with
    | site => exact fun _ => rfl
    | course c =>
      dsimp only
      cases facts (.course c) with
      | error e => exact fun _ => rfl
      | ok found =>
        simp only [Except.map, Except.ok.injEq]
        exact fun h => (Bool.eq_iff_iff.2 h).symm
  · exact fun _ => rfl

theorem awardsIssued_of_mem_agenda {e : Report × List (Badge × LearnerId)}
    (he : e ∈ agenda facts now bs) : e.1.awardsIssued = 0 := by
  obtain ⟨b, -, rfl⟩ := List.mem_map.1 he
  show (selection b.id _ _).1.awardsIssued = 0
  unfold selection
  split <;> rfl

theorem mem_reviews_agenda {p : Badge × LearnerId} (hp : p ∈ reviews (agenda facts now bs)) :
    ∃ b ∈ bs, p.1 = b.lock := by
  obtain ⟨e, he, hp⟩ := List.mem_flatMap.1 hp
  obtain ⟨b, hb, rfl⟩ := List.mem_map.1 he
  obtain ⟨l, -, rfl⟩ := List.mem_map.1 hp
  exact ⟨b, hb, rfl⟩

theorem knows_of_mem_agenda {V : View} (hV : V.Sound) {p : Badge × LearnerId}
    (hp : p ∈ reviews (agenda facts now V.badges.values)) : V.Knows p.1 := by
  obtain ⟨b, hb, hlock⟩ := mem_reviews_agenda hp
  obtain ⟨id, hid⟩ := Register.mem_values_iff.1 hb
  rw [← hV.id_eq hid] at hid
  rw [hlock]
  exact View.knows_iff.2 ⟨b, hid, by simp [Badge.lock]⟩

variable (hfacts : OwnerDecides facts)

include hfacts

theorem selected_lock : selected facts now b.lock = selected facts now b := by
  have hreviewability : reviewability facts now b.lock = reviewability facts now b := by
    unfold reviewability
    have hactive : b.lock.status.isActive = b.status.isActive := Status.isActive_locked b.status
    rw [hactive]
    rfl
  have hcandidates : facts (.candidates b.lock) = facts (.candidates b) := hfacts rfl
  rw [selected, selected, hreviewability, hcandidates]
  rfl

theorem agenda_map_lock : agenda facts now (bs.map Badge.lock) = agenda facts now bs := by
  rw [agenda, List.map_map]
  refine List.map_congr_left fun b _ => ?_
  have hlock : b.lock.lock = b.lock := by simp [Badge.lock]
  simp only [Function.comp, selected_lock hfacts, hlock]

/-- At a time at which the same badges are reviewed, reviews have left the agenda as it was. -/
theorem agenda_of_leads {V W : View} (hleads : V.Leads W)
    (h : ∀ b ∈ V.badges.values, Reviewable facts now b ↔ Reviewable facts now' b) :
    agenda facts now' W.badges.values = agenda facts now V.badges.values := by
  rw [← agenda_map_lock hfacts, hleads.map_lock_values, agenda_map_lock hfacts]
  refine List.map_congr_left fun b hb => ?_
  have hselected : selected facts now' b = selected facts now b := by
    rw [selected, selected, reviewability_eq (h b hb)]
  rw [hselected]

end Agenda

section Passes

variable {σ : Type} [Store σ] {facts : FactSource} {now now' : Instant}

/-- The badges of the store can be awarded, and each is reviewed at both times or at neither. -/
def Repeatable (facts : FactSource) (now now' : Instant) (s : σ) : Prop :=
  ∃ bs, Store.perform .badges s = .ok (bs, s) ∧
    ∀ b ∈ bs, b.expiry.Measurable ∧ (Reviewable facts now b ↔ Reviewable facts now' b)

/-- A second pass ends with the same report as the first, except that it issues no awards. It writes
nothing and sends no notices. -/
def Repeats (one two : Setting) (now now' : Instant) (w : World σ) : Prop :=
  let first := (pass now).exec one w
  let again := (pass now').exec two first.2
  ∃ r, first.1 = .done r ∧ again.1 = .done { r with awardsIssued := 0 } ∧
    again.2.store = first.2.store ∧ again.2.sent = first.2.sent

variable {Shown Shown' : View → σ → Prop} {Taken Taken' : σ → String → Prop} {one two : Setting}
  {V : View} {w : World σ}

/-- A pass at a viewable store repeats if no token that the first one draws is taken. -/
theorem repeats_of_viewable (K : Viewable now Shown Taken) (K' : Viewable now' Shown' Taken')
    (hone : one.faults.OnlyNotices) (htwo : two.faults.OnlyNotices) (hsame : two.facts = one.facts)
    (hfacts : OwnerDecides one.facts) (hrepeat : Repeatable one.facts now now' w.store)
    (hfresh : Fresh Taken one.tokens w.store w.issued ((pass now).exec one w).2.issued)
    (hshown : Shown V w.store) (hshown' : ∀ {V₁}, Shown V₁ ((pass now).exec one w).2.store →
      Shown' V₁ ((pass now).exec one w).2.store) : Repeats one two now now' w := by
  choose answers hanswers using exists_answers σ one.facts V.granted
  have hV := K.sound hshown
  obtain ⟨bs, hbs, hstored⟩ := hrepeat
  rw [K.badges hshown, Except.ok.injEq, Prod.mk.injEq] at hbs
  obtain ⟨rfl, -⟩ := hbs
  obtain ⟨r, hfirst, hr, hleft⟩ := (carries_pass K hone hshown (fun b hb => (hstored b hb).1)
    fun l => hanswers l one hone fun _ _ => rfl).exec hfresh
  -- The second pass has the agenda of the first, all of which is at rest.
  have hleads : V.Leads (V.carry answers (reviews (agenda one.facts now V.badges.values))) :=
    View.leads_carry
  have hsecond := carries_pass K' htwo (q := ((pass now).exec one w).2.scene) (hshown' hleft)
    (hleads.measurable fun b hb => (hstored b hb).1) fun l =>
      hleads.granted ▸ hanswers l two htwo fun q _ => congrFun hsame q
  rw [hsame, agenda_of_leads hfacts hleads fun b hb => (hstored b hb).2] at hsecond
  have hknown : ∀ p ∈ reviews (agenda one.facts now V.badges.values), V.Knows p.1 :=
    fun p hp => knows_of_mem_agenda hV hp
  obtain ⟨r', hagain, hr', hscene⟩ :=
    hsecond.exec_of_atRest (View.settled_of_retains hV hknown .refl).1
  have hreport : r' = { r with awardsIssued := 0 } := by
    rw [hr', hr]
    exact View.report_of_retains hV hknown (fun e he => awardsIssued_of_mem_agenda he) .refl
  exact ⟨r, hfirst, hreport ▸ hagain, congrArg Scene.store hscene, congrArg Scene.sent hscene⟩

/-- The first `n` tokens differ, and no award has one of them. -/
structure NewTokens (tokens : Nat → String) (n : Nat) (t : Tables) : Prop where
  differ : ∀ {i j}, i < j → j < n → tokens i ≠ tokens j
  unused : ∀ {i}, i < n → ¬ t.Taken (tokens i)

theorem NewTokens.of_le_one {tokens : Nat → String} {n : Nat} {t : Tables} (hn : n ≤ 1)
    (ht : t.issued = []) : NewTokens tokens n t := by
  refine ⟨fun hij hlt => ?_, fun _ htaken => ?_⟩
  · omega
  · obtain ⟨r, hr, -⟩ := htaken
    rw [ht] at hr
    cases hr

/-- A pass that is repeated at either store, whatever was done to it before, changes nothing and
reports the same. Tables reject an award with a token that they have, so there the tokens have to be
new. -/
theorem ledger_and_tables_pass_repeats (ops : List Operation) (facts : Snapshot)
    (faults faults' : FaultPlan) (tokens tokens' : Nat → String) (now now' : Instant)
    (honly : faults.OnlyNotices) (honly' : faults'.OnlyNotices) :
    let one : Setting := ⟨facts.source, faults, tokens⟩
    let two : Setting := ⟨facts.source, faults', tokens'⟩
    let ledger := World.ofStore (Store.run Ledger.empty ops)
    let tables := World.ofStore (Store.run Tables.empty ops)
    (Repeatable facts.source now now' ledger.store → Repeats one two now now' ledger) ∧
      (Repeatable facts.source now now' tables.store →
        NewTokens tokens ((pass now).exec one tables).2.issued tables.store →
          Repeats one two now now' tables) := by
  intro one two ledger tables
  have hfacts : OwnerDecides one.facts := ownerDecides_snapshot facts
  constructor
  · intro hrepeat
    have hsound : ledger.store.Sound := Ledger.sound_run ops
    refine repeats_of_viewable (Ledger.viewable now ledger.store)
      (Ledger.viewable now' ((pass now).exec one ledger).2.store) honly honly' rfl hfacts hrepeat
      (fresh_of_never fun _ _ => id) (Ledger.shownBy_view hsound.toBadgesSound) fun hshown => ?_
    exact ⟨hshown.view_eq, hshown.sound, .refl⟩
  · intro hrepeat hnew
    obtain ⟨V, hV⟩ := Tables.exists_shownBy (Store.reaches_run Tables.empty ops)
    refine repeats_of_viewable (Tables.viewable now) (Tables.viewable now') honly honly' rfl hfacts
      hrepeat ⟨fun i _ hlt => hnew.unused hlt, fun i j _ hij hlt heq => ?_⟩ hV id
    exact absurd heq (hnew.differ hij hlt)

/-- The pass that awards the badge is repeated a day later. -/
theorem ledger_and_tables_pass_repeats_networker :
    let now : Instant := ⟨0, 0, by decide, by decide, by decide, by decide⟩
    let now' : Instant := ⟨86400, 0, by decide, by decide, by decide, by decide⟩
    let one : Setting := ⟨connectedLearner.source, .empty, fun _ => "token"⟩
    let ledger := World.ofStore (Store.run Ledger.empty networkBadge)
    let tables := World.ofStore (Store.run Tables.empty networkBadge)
    (one.faults.OnlyNotices ∧ Repeatable one.facts now now' ledger.store ∧
        Repeatable one.facts now now' tables.store ∧
        NewTokens one.tokens ((pass now).exec one tables).2.issued tables.store) ∧
      (((pass now).exec one ledger).1 = .done ⟨1, 1, 1, []⟩ ∧
        ((pass now).exec one tables).1 = .done ⟨1, 1, 1, []⟩) ∧
      Repeats one one now now' ledger ∧ Repeats one one now now' tables := by
  refine ⟨⟨FaultPlan.onlyNotices_empty, ⟨[networker .active], by decide +kernel, by decide +kernel⟩,
    ⟨[networker .active], by decide +kernel, by decide +kernel⟩,
    .of_le_one (by decide +kernel) (by decide +kernel)⟩, by decide +kernel, ?_, ?_⟩
  · exact (ledger_and_tables_pass_repeats networkBadge connectedLearner .empty .empty
      (fun _ => "token") (fun _ => "token") _ _ FaultPlan.onlyNotices_empty
      FaultPlan.onlyNotices_empty).1 ⟨[networker .active], by decide +kernel, by decide +kernel⟩
  · exact (ledger_and_tables_pass_repeats networkBadge connectedLearner .empty .empty
      (fun _ => "token") (fun _ => "token") _ _ FaultPlan.onlyNotices_empty
      FaultPlan.onlyNotices_empty).2 ⟨[networker .active], by decide +kernel, by decide +kernel⟩
      (.of_le_one (by decide +kernel) (by decide +kernel))

end Passes

end Review

end Badging
