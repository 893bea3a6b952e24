import Badging.Proofs.Review.View

/-!
# Reviews carry out their resolutions

Where nothing fails but the delivery of notices, the review of a learner for a badge that the store
knows ends as `resolve` says, and the view of the store afterwards is `View.after`. If the
resolution is at rest the review changes nothing at all. There is one exception: the token that was
drawn for the award may be taken, and then the award is not issued.

The answers to the requirements are found out once and for all. They depend on the manual awards,
and on the facts about nobody and about the learner, and on nothing else.
-/

namespace Badging

namespace Review

open Run

variable {σ : Type} [Store σ] {now : Instant} {Shown : View → σ → Prop}
  {Taken : σ → String → Prop} {setting : Setting} {V : View} {q : Scene σ} {b : Badge}
  {l : LearnerId} {c : Criterion} {answer : Criterion → Except ReviewError Bool}

def Grants (granted : BadgeId → LearnerId → RoleId → Bool) (s : σ) : Prop :=
  ∀ b l r, Store.perform (.manualExists b l r) s = .ok (granted b l r, s)

/-- The answers to requirements about a learner, wherever the manual awards are the given ones. -/
def Answers (σ : Type) [Store σ] (setting : Setting)
    (granted : BadgeId → LearnerId → RoleId → Bool) (l : LearnerId)
    (answer : Criterion → Except ReviewError Bool) : Prop :=
  ∀ b c, c.isOverall = false →
    Tells setting (Grants granted) (criterion b l c : Run σ ReviewError Bool) (answer c)

def SameFacts (l : LearnerId) (facts facts' : FactSource) : Prop :=
  ∀ q, q.learner? = none ∨ q.learner? = some l → facts' q = facts q

/-- There are answers, and they are the same in all settings with the same facts about nobody and
about the learner. -/
theorem exists_answers (σ : Type) [Store σ] (facts : FactSource)
    (granted : BadgeId → LearnerId → RoleId → Bool) (l : LearnerId) :
    ∃ answer, ∀ setting : Setting, setting.faults.OnlyNotices →
      SameFacts l facts setting.facts → Answers σ setting granted l answer := by
  let P {α : Type} (x : Run σ ReviewError α) : Prop := ∃ v, ∀ setting : Setting,
    setting.faults.OnlyNotices → SameFacts l facts setting.facts →
      Tells setting (Grants granted) x v
  have hP : Compositional P := by
    refine ⟨fun a => ⟨.ok a, fun _ _ _ => .pure a⟩, fun hx hf => ?_⟩
    obtain ⟨v, hv⟩ := hx
    choose g hg using hf
    exact ⟨v >>= g, fun setting honly hfacts => (hv setting honly hfacts).bind fun a _ =>
      hg a setting honly hfacts⟩
  have hask : ∀ query : Query, query.learner? = none ∨ query.learner? = some l →
      P (ask query) := fun query hquery => by
    refine ⟨(facts query).mapError .source, fun setting honly hfacts => ?_⟩
    rw [← hfacts query hquery]
    exact (Tells.ask honly).mapError
  have hmanual : ∀ badge role, P (call (.manualExists badge l role)) := fun badge role => by
    exact ⟨.ok (granted badge l role), fun setting honly _ =>
      (Tells.perform honly fun s hs => hs badge l role).mapError⟩
  have hcriterion : ∀ c, ∃ v, c.isOverall = false → ∀ setting : Setting,
      setting.faults.OnlyNotices → SameFacts l facts setting.facts →
        ∀ b, Tells setting (Grants granted) (criterion b l c : Run σ ReviewError Bool) v :=
      fun c => by
    by_cases hc : c.isOverall = false
    · obtain ⟨v, hv⟩ :=
        hP.requirement (b := .ofNew ⟨0⟩ ⟨"", .site, .never⟩) hask (hmanual c.badge) hc
      refine ⟨v, fun _ setting honly hfacts b => ?_⟩
      rw [criterion_eq_of_requirement b (.ofNew ⟨0⟩ ⟨"", .site, .never⟩) l hc]
      exact hv setting honly hfacts
    · exact ⟨.ok false, fun h => absurd h hc⟩
  choose answer hanswer using hcriterion
  exact ⟨answer, fun setting honly hfacts b c hc => hanswer c hc setting honly hfacts b⟩

omit [Store σ] in
theorem determining_ends {ε : Type} :
    Determining fun {α : Type} (x : Run σ ε α) a => Ends setting x q (.ok a) q :=
  ⟨Ends.pure, Ends.bind⟩

section Steps

variable (K : Viewable now Shown Taken) (honly : setting.faults.OnlyNotices)

include honly

theorem ends_call {op : Operation} {a : op.Answer} {s : σ}
    (hop : Store.perform op q.store = .ok (a, s)) :
    Ends setting (call op) q (.ok a) { q with store := s } :=
  (Ends.perform honly hop).mapError

include K

theorem ends_overall (hshown : Shown V q.store) (hc : c.isOverall = true) :
    Ends setting (criterion b l c) q
      (.ok (c.method.verdict (b.requirements.map fun d => V.recorded d.id l))) q := by
  unfold criterion
  rw [checks_of_isOverall hc]
  refine determining_ends.evaluate _ (List.forall₂_map_left_iff.2 (List.forall₂_map_right_iff.2
    (List.forall₂_same.2 fun d _ => ?_)))
  obtain ⟨r, hop, hr⟩ := K.criterionMet d.id l hshown
  rw [← hr]
  exact .bind (ends_call honly hop) (.pure r.isSome)

theorem ends_settle_of_recorded (hshown : Shown V q.store) (hc : V.recorded c.id l = true) :
    Ends setting (settle b l now c) q (.ok true) q := by
  obtain ⟨r, hop, hr⟩ := K.criterionMet c.id l hshown
  refine .bind (ends_call honly hop) ?_
  rw [if_pos (hr.trans hc)]
  exact .pure true

theorem ends_settle_of_answer {v : Except ReviewError Bool} (hshown : Shown V q.store)
    (hb : V.Knows b) (hmem : c ∈ b.criteria) (hc : V.recorded c.id l = false)
    (hv : Ends setting (criterion b l c) q v q) :
    ∃ s', Ends setting (settle b l now c) q v { q with store := s' } ∧
      (v = .ok true → Shown (V.record l [c]) s' ∧ ∀ token, Taken s' token → Taken q.store token) ∧
      (v ≠ .ok true → s' = q.store) := by
  obtain ⟨r, hop, hr⟩ := K.criterionMet c.id l hshown
  have hnone : ¬ r.isSome = true := by
    rw [hr, hc]
    exact Bool.false_ne_true
  match v with
  | .error e =>
    refine ⟨q.store, .bind (ends_call honly hop) ?_, (nomatch ·), fun _ => rfl⟩
    rw [if_neg hnone]
    exact .bind_error hv
  | .ok false =>
    refine ⟨q.store, .bind (ends_call honly hop) ?_, (nomatch ·), fun _ => rfl⟩
    rw [if_neg hnone]
    exact .bind hv (.pure false)
  | .ok true =>
    obtain ⟨added, s', hmark, hshown', htaken⟩ := K.markMet l hshown hb hmem
    refine ⟨s', .bind (ends_call honly hop) ?_, fun _ => ⟨hshown', htaken⟩, fun h => absurd rfl h⟩
    rw [if_neg hnone]
    exact .bind hv (.bind (ends_call honly hmark) (.pure true))

theorem ends_settleAll {cs : List Criterion} (hshown : Shown V q.store) (hb : V.Knows b)
    (hcs : ∀ c ∈ cs, c ∈ b.requirements) (hanswer : Answers σ setting V.granted l answer) :
    ∃ s', Ends setting (settleAll b l now cs) q
        (settlement answer (fun id => V.recorded id l) cs).count { q with store := s' } ∧
      Shown (V.record l (settlement answer (fun id => V.recorded id l) cs).marks) s' ∧
      (∀ token, Taken s' token → Taken q.store token) ∧
      ((settlement answer (fun id => V.recorded id l) cs).marks = [] → s' = q.store) := by
  induction cs generalizing V q with
  | nil =>
    refine ⟨q.store, .pure 0, ?_, fun _ h => h, fun _ => rfl⟩
    rw [settlement, View.record_nil]
    exact hshown
  | cons c cs ih =>
    obtain ⟨hmem, hreq⟩ := Badge.mem_requirements_iff.1 (hcs c List.mem_cons_self)
    have hrest : ∀ d ∈ cs, d ∈ b.requirements := fun d hd => hcs d (List.mem_cons_of_mem c hd)
    cases hrecorded : V.recorded c.id l with
    | true =>
      obtain ⟨s', hends, hshown', htaken, hquiet⟩ := ih hshown hb hrest hanswer
      simp only [settlement, hrecorded, if_true]
      exact ⟨s', .bind (ends_settle_of_recorded K honly hshown hrecorded) (.bind_pure hends),
        hshown', htaken, hquiet⟩
    | false =>
      obtain ⟨s₁, hsettle, hmarked, hunmarked⟩ := ends_settle_of_answer K honly hshown hb hmem
        hrecorded (hanswer b c hreq q fun b l r => K.manualExists b l r hshown)
      cases hc : answer c with
      | error e =>
        obtain rfl := hunmarked (by simp [hc])
        simp only [settlement, hrecorded, hc, Bool.false_eq_true, if_false]
        rw [hc] at hsettle
        exact ⟨_, .bind_error hsettle, by rwa [View.record_nil], fun _ h => h, fun _ => rfl⟩
      | ok holds =>
        cases holds with
        | false =>
          obtain rfl := hunmarked (by simp [hc])
          obtain ⟨s', hends, hshown', htaken, hquiet⟩ := ih hshown hb hrest hanswer
          simp only [settlement, hrecorded, hc, Bool.false_eq_true, if_false]
          rw [hc] at hsettle
          refine ⟨s', .bind hsettle ?_, hshown', htaken, hquiet⟩
          simpa using hends
        | true =>
          -- The others are settled in the view that has the new record.
          obtain ⟨hshown₁, htaken₁⟩ := hmarked hc
          obtain ⟨s', hends, hshown', htaken, -⟩ := ih (q := { q with store := s₁ }) hshown₁
            (View.leads_record [c] |>.knows hb) hrest hanswer
          simp only [settlement, hrecorded, hc, Bool.false_eq_true, if_false]
          rw [hc] at hsettle
          rw [View.recorded_record] at hends hshown'
          refine ⟨s', .bind hsettle (.bind_pure hends), ?_,
            fun token h => htaken₁ token (htaken token h), fun h => (List.cons_ne_nil _ _ h).elim⟩
          exact (View.record_append [c] _).symm ▸ hshown'

theorem ends_lockAwarded (hshown : Shown V q.store) (hb : V.Knows b) :
    ∃ s', Ends setting (lockAwarded b.id) q (.ok ()) { q with store := s' } ∧
      Shown (V.lockBadge b.id) s' ∧ ∀ token, Taken s' token → Taken q.store token := by
  obtain ⟨d, hd, -⟩ := View.knows_iff.1 hb
  have hread : Ends setting (Run.perform (.badge b.id)) q (.ok (some d)) q :=
    .perform honly (hd ▸ K.badge b.id hshown)
  by_cases hstatus : d.status = .active
  · obtain ⟨s', hop, hshown', htaken⟩ := K.lock hshown hd hstatus
    refine ⟨s', .bind hread ?_, hshown', htaken⟩
    dsimp only
    rw [if_pos hstatus]
    exact .perform honly hop
  · refine ⟨q.store, .bind hread ?_, (View.lockBadge_of_ne hd hstatus).symm ▸ hshown, fun _ h => h⟩
    dsimp only
    rw [if_neg hstatus]
    exact .pure ()

/-- The award is issued unless its token is taken, and a token is drawn in any case. If it is taken
the review ends as if there had been an award. -/
theorem ends_issue {a : Award} (hshown : Shown V q.store) (hb : V.Knows b)
    (hnone : V.awarded b.id l = false)
    (ha : Award.issue b l now (setting.tokens q.issued) = .ok a) :
    ∃ v V' q', Ends setting (issue b l now) q v q' ∧ Shown V' q'.store ∧ V.Leads V' ∧
      q'.issued = q.issued + 1 ∧
      (Taken q.store (setting.tokens q.issued) ∧ v = .ok .alreadyAwarded ∨
        v = .ok (.awarded a) ∧ V' = (V.award b.id l).lockBadge b.id ∧
        ∀ token, Taken q'.store token → Taken q.store token ∨ token = setting.tokens q.issued) := by
  let q₁ : Scene σ := { q with issued := q.issued + 1 }
  have hdrawn : ∀ {v : Except ReviewError Outcome} {q' : Scene σ},
      Ends setting (do
        if ← call (.insertAward a) then
          let _ ← Run.attempt (lockAwarded b.id)
          Run.notify (a.notice b)
          return .awarded a
        else return .alreadyAwarded) q₁ v q' →
      Ends setting (issue b l now) q v q' := fun h => by
    refine .bind .freshToken ?_
    rw [ha]
    exact h
  rcases K.insertAward hshown hb hnone ha with ⟨s', hop, hshown', htaken⟩ | ⟨htaken, hop⟩
  · obtain ⟨s'', hlock, hshown'', htaken'⟩ := ends_lockAwarded K honly
      (q := { q₁ with store := s' }) hshown' (View.leads_award.knows hb)
    refine ⟨.ok (.awarded a), _, ⟨s'', a.notice b :: q.sent, q.issued + 1⟩,
      hdrawn (.bind (ends_call honly (q := q₁) hop) ?_), hshown'',
      View.leads_award.trans View.leads_lockBadge, rfl,
      .inr ⟨rfl, rfl, fun token h => htaken token (htaken' token h)⟩⟩
    exact .bind hlock.attempt (.bind .notify (.pure _))
  · refine ⟨.ok .alreadyAwarded, V, q₁, hdrawn (.bind (ends_call honly (q := q₁) hop) (.pure _)),
      hshown, .refl, rfl, .inl ⟨htaken, rfl⟩⟩

end Steps

/-- What a review leaves that carried its resolution out. -/
structure Carried (now : Instant) (Taken : σ → String → Prop) (setting : Setting) (V : View)
    (b : Badge) (l : LearnerId) (r : Resolution) (q : Scene σ) (v : Except ReviewError Outcome)
    (V' : View) (q' : Scene σ) : Prop where
  outcome : ∃ a, Award.issue b l now (setting.tokens q.issued) = .ok a ∧ v = r.decision.outcome a
  view : V' = V.after b.id l r
  taken : ∀ token, Taken q'.store token →
    Taken q.store token ∨ q.issued < q'.issued ∧ token = setting.tokens q.issued
  still : r.AtRest → q' = q

/-- The program ends, and it carries the resolution out unless the token that it drew is taken. -/
def Resolves (now : Instant) (Shown : View → σ → Prop) (Taken : σ → String → Prop)
    (setting : Setting) (V : View) (b : Badge) (l : LearnerId) (r : Resolution) (q : Scene σ)
    (x : Run σ ReviewError Outcome) : Prop :=
  ∃ v V' q', Ends setting x q v q' ∧ Shown V' q'.store ∧ V.Leads V' ∧ q.issued ≤ q'.issued ∧
    (Carried now Taken setting V b l r q v V' q' ∨
      q.issued < q'.issued ∧ ¬ r.AtRest ∧ Taken q.store (setting.tokens q.issued))

omit [Store σ] in
theorem Resolves.of_marks {r : Resolution} {x : Run σ ReviewError Outcome} {a : Award} {s : σ}
    (ha : Award.issue b l now (setting.tokens q.issued) = .ok a)
    (hr : r.decision.isGranted = false)
    (hends : Ends setting x q (r.decision.outcome a) { q with store := s })
    (hshown : Shown (V.record l r.marks) s) (htaken : ∀ token, Taken s token → Taken q.store token)
    (hstill : r.marks = [] → s = q.store) : Resolves now Shown Taken setting V b l r q x := by
  have hafter : V.after b.id l r = V.record l r.marks := by simp [View.after, hr]
  refine ⟨_, _, _, hends, hshown, View.leads_record r.marks, Nat.le_refl _, .inl ⟨⟨a, ha, rfl⟩,
    hafter.symm, fun token h => .inl (htaken token h), fun hrest => ?_⟩⟩
  rw [hstill hrest.marks]

theorem ends_learner_due (honly : setting.faults.OnlyNotices) {found : Option Award} {o : Criterion}
    (hlookup : Store.perform (.award b.id l) q.store = .ok (found, q.store))
    (hnone : found.isSome = false) (ho : b.overall? = some o) {v : Except ReviewError Outcome}
    {q' : Scene σ}
    (h : Ends setting (do
      let met ← settleAll b l now b.requirements
      if ← criterion b l o then
        let _ ← call (.markMet (o.met l now))
        issue b l now
      else return .pending met b.requirements.length) q v q') :
    Ends setting (learner b l now) q v q' := by
  refine .bind (ends_call honly hlookup) ?_
  rw [if_neg (by simp [hnone]), ho]
  exact h

theorem Resolves.of_issue (K : Viewable now Shown Taken) (honly : setting.faults.OnlyNotices)
    {ms : List Criterion} {o : Criterion} {x : Run σ ReviewError Outcome} {a : Award} {s : σ}
    (ha : Award.issue b l now (setting.tokens q.issued) = .ok a) (hb : V.Knows b)
    (hawarded : V.awarded b.id l = false) (ho : o ∈ b.criteria) (hshown : Shown (V.record l ms) s)
    (htaken : ∀ token, Taken s token → Taken q.store token)
    (hx : ∀ {v q'}, Ends setting (do let _ ← call (.markMet (o.met l now)); issue b l now)
      { q with store := s } v q' → Ends setting x q v q') :
    Resolves now Shown Taken setting V b l ⟨.granted, ms ++ [o]⟩ q x := by
  obtain ⟨added, s', hmark, hshown', htaken'⟩ := K.markMet (s := s) l hshown
    ((View.leads_record ms).knows hb) ho
  rw [← View.record_append] at hshown'
  obtain ⟨v, V', q', hissue, hshown', hleads, hissued, hcarried⟩ := ends_issue K honly
    (q := { q with store := s' }) hshown' ((View.leads_record _).knows hb) hawarded ha
  have hlt : q.issued < q'.issued := hissued ▸ Nat.lt_succ_self _
  refine ⟨v, V', q', hx (.bind (ends_call honly hmark) hissue), hshown',
    (View.leads_record _).trans hleads, Nat.le_of_lt hlt, ?_⟩
  have hnot : ¬ (⟨.granted, ms ++ [o]⟩ : Resolution).AtRest := fun h => nomatch h.decision
  rcases hcarried with ⟨hclash, -⟩ | ⟨rfl, rfl, hdrawn⟩
  · exact .inr ⟨hlt, hnot, htaken _ (htaken' _ hclash)⟩
  · refine .inl ⟨⟨a, ha, rfl⟩, rfl, fun token h => ?_, fun hrest => absurd hrest hnot⟩
    exact (hdrawn token h).imp (fun h => htaken _ (htaken' _ h)) fun h => ⟨hlt, h⟩

/-- What a review does that comes to a resolution, up to the point at which the badge is issued. If
the badge is not granted the review ends as the resolution says. If it is, the requirements are
settled and the review goes on to record the overall criterion and to issue the badge. -/
inductive Settles (now : Instant) (Shown : View → σ → Prop) (Taken : σ → String → Prop)
    (setting : Setting) (V : View) (b : Badge) (l : LearnerId) (q : Scene σ) : Resolution → Prop
  | denied {r : Resolution} {v : Except ReviewError Outcome} {s : σ}
      (hr : r.decision.isGranted = false) (hv : ∀ a, r.decision.outcome a = v)
      (hends : Ends setting (learner b l now) q v { q with store := s })
      (hshown : Shown (V.record l r.marks) s)
      (htaken : ∀ token, Taken s token → Taken q.store token)
      (hstill : r.marks = [] → s = q.store) : Settles now Shown Taken setting V b l q r
  | granted {ms : List Criterion} {o : Criterion} {s : σ} (hawarded : V.awarded b.id l = false)
      (ho : o ∈ b.criteria) (hshown : Shown (V.record l ms) s)
      (htaken : ∀ token, Taken s token → Taken q.store token)
      (hgoes : ∀ w : World σ, w.scene = q → ∃ w₁ : World σ, w₁.scene = { q with store := s } ∧
        (learner b l now).exec setting w =
          (call (.markMet (o.met l now)) >>= fun _ => issue b l now).exec setting w₁) :
      Settles now Shown Taken setting V b l q ⟨.granted, ms ++ [o]⟩

theorem settles_learner (K : Viewable now Shown Taken) (honly : setting.faults.OnlyNotices)
    (hshown : Shown V q.store) (hb : V.Knows b) (hanswer : Answers σ setting V.granted l answer) :
    Settles now Shown Taken setting V b l q (resolve answer b (V.standing b.id l)) := by
  have hrecordNil : Shown (V.record l []) q.store := by rwa [View.record_nil]
  obtain ⟨found, hlookup, hfound⟩ := K.award b.id l hshown
  have hcall := ends_call honly hlookup
  obtain ⟨s, hsettled, hshown₁, htaken, hstill⟩ :=
    ends_settleAll K honly hshown hb (fun c hc => hc) hanswer
  change Ends setting (settleAll b l now b.requirements) q
    (settlement answer (V.standing b.id l).recorded b.requirements).count _ at hsettled
  -- The overall criterion is checked by the records that are there after settling.
  have hverdict : ∀ {o}, b.overall? = some o → Ends setting (criterion b l o) { q with store := s }
      (.ok (o.method.verdict (b.requirements.map fun d => extend (V.standing b.id l).recorded
        (settlement answer (V.standing b.id l).recorded b.requirements).marks d.id)))
      { q with store := s } := fun ho => by
    rw [View.standing, ← View.recorded_record]
    exact ends_overall K honly hshown₁ (List.find?_some ho)
  have hr : Resolution.Of answer b (V.standing b.id l) (resolve answer b (V.standing b.id l)) :=
    resolve_cases
  generalize resolve answer b (V.standing b.id l) = r at hr ⊢
  cases hr with
  | known hawarded =>
    refine .denied rfl (fun _ => rfl) (.bind hcall ?_) hrecordNil (fun _ h => h) fun _ => rfl
    rw [if_pos (hfound.trans hawarded)]
    exact .pure _
  | incomplete hawarded ho =>
    have hnone : found.isSome = false := hfound.trans hawarded
    refine .denied rfl (fun _ => rfl) (.bind hcall ?_) hrecordNil (fun _ h => h) fun _ => rfl
    rw [if_neg (by simp [hnone]), ho]
    exact .fail _
  | failed hawarded ho hcount =>
    rw [hcount] at hsettled
    exact .denied rfl (fun _ => rfl) (ends_learner_due honly hlookup (hfound.trans hawarded) ho
      (.bind_error hsettled)) hshown₁ htaken hstill
  | @pending o met hawarded ho hcount hpending =>
    rw [hcount] at hsettled
    have hends := hverdict ho
    rw [hpending] at hends
    exact .denied rfl (fun _ => rfl) (ends_learner_due honly hlookup (hfound.trans hawarded) ho
      (.bind hsettled (.bind hends (.pure _)))) hshown₁ htaken hstill
  | @granted o met hawarded ho hcount hgranted =>
    rw [hcount] at hsettled
    have hnone : found.isSome = false := hfound.trans hawarded
    have hends := hverdict ho
    rw [hgranted] at hends
    -- Here the review is about to record the overall criterion and to issue the badge.
    refine .granted hawarded (List.mem_of_find?_eq_some ho) hshown₁ htaken fun w hw => ?_
    obtain ⟨w₁, hw₁, hexec₁⟩ := hcall.goes_on hw
    obtain ⟨w₂, hw₂, hexec₂⟩ := hsettled.goes_on hw₁
    obtain ⟨w₃, hw₃, hexec₃⟩ := hends.goes_on hw₂
    refine ⟨w₃, hw₃, (hexec₁ _).trans ?_⟩
    rw [if_neg (by simp [hnone]), ho]
    exact (hexec₂ _).trans (hexec₃ _)

/-- The review of a learner ends, and it carries its resolution out unless the token that it drew is
taken. -/
theorem resolves_learner (K : Viewable now Shown Taken) (honly : setting.faults.OnlyNotices)
    (hshown : Shown V q.store) (hb : V.Knows b) (hexpiry : b.expiry.Measurable)
    (hanswer : Answers σ setting V.granted l answer) :
    Resolves now Shown Taken setting V b l (resolve answer b (V.standing b.id l)) q
      (learner b l now) := by
  obtain ⟨x, hx⟩ := Expiry.endOf_eq_ok_iff.2 hexpiry
  obtain ⟨a, ha⟩ : ∃ a, Award.issue b l now (setting.tokens q.issued) = .ok a :=
    ⟨_, Award.issue_eq_ok_iff.2 ⟨x, hx, rfl⟩⟩
  have hsettles : Settles now Shown Taken setting V b l q _ :=
    settles_learner K honly hshown hb hanswer
  revert hsettles
  generalize resolve answer b (V.standing b.id l) = r
  intro hsettles
  cases hsettles with
  | denied hr hv hends hshown' htaken hstill =>
    exact .of_marks ha hr (hv a ▸ hends) hshown' htaken hstill
  | granted hawarded ho hshown' htaken hgoes =>
    refine .of_issue K honly ha hb hawarded ho hshown' htaken fun h w hw => ?_
    obtain ⟨w₁, hw₁, hexec⟩ := hgoes w hw
    rw [hexec]
    exact h w₁ hw₁

end Review

end Badging
