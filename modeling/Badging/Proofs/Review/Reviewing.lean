import Badging.Proofs.Review.Advance
import Badging.Review.Pass

/-!
# Reviews take a ledger forward

Whatever fails during a review, it leaves a ledger that is an `Advance` of the one it started with,
and it has sent as many notices as there are new awards. If a review of a learner was not cut short
by something outside, nothing is left to do for the badge and the learner. `Excuse` lists what
could have cut it short.

These are triples over one assertion, `Under`, with a place `X` for what is known besides. As rows
are only added, whatever lasts under that can be carried through a review.
-/

namespace Badging

/-- The awards of all badges can be issued. -/
def Ledger.Measurable (s : Ledger) : Prop :=
  ∀ {id b}, s.badges.get? id = some b → b.expiry.Measurable

theorem Ledger.measurable_of_values {s : Ledger}
    (h : ∀ b ∈ s.badges.values, b.expiry.Measurable) : s.Measurable :=
  fun hb => h _ (Register.mem_values_iff.2 ⟨_, hb⟩)

namespace Review

open Run

/-- What may cut a review short: a call fails, a question has no answer, or a period cannot be
measured. -/
def Excuse (setting : Setting) (s₀ : Ledger) : Prop :=
  setting.faults ≠ .empty ∨ ¬ setting.facts.Total ∨ ¬ s₀.Measurable

/-- The store was taken forward from `s₀`, a notice was sent for each new award, and `X` holds. -/
def Under (facts : FactSource) (now : Instant) (D : BadgeId → LearnerId → Prop) (s₀ : Ledger)
    (n₀ : Int) (X : Ledger → Prop) : Assertion Ledger := fun s n =>
  Advance facts now D s₀ s ∧ (n.length : Int) + s₀.awards.size = n₀ + s.awards.size ∧ X s

variable {setting : Setting} {now : Instant} {D : BadgeId → LearnerId → Prop} {s₀ : Ledger}
  {n₀ : Int} {X : Ledger → Prop} {b : Badge} {l : LearnerId} {c : Criterion}

theorem triple_call {op : Operation} {P : Assertion Ledger} {Q : op.Answer → Assertion Ledger}
    (hanswered : ∀ s n, P s n → ∃ a s', Store.perform op s = .ok (a, s') ∧
      ∀ h, Q (received setting.faults h op a) s' n) :
    Triple setting P (call op) Q fun _ s n => P s n ∧ setting.faults ≠ .empty := by
  refine Triple.mapError (E := fun _ s n => P s n ∧ setting.faults ≠ .empty)
    (Triple.perform (fun e s n hP hcause => ⟨hP, ?_⟩) fun h a s s' n hP hop => ?_)
    (fun _ _ _ h => h) fun _ _ _ h => h
  · rcases hcause with ⟨h, hfault⟩ | hrefused
    · exact FaultPlan.ne_empty_of_store hfault
    · obtain ⟨a, s', hop, -⟩ := hanswered s n hP
      rw [hop] at hrefused
      cases hrefused
  · obtain ⟨a', s'', hop', hQ⟩ := hanswered s n hP
    rw [hop] at hop'
    cases hop'
    exact hQ h

theorem triple_markMet (hs₀ : s₀.Sound) (hX : Lasting X) (hdue : Due setting.facts D s₀ b l c) :
    Triple setting (Under setting.facts now D s₀ n₀ X) (call (.markMet (c.met l now)))
      (fun _ => Under setting.facts now D s₀ n₀ fun s => X s ∧ Recorded s l c)
      fun _ s n => Under setting.facts now D s₀ n₀ X s n ∧ setting.faults ≠ .empty := by
  refine triple_call fun s n hP => ?_
  obtain ⟨hadvance, hcount, hXs⟩ := hP
  obtain ⟨b', hb', hlock⟩ := hadvance.get?_badge hdue.stored
  have hbadge : (c.met l now).badge = b.id := (hs₀.badge hdue.stored).badge_eq c hdue.mem
  have hop := Ledger.perform_markMet (r := c.met l now) (hbadge ▸ hb')
    ⟨c, by rw [criteria_of_lock hlock]; exact hdue.mem, rfl⟩
  cases hcontains : s.met.contains ⟨c.id, l⟩ with
  | true =>
    have hrow : s.met.contains ⟨(c.met l now).criterion, (c.met l now).learner⟩ = true := hcontains
    rw [hrow, if_pos rfl] at hop
    exact ⟨_, _, hop, fun _ => ⟨hadvance, hcount, hXs, hcontains⟩⟩
  | false =>
    have hrow : s.met.contains ⟨(c.met l now).criterion, (c.met l now).learner⟩ = false := hcontains
    rw [hrow, if_neg Bool.false_ne_true] at hop
    obtain ⟨hadvance', hgrown⟩ :=
      hadvance.markMet hdue (Register.contains_eq_false_iff.1 hcontains)
    refine ⟨_, _, hop, fun _ => ⟨hadvance', hcount, hX hgrown hXs, ?_⟩⟩
    exact Register.contains_eq_true_iff.2 ⟨_, s.met.get?_insert_self _ _⟩

theorem triple_settle (hs₀ : s₀.Sound) (hX : Lasting X) (hb : s₀.badges.get? b.id = some b)
    (hD : D b.id l) (hoverall : b.overall?.isSome = true) (hc : c ∈ b.requirements) :
    Triple setting (Under setting.facts now D s₀ n₀ X) (settle b l now c)
      (fun _ => Under setting.facts now D s₀ n₀ fun s =>
        X s ∧ SettledOn setting.facts s₀ b l [c] s)
      fun _ s n => Under setting.facts now D s₀ n₀ X s n ∧ Excuse setting s₀ := by
  obtain ⟨hmem, hreq⟩ := Badge.mem_requirements_iff.1 hc
  have hlookup : Triple setting (Under setting.facts now D s₀ n₀ X) (call (.criterionMet c.id l))
      (fun record s n => Under setting.facts now D s₀ n₀ X s n ∧ record = s.met.get? ⟨c.id, l⟩)
      fun _ s n => Under setting.facts now D s₀ n₀ X s n ∧ setting.faults ≠ .empty :=
    triple_call fun s n hP => ⟨s.met.get? ⟨c.id, l⟩, s, rfl, fun _ => ⟨hP, rfl⟩⟩
  refine Triple.bind (hlookup.weaken (fun _ _ h => h) (fun _ _ _ h => h)
    fun _ _ _ h => ⟨h.1, .inl h.2⟩) fun record => ?_
  split
  · next hsome =>
    -- A requirement with a record is settled already.
    refine Triple.pure fun s n hP => ?_
    obtain ⟨⟨hadvance, hcount, hXs⟩, rfl⟩ := hP
    exact ⟨hadvance, hcount, hXs, settledOn_cons.2 ⟨fun _ => hsome, settledOn_nil⟩⟩
  · refine Triple.bind (Q := fun v s n => Under setting.facts now D s₀ n₀ X s n ∧
        (v = true ↔ Holds setting.facts s₀ b l c)) ?_ fun v => ?_
    · refine ((triple_requirement hreq fun s n hP => ?_).weaken (fun _ _ h => h.1)
        (fun _ _ _ h => h) fun _ s n h => ⟨h.1, h.2.imp_right .inl⟩)
      exact hP.1.manual
    · cases v with
      | true =>
        refine Triple.intro fun s n hP => ?_
        have hholds := hP.2.1 rfl
        have hdue : Due setting.facts D s₀ b l c :=
          ⟨hb, hmem, hD, hoverall, fun _ => hholds, fun h =>
            Bool.noConfusion (hreq.symm.trans h)⟩
        refine Triple.bind ((triple_markMet hs₀ hX hdue).weaken ?_ (fun _ _ _ h => h)
          fun _ _ _ h => ⟨h.1, .inl h.2⟩) fun _ => ?_
        · rintro s' n' ⟨rfl, rfl⟩
          exact hP.1
        · exact Triple.pure fun s' n' h =>
            ⟨h.1, h.2.1, h.2.2.1, settledOn_cons.2 ⟨fun _ => h.2.2.2, settledOn_nil⟩⟩
      | false =>
        refine Triple.pure fun s n hP => ?_
        obtain ⟨⟨hadvance, hcount, hXs⟩, hholds⟩ := hP
        refine ⟨hadvance, hcount, hXs, settledOn_cons.2 ⟨fun h => ?_, settledOn_nil⟩⟩
        exact absurd (hholds.2 h) Bool.false_ne_true

theorem triple_settleAll (hs₀ : s₀.Sound) (hX : Lasting X) (hb : s₀.badges.get? b.id = some b)
    (hD : D b.id l) (hoverall : b.overall?.isSome = true) (cs : List Criterion)
    (hcs : ∀ c ∈ cs, c ∈ b.requirements) :
    Triple setting (Under setting.facts now D s₀ n₀ X) (settleAll b l now cs)
      (fun _ => Under setting.facts now D s₀ n₀ fun s =>
        X s ∧ SettledOn setting.facts s₀ b l cs s)
      fun _ s n => Under setting.facts now D s₀ n₀ X s n ∧ Excuse setting s₀ := by
  -- What was settled before joins `X`, so that it outlasts what is settled later.
  induction cs generalizing X with
  | nil => exact Triple.pure fun s n h => ⟨h.1, h.2.1, h.2.2, settledOn_nil⟩
  | cons c cs ih =>
    have hX' : Lasting fun s => X s ∧ SettledOn setting.facts s₀ b l [c] s :=
      hX.and lasting_settledOn
    refine Triple.bind (triple_settle hs₀ hX hb hD hoverall (hcs c List.mem_cons_self))
      fun met => ?_
    refine Triple.bind ((ih hX' fun d hd => hcs d (List.mem_cons_of_mem _ hd)).weaken
      (fun _ _ h => h) (fun _ _ _ h => h) fun _ s n h => ⟨⟨h.1.1, h.1.2.1, h.1.2.2.1⟩, h.2⟩)
      fun rest => ?_
    refine Triple.pure fun s n h => ⟨h.1, h.2.1, h.2.2.1.1, settledOn_cons.2 ⟨?_, h.2.2.2⟩⟩
    exact (settledOn_cons.1 h.2.2.1.2).1

theorem triple_lock {m : Int} (hX : Lasting X) :
    Triple setting (Under setting.facts now D s₀ m X) (lockAwarded b.id)
      (fun _ => Under setting.facts now D s₀ m X)
      (Unbroken (Under setting.facts now D s₀ m X)) := by
  let Read (stored : Option Badge) : Assertion Ledger := fun s n =>
    Under setting.facts now D s₀ m X s n ∧ stored = s.badges.get? b.id
  have hread : Triple setting (Under setting.facts now D s₀ m X) (Run.perform (.badge b.id)) Read
      (Unbroken (Under setting.facts now D s₀ m X)) :=
    Triple.perform (fun _ _ _ h _ => h) fun _ a s s' n hP hop => by
      cases hop
      exact ⟨hP, rfl⟩
  refine Triple.bind hread fun stored => ?_
  cases stored with
  | none => exact Triple.pure fun _ _ h => h.1
  | some stored =>
    dsimp only
    split
    · refine Triple.perform (fun _ _ _ h _ => h.1) fun _ a s s' n hP hop => ?_
      obtain ⟨⟨hadvance, hcount, hXs⟩, hstored⟩ := hP
      cases Ledger.effect_of_perform hop with
      | idle h => cases h
      | @setStatus _ _ b' hb' =>
        rw [hb', Option.some.injEq] at hstored
        subst hstored
        have hgrown : Grown s { s with badges := s.badges.insert b.id stored.lock } :=
          ⟨fun hr => hr, fun ha => ha⟩
        exact ⟨hadvance.lock hb', hcount, hX hgrown hXs⟩
    · exact Triple.pure fun _ _ h => h.1

/-- After an award that is due was inserted nothing is left to do, and a notice is owed if it was
not there before. -/
theorem triple_insertAward (hX : Lasting X) {o : Criterion} (hdue : Due setting.facts D s₀ b l o)
    (ho : o.isOverall = true) {token : String} {a : Award}
    (hissue : Award.issue b l now token = .ok a) :
    Triple setting
      (Under setting.facts now D s₀ n₀ fun s =>
        X s ∧ SettledOn setting.facts s₀ b l b.requirements s ∧ Recorded s l o)
      (call (.insertAward a))
      (fun added => Under setting.facts now D s₀ (if added then n₀ - 1 else n₀) fun s =>
        X s ∧ Finished setting.facts s₀ b l s)
      fun _ s n => (Under setting.facts now D s₀ n₀ fun s =>
        X s ∧ SettledOn setting.facts s₀ b l b.requirements s ∧ Recorded s l o) s n ∧
          setting.faults ≠ .empty := by
  obtain ⟨x, -, ha⟩ := Award.issue_eq_ok_iff.1 hissue
  have hbadge : a.badge = b.id := by rw [ha]
  have hlearner : a.learner = l := by rw [ha]
  refine triple_call fun s n hP => ?_
  obtain ⟨hadvance, hcount, hXs, hsettled, hrecorded⟩ := hP
  obtain ⟨b', hb', -⟩ := hadvance.get?_badge hdue.stored
  have hop := Ledger.perform_insertAward (a := a) (hbadge ▸ hb')
  rw [hbadge, hlearner] at hop
  cases hnone : s.awards.get? ⟨b.id, l⟩ with
  -- An award that was there is left alone, and no notice is owed for it.
  | some a' =>
    rw [Register.contains_eq_true_iff.2 ⟨a', hnone⟩, if_pos rfl] at hop
    exact ⟨_, _, hop, fun _ => ⟨hadvance, hcount, hXs, .inl ⟨a', hnone⟩⟩⟩
  | none =>
    rw [Register.contains_eq_false_iff.2 hnone, if_neg Bool.false_ne_true] at hop
    obtain ⟨hadvance', hgrown⟩ := hadvance.insertAward
      ⟨⟨token, hissue⟩, ⟨o, hdue, ho, hrecorded⟩, hsettled⟩ hnone
    refine ⟨_, _, hop, fun _ => ⟨hadvance', ?_, hX hgrown hXs, .inl ⟨a, ?_⟩⟩⟩
    · have hsize := Register.size_insert hnone a
      show (n.length : Int) + s₀.awards.size = n₀ - 1 + (s.awards.insert ⟨b.id, l⟩ a).size
      rw [hsize]
      omega
    · exact s.awards.get?_insert_self _ _

theorem triple_issueDue (hX : Lasting X) {o : Criterion}
    (hdue : Due setting.facts D s₀ b l o) (ho : o.isOverall = true) :
    Triple setting
      (Under setting.facts now D s₀ n₀ fun s =>
        X s ∧ SettledOn setting.facts s₀ b l b.requirements s ∧ Recorded s l o)
      (issue b l now)
      (fun _ => Under setting.facts now D s₀ n₀ fun s => X s ∧ Finished setting.facts s₀ b l s)
      fun _ s n => Under setting.facts now D s₀ n₀ X s n ∧ Excuse setting s₀ := by
  refine Triple.bind (Triple.freshToken (Q := fun _ => Under setting.facts now D s₀ n₀ fun s =>
    X s ∧ SettledOn setting.facts s₀ b l b.requirements s ∧ Recorded s l o)
    fun _ _ _ h => h) fun token => ?_
  cases hissue : Award.issue b l now token with
  | error p =>
    refine Triple.breakOff fun s n hP =>
      ⟨⟨hP.1, hP.2.1, hP.2.2.1⟩, .inr (.inr fun hmeasurable => ?_)⟩
    obtain ⟨x, hx⟩ := Expiry.endOf_eq_ok_iff.2 (hmeasurable hdue.stored)
    rw [Award.issue_eq_ok_iff.2 ⟨x, hx, rfl⟩] at hissue
    cases hissue
  | ok a =>
    have hX' : Lasting fun s => X s ∧ Finished setting.facts s₀ b l s := hX.and lasting_finished
    refine Triple.bind ((triple_insertAward hX hdue ho hissue).weaken (fun _ _ h => h)
      (fun _ _ _ h => h) fun _ s n h => ⟨⟨h.1.1, h.1.2.1, h.1.2.2.1⟩, .inl h.2⟩) fun added => ?_
    cases added with
    | false => exact Triple.pure fun _ _ h => h
    | true =>
      refine Triple.bind (Q := fun _ => Under setting.facts now D s₀ (n₀ - 1) fun s =>
        X s ∧ Finished setting.facts s₀ b l s) (Triple.attempt (triple_lock hX')
          (fun _ _ _ h => h) (fun _ _ _ h => h) fun _ _ _ h => h.elim) fun _ => ?_
      refine Triple.bind (Triple.notify fun s n h => ?_) fun _ => Triple.pure fun _ _ h => h
      refine ⟨h.1, ?_, h.2.2⟩
      have hcount := h.2.1
      rw [List.length_cons]
      omega

/-- When the records satisfy the overall criterion, recording it and issuing the award leaves
nothing to do. -/
theorem triple_satisfied (hs₀ : s₀.Sound) (hX : Lasting X) (hb : s₀.badges.get? b.id = some b)
    (hD : D b.id l) {o : Criterion} (ho : b.overall? = some o) :
    Triple setting
      (fun s n => (Under setting.facts now D s₀ n₀ fun s =>
          X s ∧ SettledOn setting.facts s₀ b l b.requirements s) s n ∧
        b.requirements ≠ [] ∧ o.method.Asks (Recorded s l) b.requirements)
      (call (.markMet (o.met l now)) >>= fun _ => issue b l now)
      (fun _ => Under setting.facts now D s₀ n₀ fun s => X s ∧ Finished setting.facts s₀ b l s)
      fun _ s n => Under setting.facts now D s₀ n₀ X s n ∧ Excuse setting s₀ := by
  refine Triple.intro fun s n hP => ?_
  obtain ⟨⟨hadvance, hcount, hXs, hsettled⟩, hreq, hasks⟩ := hP
  have hoverall : o.isOverall = true := List.find?_some ho
  have hsome : b.overall?.isSome = true := by rw [ho]; rfl
  have hdue : Due setting.facts D s₀ b l o :=
    ⟨hb, List.mem_of_find?_eq_some ho, hD, hsome,
      fun h => Bool.noConfusion (hoverall.symm.trans h),
      fun _ => ⟨ho, hadvance.satisfied hs₀ hb hreq hasks⟩⟩
  have hX' : Lasting fun s => X s ∧ SettledOn setting.facts s₀ b l b.requirements s :=
    hX.and lasting_settledOn
  refine Triple.bind ((triple_markMet hs₀ hX' hdue).weaken ?_ (fun _ _ _ h => h)
    fun _ s n h => ⟨⟨h.1.1, h.1.2.1, h.1.2.2.1⟩, .inl h.2⟩) fun _ => ?_
  · rintro s' n' ⟨rfl, rfl⟩
    exact ⟨hadvance, hcount, hXs, hsettled⟩
  · refine (triple_issueDue hX hdue hoverall).weaken ?_ (fun _ _ _ h => h) fun _ _ _ h => h
    exact fun s n h => ⟨h.1, h.2.1, h.2.2.1.1, h.2.2.1.2, h.2.2.2⟩

/-- The review of a learner takes a ledger forward. If it is not cut short by something outside,
nothing is left to do for the badge and the learner. -/
theorem triple_learner_under (hs₀ : s₀.Sound) (hX : Lasting X)
    (hb : s₀.badges.get? b.id = some b)
    (hD : ∀ s h, Advance setting.facts now D s₀ s →
      received setting.faults h (.award b.id l) (s.awards.get? ⟨b.id, l⟩) = none → D b.id l) :
    Triple setting (Under setting.facts now D s₀ n₀ X) (learner b l now)
      (fun _ => Under setting.facts now D s₀ n₀ fun s => X s ∧ Finished setting.facts s₀ b l s)
      fun cut s n => Under setting.facts now D s₀ n₀ X s n ∧
        (Excuse setting s₀ ∨ (∃ e, cut = .failed e) ∧ Finished setting.facts s₀ b l s) := by
  have hlookup : Triple setting (Under setting.facts now D s₀ n₀ X) (call (.award b.id l))
      (fun award s n => Under setting.facts now D s₀ n₀ X s n ∧
        ∃ h, award = received setting.faults h (.award b.id l) (s.awards.get? ⟨b.id, l⟩))
      fun _ s n => Under setting.facts now D s₀ n₀ X s n ∧ setting.faults ≠ .empty :=
    triple_call fun s n hP => ⟨s.awards.get? ⟨b.id, l⟩, s, rfl, fun h => ⟨hP, h, rfl⟩⟩
  refine Triple.bind (hlookup.weaken (fun _ _ h => h) (fun _ _ _ h => h)
    fun _ _ _ h => ⟨h.1, .inl (.inl h.2)⟩) fun award => ?_
  cases award with
  | some a =>
    -- An award may be overlooked, but one that is found is stored.
    refine Triple.pure fun s n hP => ?_
    obtain ⟨⟨hadvance, hcount, hXs⟩, h, ha⟩ := hP
    refine ⟨hadvance, hcount, hXs, .inl ⟨a, ?_⟩⟩
    dsimp only [received] at ha
    split at ha
    · cases ha
    · exact ha.symm
  | none =>
    refine Triple.intro fun s n hP => ?_
    obtain ⟨hP, h, hnone⟩ := hP
    have hDbl := hD s h hP.1 hnone.symm
    have hstart : ∀ s' n', s' = s ∧ n' = n → Under setting.facts now D s₀ n₀ X s' n' := by
      rintro s' n' ⟨rfl, rfl⟩
      exact hP
    cases ho : b.overall? with
    | none =>
      refine Triple.fail fun s' n' heq => ⟨hstart s' n' heq, .inr ⟨⟨_, rfl⟩, .inr fun o ho' => ?_⟩⟩
      rw [ho] at ho'
      cases ho'
    | some o =>
      have hoverall : o.isOverall = true := List.find?_some ho
      have hsome : b.overall?.isSome = true := by rw [ho]; rfl
      refine Triple.bind ((triple_settleAll hs₀ hX hb hDbl hsome b.requirements
        fun _ hc => hc).weaken hstart (fun _ _ _ h => h) fun _ _ _ h => ⟨h.1, .inl h.2⟩)
        fun met => ?_
      refine Triple.bind ((triple_overall hoverall).weaken (fun _ _ h => h) (fun _ _ _ h => h)
        fun _ s n h => ⟨⟨h.1.1, h.1.2.1, h.1.2.2.1⟩, .inl (.inl h.2)⟩) fun holds => ?_
      cases holds with
      | false =>
        refine Triple.pure fun s n hP => ?_
        obtain ⟨⟨hadvance, hcount, hXs, hsettled⟩, hholds⟩ := hP
        refine ⟨hadvance, hcount, hXs, .inr fun o' ho' => ⟨hsettled, fun hsatisfied => ?_⟩⟩
        rw [ho, Option.some.injEq] at ho'
        subst ho'
        have hasks := hadvance.asks_of_satisfied hsettled hsatisfied
        exact Bool.false_ne_true (hholds.2 ⟨hsatisfied.1, hasks⟩)
      | true =>
        refine (triple_satisfied hs₀ hX hb hDbl ho).weaken (fun s n h => ⟨h.1, h.2.1 rfl⟩)
          (fun _ _ _ h => h) fun _ _ _ h => ⟨h.1, .inl h.2⟩

end Review

end Badging
