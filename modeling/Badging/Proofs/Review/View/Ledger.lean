import Badging.Proofs.Review.View

/-!
# The view of a ledger

A ledger is its view and more, since of a row the view only tells that it is there. Reviews at one
time add rows of which the contents are known, and this is `Follows`, which is carried along with
the view. So two ledgers that follow a sound one and have the same view are the same, except for the
tokens of their awards.
-/

namespace Badging

namespace Ledger

open Review

/-- The ledger without the tokens of its awards. -/
def withoutTokens (s : Ledger) : Ledger :=
  { s with awards := s.awards.mapValues fun _ a => a.withoutToken }

def view (s : Ledger) : View where
  badges := s.badges
  recorded c l := s.met.contains ⟨c, l⟩
  awarded b l := s.awards.contains ⟨b, l⟩
  granted b l r := s.manual.contains ⟨b, l, r⟩

theorem sound_view {s : Ledger} (hs : s.BadgesSound) : s.view.Sound := by
  refine View.Sound.of_badges hs id (fun _ => rfl)
    (fun b => ⟨id, (List.map_id _).symm, fun _ => ⟨rfl, rfl⟩⟩) ?_
  refine Register.ext_get? fun k => ?_
  rw [Register.get?_mapValues]
  exact Option.map_id_fun.symm ▸ rfl

section Changes

variable {s : Ledger} {b : BadgeId} {l : LearnerId} {now : Instant}

theorem view_markMet (c : Criterion) :
    view { s with met := s.met.insert ⟨c.id, l⟩ (c.met l now) } = s.view.record l [c] := by
  simp only [view, View.record, View.mk.injEq, true_and, and_true]
  funext c' l'
  simp only [Register.contains_insert, Pair.mk.injEq]
  by_cases hl : l' = l
  · subst hl
    by_cases hid : c' = c.id
    · simp [extend, hid]
    · simp [extend, hid, Ne.symm hid]
  · simp [hl]

theorem view_insertAward (a : Award) :
    view { s with awards := s.awards.insert ⟨b, l⟩ a } = s.view.award b l := by
  simp only [view, View.award, View.mk.injEq, true_and, and_true]
  funext id l'
  simp only [Register.contains_insert, Pair.mk.injEq]

theorem view_lock {d : Badge} (hd : s.badges.get? b = some d) (hactive : d.status = .active) :
    view { s with badges := s.badges.insert b d.lock } = s.view.lockBadge b := by
  have hlock : d.afterAward = d.lock := if_pos hactive
  simp only [view, View.lockBadge, ← hlock, Register.insert_eq_modify hd]

end Changes

/-- The ledger has the rows of `s₀` and others that reviews at `now` have added, and its badges
differ from those of `s₀` in their locks at most. -/
structure Follows (now : Instant) (s₀ s : Ledger) : Prop where
  lastBadge : s.lastBadge = s₀.lastBadge
  lastCriterion : s.lastCriterion = s₀.lastCriterion
  manual : s.manual = s₀.manual
  locked : s.view.locked = s₀.view.locked
  met_kept : ∀ {k r}, s₀.met.get? k = some r → s.met.get? k = some r
  met_new : ∀ {k r}, s.met.get? k = some r → s₀.met.get? k = some r ∨
    ∃ b c l, s₀.view.Knows b ∧ c ∈ b.criteria ∧ k = ⟨c.id, l⟩ ∧ r = c.met l now
  awards_kept : ∀ {k a}, s₀.awards.get? k = some a → s.awards.get? k = some a
  awards_new : ∀ {k a}, s.awards.get? k = some a → s₀.awards.get? k = some a ∨
    ∃ b l token, s₀.view.Knows b ∧ Award.issue b l now token = .ok a ∧ k = ⟨b.id, l⟩

namespace Follows

variable {now : Instant} {s₀ s s' : Ledger} {b : Badge} {c : Criterion} {l : LearnerId}

theorem refl : Follows now s₀ s₀ :=
  ⟨rfl, rfl, rfl, rfl, fun h => h, fun h => .inl h, fun h => h, fun h => .inl h⟩

theorem leads (h : Follows now s₀ s) : s₀.view.Leads s.view :=
  ⟨by simp only [view, h.manual], h.locked⟩

theorem knows (h : Follows now s₀ s) (hb : s.view.Knows b) : s₀.view.Knows b := by
  rw [View.Knows, ← h.locked]
  exact hb

theorem markMet (h : Follows now s₀ s) (hb : s.view.Knows b) (hc : c ∈ b.criteria)
    (hnone : s.met.get? ⟨c.id, l⟩ = none) :
    Follows now s₀ { s with met := s.met.insert ⟨c.id, l⟩ (c.met l now) } where
  lastBadge := h.lastBadge
  lastCriterion := h.lastCriterion
  manual := h.manual
  locked := h.locked
  met_kept {k r} hr := by
    have hk : k ≠ ⟨c.id, l⟩ := by
      rintro rfl
      rw [h.met_kept hr] at hnone
      cases hnone
    rw [Register.get?_insert_of_ne _ hk]
    exact h.met_kept hr
  met_new hr := by
    rcases Register.get?_insert_eq_some_iff.1 hr with ⟨rfl, rfl⟩ | ⟨-, hr⟩
    · exact .inr ⟨b, c, l, h.knows hb, hc, rfl, rfl⟩
    · exact h.met_new hr
  awards_kept := h.awards_kept
  awards_new := h.awards_new

theorem insertAward (h : Follows now s₀ s) (hb : s.view.Knows b) {a : Award} {token : String}
    (ha : Award.issue b l now token = .ok a) (hnone : s.awards.get? ⟨b.id, l⟩ = none) :
    Follows now s₀ { s with awards := s.awards.insert ⟨b.id, l⟩ a } where
  lastBadge := h.lastBadge
  lastCriterion := h.lastCriterion
  manual := h.manual
  locked := h.locked
  met_kept := h.met_kept
  met_new := h.met_new
  awards_kept {k a'} ha' := by
    have hk : k ≠ ⟨b.id, l⟩ := by
      rintro rfl
      rw [h.awards_kept ha'] at hnone
      cases hnone
    rw [Register.get?_insert_of_ne _ hk]
    exact h.awards_kept ha'
  awards_new ha' := by
    rcases Register.get?_insert_eq_some_iff.1 ha' with ⟨rfl, rfl⟩ | ⟨-, ha'⟩
    · exact .inr ⟨b, l, token, h.knows hb, ha, rfl⟩
    · exact h.awards_new ha'

theorem setStatus (h : Follows now s₀ s) {id : BadgeId} {d : Badge}
    (hd : s.badges.get? id = some d) (hactive : d.status = .active) :
    Follows now s₀ { s with badges := s.badges.insert id d.lock } where
  lastBadge := h.lastBadge
  lastCriterion := h.lastCriterion
  manual := h.manual
  locked := by
    rw [view_lock hd hactive, View.leads_lockBadge.locked, h.locked]
  met_kept := h.met_kept
  met_new hr := h.met_new hr
  awards_kept := h.awards_kept
  awards_new ha := h.awards_new ha

section Determined

variable (hs₀ : s₀.BadgesSound) (h : Follows now s₀ s) (h' : Follows now s₀ s')

include hs₀ h h'

theorem get?_met_eq {k : Pair CriterionId LearnerId}
    (hk : s'.met.contains k = s.met.contains k) : s'.met.get? k = s.met.get? k := by
  cases hr : s.met.get? k with
  | none => rwa [Register.contains_eq_false_iff.2 hr, Register.contains_eq_false_iff] at hk
  | some r =>
    rw [Register.contains_eq_true_iff.2 ⟨r, hr⟩, Register.contains_eq_true_iff] at hk
    obtain ⟨r', hr'⟩ := hk
    rcases h.met_new hr with hold | ⟨b, c, l, hb, hc, rfl, rfl⟩
    · exact h'.met_kept hold
    · rcases h'.met_new hr' with hold | ⟨b', c', l', hb', hc', heq, rfl⟩
      · rw [hr', ← hr, h.met_kept hold]
      · obtain ⟨hid, rfl⟩ := Pair.mk.inj heq
        have hV := sound_view hs₀
        have hbadge : c.badge = c'.badge := by
          rw [hV.badge_eq_of_knows hb hc, hV.badge_eq_of_knows hb' hc',
            hV.id_eq_of_knows hb hb' hc hc' hid]
        rw [hr', Criterion.met, Criterion.met, hid, hbadge]

omit hs₀ in
/-- The awards under a key are the same but for their tokens if there is one in both ledgers. -/
theorem get?_award_eq {k : Pair BadgeId LearnerId}
    (hk : s'.awards.contains k = s.awards.contains k) :
    (s'.awards.get? k).map Award.withoutToken = (s.awards.get? k).map Award.withoutToken := by
  cases ha : s.awards.get? k with
  | none =>
    rw [Register.contains_eq_false_iff.2 ha, Register.contains_eq_false_iff] at hk
    rw [hk]
  | some a =>
    rw [Register.contains_eq_true_iff.2 ⟨a, ha⟩, Register.contains_eq_true_iff] at hk
    obtain ⟨a', ha'⟩ := hk
    rcases h.awards_new ha with hold | ⟨b, l, token, hb, hissue, rfl⟩
    · rw [h'.awards_kept hold]
    · rcases h'.awards_new ha' with hold | ⟨b', l', token', hb', hissue', heq⟩
      · rw [ha', ← ha, h.awards_kept hold]
      · obtain ⟨hid, rfl⟩ := Pair.mk.inj heq
        obtain ⟨x, hx, rfl⟩ := Award.issue_eq_ok_iff.1 hissue
        obtain ⟨x', hx', rfl⟩ := Award.issue_eq_ok_iff.1 hissue'
        rw [← expiry_of_lock (hb'.lock_eq hb hid), hx, Except.ok.injEq] at hx'
        rw [ha', Option.map_some, Option.map_some, hid, hx', Award.withoutToken, Award.withoutToken]

/-- Ledgers with the same view that follow a sound one are the same but for the tokens. -/
theorem withoutTokens_eq (hview : s'.view = s.view) : s'.withoutTokens = s.withoutTokens := by
  have hmet : s'.met = s.met := Register.ext_get? fun k =>
    get?_met_eq hs₀ h h' (congrFun (congrFun (congrArg View.recorded hview) k.fst) k.snd)
  have hawards : s'.awards.mapValues (fun _ a => a.withoutToken) =
      s.awards.mapValues fun _ a => a.withoutToken := Register.ext_get? fun k => by
    rw [Register.get?_mapValues, Register.get?_mapValues]
    exact get?_award_eq h h' (congrFun (congrFun (congrArg View.awarded hview) k.fst) k.snd)
  have hbadges : s'.badges = s.badges := congrArg View.badges hview
  simp only [withoutTokens, hmet, hawards, hbadges, h.lastBadge, h'.lastBadge, h.lastCriterion,
    h'.lastCriterion, h.manual, h'.manual]

end Determined

end Follows

/-- A ledger is shown by its view, and it follows the ledger with which the reviews began. -/
structure ShownBy (now : Instant) (s₀ : Ledger) (V : View) (s : Ledger) : Prop where
  view_eq : V = s.view
  sound : V.Sound
  follows : Follows now s₀ s

theorem shownBy_view {now : Instant} {s : Ledger} (hs : s.BadgesSound) :
    ShownBy now s s.view s := ⟨rfl, sound_view hs, .refl⟩

namespace ShownBy

variable {now : Instant} {s₀ s : Ledger} {V : View} {d : Badge} {l : LearnerId}

theorem markMet (h : ShownBy now s₀ V s) (hd : V.Knows d) {c : Criterion} (hc : c ∈ d.criteria) :
    ∃ added s', Store.perform (.markMet (c.met l now)) s = .ok (added, s') ∧
      ShownBy now s₀ (V.record l [c]) s' := by
  obtain ⟨rfl, hV, hfollows⟩ := h
  obtain ⟨stored, hstored, hlock⟩ := View.knows_iff.1 hd
  rw [← hV.badge_eq_of_knows hd hc] at hstored
  have hperform := perform_markMet (r := c.met l now) (s := s) hstored
    ⟨c, criteria_of_lock hlock ▸ hc, rfl⟩
  cases hmet : s.met.contains ⟨c.id, l⟩ with
  | true =>
    refine ⟨false, s, hperform.trans ?_, ?_⟩
    · simp only [Criterion.met, hmet, if_true]
    · rw [View.record_of_recorded hmet]
      exact ⟨rfl, hV, hfollows⟩
  | false =>
    have hnone := Register.contains_eq_false_iff.1 hmet
    refine ⟨true, { s with met := s.met.insert ⟨c.id, l⟩ (c.met l now) }, hperform.trans ?_,
      (view_markMet c).symm, hV.leads (View.leads_record [c]), hfollows.markMet hd hc hnone⟩
    simp only [Criterion.met, hmet, Bool.false_eq_true, if_false]

theorem lock {id : BadgeId} (h : ShownBy now s₀ V s) (hd : V.badges.get? id = some d)
    (hactive : d.status = .active) :
    ∃ s', Store.perform (.setStatus id d.lock.status) s = .ok ((), s') ∧
      ShownBy now s₀ (V.lockBadge id) s' := by
  obtain ⟨rfl, hV, hfollows⟩ := h
  have hstored : s.badges.get? id = some d := hd
  refine ⟨{ s with badges := s.badges.insert id d.lock }, ?_, (view_lock hstored hactive).symm,
    hV.leads View.leads_lockBadge, hfollows.setStatus hstored hactive⟩
  simp only [Store.perform, perform, Ledger.setStatus, hstored]
  rfl

theorem insertAward (h : ShownBy now s₀ V s) (hd : V.Knows d) (hnone : V.awarded d.id l = false)
    {a : Award} {token : String} (ha : Award.issue d l now token = .ok a) :
    ∃ s', Store.perform (.insertAward a) s = .ok (true, s') ∧
      ShownBy now s₀ (V.award d.id l) s' := by
  obtain ⟨rfl, hV, hfollows⟩ := h
  obtain ⟨hbadge, hlearner⟩ := Award.key_of_issue ha
  obtain ⟨stored, hstored, -⟩ := View.knows_iff.1 hd
  have hfree : s.awards.contains ⟨d.id, l⟩ = false := hnone
  have hperform := perform_insertAward (a := a) (s := s) (b := stored) (hbadge ▸ hstored)
  rw [hbadge, hlearner, hfree] at hperform
  exact ⟨{ s with awards := s.awards.insert ⟨d.id, l⟩ a }, hperform, (view_insertAward a).symm,
    hV.leads View.leads_award,
    hfollows.insertAward hd ha (Register.contains_eq_false_iff.1 hfree)⟩

end ShownBy

/-- A ledger answers reviews as its view tells, and no token is taken. -/
theorem viewable (now : Instant) (s₀ : Ledger) :
    Viewable now (ShownBy now s₀) fun _ _ => False where
  sound h := h.sound
  badge id h := by rw [h.view_eq]; rfl
  badges h := by rw [h.view_eq]; rfl
  criterionMet c l h := ⟨_, rfl, by rw [h.view_eq]; rfl⟩
  manualExists b l r h := by rw [h.view_eq]; rfl
  award b l h := ⟨_, rfl, by rw [h.view_eq]; rfl⟩
  markMet l h hb hc := by
    obtain ⟨added, s', hperform, hshown⟩ := h.markMet hb hc
    exact ⟨added, s', hperform, hshown, fun _ h => h⟩
  lock h hb hactive := by
    obtain ⟨s', hperform, hshown⟩ := h.lock hb hactive
    exact ⟨s', hperform, hshown, fun _ h => h⟩
  insertAward h hb hnone ha := by
    obtain ⟨s', hperform, hshown⟩ := h.insertAward hb hnone ha
    exact .inl ⟨s', hperform, hshown, fun _ h => .inl h⟩

end Ledger

end Badging
