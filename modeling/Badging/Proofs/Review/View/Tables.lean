import Badging.Proofs.Review.View

/-!
# The view of tables

Whatever the rows of tables are, they have the badges of a ledger, and reviews see these badges as
they are read back. Every row beside them was written for something and can be read. A token is
taken if an award has it, whichever badge and learner the award is for.
-/

namespace Badging

namespace Tables

open Review

/-- What reviews see of tables that have the badges of a register. -/
def view (B : Register BadgeId Badge) (t : Tables) : View where
  badges := B.mapValues fun _ b => b.rebuilt
  recorded c l := t.met.any fun r => r.criterion == c && r.learner == l
  awarded b l := t.issued.any fun r => r.badge == b && r.learner == l
  granted b l r := t.manualExists b l r

/-- The rows beside the badges were written for records and awards. -/
structure Written (t : Tables) : Prop where
  met : ∀ r ∈ t.met, ∃ m : MetRecord, m.row = r
  issued : ∀ r ∈ t.issued, ∃ a : Award, a.row = r

/-- An award has the token. -/
def Taken (t : Tables) (token : String) : Prop := ∃ r ∈ t.issued, r.token = token

/-- Tables are shown by their view, through a ledger that has their badges. -/
def ShownBy (V : View) (t : Tables) : Prop :=
  ∃ s, HasBadges s t ∧ Written t ∧ V = t.view s.badges

variable {t t' : Tables} {c : CriterionId} {b : BadgeId} {l : LearnerId}

namespace Written

theorem empty : Written .empty := ⟨fun _ hr => (List.not_mem_nil hr).elim,
  fun _ hr => (List.not_mem_nil hr).elim⟩

theorem of_subset (h : Written t) (hmet : ∀ r ∈ t'.met, r ∈ t.met)
    (hissued : ∀ r ∈ t'.issued, r ∈ t.issued) : Written t' :=
  ⟨fun r hr => h.met r (hmet r hr), fun r hr => h.issued r (hissued r hr)⟩

theorem markMet (h : Written t) (m : MetRecord) : Written { t with met := t.met ++ [m.row] } := by
  refine ⟨fun r hr => ?_, h.issued⟩
  rcases List.mem_append.1 hr with hr | hr
  · exact h.met r hr
  · exact ⟨m, (List.mem_singleton.1 hr).symm⟩

theorem insertAward (h : Written t) (a : Award) :
    Written { t with issued := t.issued ++ [a.row] } := by
  refine ⟨h.met, fun r hr => ?_⟩
  rcases List.mem_append.1 hr with hr | hr
  · exact h.issued r hr
  · exact ⟨a, (List.mem_singleton.1 hr).symm⟩

theorem effect (h : Written t) {op : Operation} {a : op.Answer} (heffect : Effect t op a t') :
    Written t' := by
  cases heffect with
  | idle | insertBadge | setStatus | addCriterion | recordManual =>
    exact h.of_subset (fun _ hr => hr) fun _ hr => hr
  | deleteBadge =>
    exact h.of_subset (fun _ hr => List.mem_of_mem_filter hr) fun _ hr => List.mem_of_mem_filter hr
  | deleteCriterion => exact h.of_subset (fun _ hr => List.mem_of_mem_filter hr) fun _ hr => hr
  | markMet => exact h.markMet _
  | insertAward => exact h.insertAward _

theorem of_reaches {ok : (op : Operation) → op.Answer → Prop} (h : Written t)
    (hpath : Store.Reaches ok t t') : Written t' :=
  hpath.preserves (fun ht hperform _ => ht.effect (effect_of_perform hperform)) h

theorem criterionMet (h : Written t) (c : CriterionId) (l : LearnerId) : ∃ r : Option MetRecord,
    t.criterionMet c l = .ok r ∧
      r.isSome = t.met.any fun r => r.criterion == c && r.learner == l := by
  rw [← List.isSome_find?, Tables.criterionMet]
  cases hr : t.met.find? fun r => r.criterion == c && r.learner == l with
  | none => exact ⟨none, rfl, rfl⟩
  | some r =>
    obtain ⟨m, rfl⟩ := h.met r (List.mem_of_find?_eq_some hr)
    refine ⟨some m.wholeSeconds, ?_, rfl⟩
    simp only [MetRow.read_row]
    rfl

theorem award? (h : Written t) (b : BadgeId) (l : LearnerId) : ∃ a : Option Award,
    t.award? b l = .ok a ∧ a.isSome = t.issued.any fun r => r.badge == b && r.learner == l := by
  rw [← List.isSome_find?, Tables.award?]
  cases hr : t.issued.find? fun r => r.badge == b && r.learner == l with
  | none => exact ⟨none, rfl, rfl⟩
  | some r =>
    obtain ⟨a, rfl⟩ := h.issued r (List.mem_of_find?_eq_some hr)
    refine ⟨some a.wholeSeconds, ?_, rfl⟩
    simp only [IssuedRow.read_row]
    rfl

end Written

theorem exists_shownBy {ok : (op : Operation) → op.Answer → Prop}
    (h : Store.Reaches ok Tables.empty t) : ∃ V, ShownBy V t := by
  obtain ⟨s, hs⟩ := catalog.exists_of_reaches HasBadges.empty h
  exact ⟨t.view s.badges, s, hs, Written.empty.of_reaches h, rfl⟩

theorem HasBadges.sound_view {s : Ledger} (M : HasBadges s t) : (t.view s.badges).Sound :=
  View.Sound.of_badges M.sound.toBadgesSound Badge.rebuilt (fun _ => rfl)
    (fun _ => ⟨Criterion.rebuilt, rfl, fun _ => ⟨rfl, rfl⟩⟩) rfl

/-- A badge that is known is stored, with criteria of the same identities. -/
theorem exists_stored {s : Ledger} {b : Badge} (hb : (t.view s.badges).Knows b) :
    ∃ d, s.badges.get? b.id = some d ∧ ∀ c ∈ b.criteria, ∃ c' ∈ d.criteria, c'.id = c.id := by
  obtain ⟨d, hd, hlock⟩ := View.knows_iff.1 hb
  rw [view, Register.get?_mapValues, Option.map_eq_some_iff] at hd
  obtain ⟨d, hd, rfl⟩ := hd
  refine ⟨d, hd, fun c hc => ?_⟩
  rw [← criteria_of_lock hlock] at hc
  obtain ⟨c', hc', rfl⟩ := List.mem_map.1 hc
  exact ⟨c', hc', rfl⟩

section Changes

variable {B : Register BadgeId Badge} {now : Instant}

theorem view_markMet (k : Criterion) :
    view B { t with met := t.met ++ [(k.met l now).row] } = (view B t).record l [k] := by
  simp only [view, View.record, View.mk.injEq, true_and]
  refine ⟨?_, rfl⟩
  funext c' l'
  simp only [List.any_append, List.any_cons, List.any_nil, Bool.or_false]
  by_cases hl : l' = l
  · subst hl
    simp [extend, MetRecord.row, Criterion.met]
  · simp [hl, Ne.symm hl, MetRecord.row, Criterion.met]

theorem view_insertAward (a : Award) :
    view B { t with issued := t.issued ++ [a.row] } = (view B t).award a.badge a.learner := by
  simp only [view, View.award, View.mk.injEq, true_and]
  refine ⟨?_, rfl⟩
  funext b' l'
  simp only [List.any_append, List.any_cons, List.any_nil, Bool.or_false, Award.row,
    beq_eq_decide, Bool.decide_and, eq_comm]

theorem view_modify (rows : List BadgeRow) :
    view (B.modify b Badge.afterAward) { t with badges := rows } = (view B t).lockBadge b := by
  simp only [view, View.lockBadge, View.mk.injEq, true_and]
  refine ⟨Register.ext_get? fun k => ?_, rfl⟩
  simp only [Register.modify, Register.get?_mapValues, Option.map_map]
  congr 1
  funext d
  dsimp only [Function.comp]
  split
  · exact catalog.form_afterAward d
  · rfl

end Changes

namespace ShownBy

variable {V : View} {now : Instant} {d : Badge}

theorem markMet (h : ShownBy V t) (hd : V.Knows d) {k : Criterion} (hk : k ∈ d.criteria) :
    ∃ added t', Store.perform (.markMet (k.met l now)) t = .ok (added, t') ∧
      ShownBy (V.record l [k]) t' ∧ ∀ token, Taken t' token → Taken t token := by
  obtain ⟨s, M, W, rfl⟩ := h
  obtain ⟨stored, hstored, hcriteria⟩ := exists_stored hd
  obtain ⟨k', hk', hid⟩ := hcriteria k hk
  cases hmet : t.met.any fun r => r.criterion == k.id && r.learner == l with
  | true =>
    refine ⟨false, t, ?_, ⟨s, M, W, View.record_of_recorded hmet⟩, fun _ h => h⟩
    simp only [Store.perform, perform, Tables.markMet, Criterion.met, hmet, if_true]
  | false =>
    have hcriterion : t.criteria.any (·.id == k.id) = true :=
      M.any_criteria_iff.2 ⟨_, stored, k', hstored, hk', hid⟩
    have hbadge : t.badges.any (·.id == k.badge) = true := by
      rw [M.any_badges M.sound.toBadgesSound, M.sound_view.badge_eq_of_knows hd hk]
      exact Register.contains_eq_true_iff.2 ⟨stored, hstored⟩
    refine ⟨true, { t with met := t.met ++ [(k.met l now).row] }, ?_,
      ⟨s, ⟨M.of_rows, M.sound⟩, W.markMet _, (view_markMet k).symm⟩, fun _ h => h⟩
    simp only [Store.perform, perform, Tables.markMet, Criterion.met, hmet, hcriterion, hbadge,
      Bool.false_eq_true, Bool.and_self, if_false, if_true]
    rfl

theorem lock (h : ShownBy V t) (hd : V.badges.get? b = some d) (hactive : d.status = .active) :
    ∃ t', Store.perform (.setStatus b d.lock.status) t = .ok ((), t') ∧
      ShownBy (V.lockBadge b) t' ∧ ∀ token, Taken t' token → Taken t token := by
  obtain ⟨s, M, W, rfl⟩ := h
  rw [view, Register.get?_mapValues, Option.map_eq_some_iff] at hd
  obtain ⟨stored, hstored, rfl⟩ := hd
  have hany : t.badges.any (·.id == b) = true := by
    rw [M.any_badges M.sound.toBadgesSound]
    exact Register.contains_eq_true_iff.2 ⟨stored, hstored⟩
  have hafter : stored.afterAward = stored.lock := if_pos hactive
  have hlock : s.badges.insert b stored.lock = s.badges.modify b Badge.afterAward := by
    rw [← Register.insert_eq_modify hstored, hafter]
  refine ⟨_, ?_, ⟨{ s with badges := s.badges.insert b stored.lock },
    ⟨M.setStatus M.sound.toBadgesSound hstored stored.lock.status, M.sound.setStatus hstored _⟩,
    W.of_subset (fun _ hr => hr) fun _ hr => hr, ?_⟩, fun _ h => h⟩
  · simp only [Store.perform, perform, setStatus, hany, if_true]
    rfl
  · rw [hlock]
    exact (view_modify _).symm

theorem insertAward (h : ShownBy V t) (hd : V.Knows d) (hnone : V.awarded d.id l = false)
    {a : Award} {token : String} (ha : Award.issue d l now token = .ok a) :
    (∃ t', Store.perform (.insertAward a) t = .ok (true, t') ∧ ShownBy (V.award d.id l) t' ∧
        ∀ token', Taken t' token' → Taken t token' ∨ token' = token) ∨
      Taken t token ∧ Store.perform (.insertAward a) t = .ok (false, t) := by
  obtain ⟨s, M, W, rfl⟩ := h
  obtain ⟨hbadge, hlearner⟩ := Award.key_of_issue ha
  obtain ⟨x, -, haward⟩ := Award.issue_eq_ok_iff.1 ha
  have htoken : a.token = token := by rw [haward]
  obtain ⟨stored, hstored, -⟩ := exists_stored hd
  by_cases htaken : Taken t token
  · refine .inr ⟨htaken, ?_⟩
    obtain ⟨r, hr, hrtoken⟩ := htaken
    have hany : (t.issued.any fun x => x.token == a.token ||
        (x.badge == a.badge && x.learner == a.learner)) = true :=
      List.any_eq_true.2 ⟨r, hr, by simp [hrtoken, htoken]⟩
    simp only [Store.perform, perform, Tables.insertAward, hany, if_true]
  · have hshown : (view s.badges t).award d.id l =
        view s.badges { t with issued := t.issued ++ [a.row] } := by
      rw [view_insertAward, hbadge, hlearner]
    refine .inl ⟨{ t with issued := t.issued ++ [a.row] },
      perform_insertAward_true_iff.2 ⟨?_, ?_, ?_, rfl⟩,
      ⟨s, ⟨M.of_rows, M.sound⟩, W.insertAward a, hshown⟩, fun token' h => ?_⟩
    · rw [hbadge]
      exact M.exists_badge_iff.2 ⟨stored, hstored⟩
    · rw [issuedTo_eq_nil_iff, hbadge, hlearner]
      have hnone' : (t.issued.any fun r => r.badge == d.id && r.learner == l) = false := hnone
      simpa using hnone'
    · rw [htoken]
      exact fun x hx heq => htaken ⟨x, hx, heq⟩
    · obtain ⟨r, hr, rfl⟩ := h
      rcases List.mem_append.1 hr with hr | hr
      · exact .inl ⟨r, hr, rfl⟩
      · rw [List.mem_singleton.1 hr]
        exact .inr htoken

end ShownBy

/-- Tables answer reviews as their view tells. -/
theorem viewable (now : Instant) : Viewable now ShownBy Taken where
  sound := by
    rintro V t ⟨s, M, -, rfl⟩
    exact M.sound_view
  badge := by
    rintro V t id ⟨s, M, -, rfl⟩
    rw [view, Register.get?_mapValues]
    exact catalog.badge id M
  badges := by
    rintro V t ⟨s, M, -, rfl⟩
    rw [catalog.badges M, view, Register.values_mapValues]
  criterionMet := by
    rintro V t c l ⟨s, M, W, rfl⟩
    obtain ⟨r, hr, hsome⟩ := W.criterionMet c l
    refine ⟨r, ?_, hsome⟩
    show (t.criterionMet c l).map (·, t) = _
    rw [hr]
    rfl
  manualExists := by
    rintro V t b l r ⟨s, M, W, rfl⟩
    rfl
  award := by
    rintro V t b l ⟨s, M, W, rfl⟩
    obtain ⟨a, ha, hsome⟩ := W.award? b l
    refine ⟨a, ?_, hsome⟩
    show (t.award? b l).map (·, t) = _
    rw [ha]
    rfl
  markMet l h hb hc := h.markMet hb hc
  lock h hb hactive := h.lock hb hactive
  insertAward h hb hnone ha := h.insertAward hb hnone ha

end Tables

end Badging
