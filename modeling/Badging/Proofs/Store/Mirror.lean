import Badging.Proofs.Store.Answer
import Badging.Proofs.Store.Ledger.Sound
import Badging.Proofs.Store.Rows

/-!
# Tables that mirror a ledger

Tables mirror a ledger if they hold the rows of what the ledger stores: the badges in the order of
their identities, for each badge the criteria in the order in which they were added, for each
criterion its parameters, and the rows beside them in whatever order. What the tables answer is then
what the ledger answers, read back. Each change of the ledger has a change of the tables after which
they mirror it again.
-/

namespace Badging

open Tables

/-- The tables hold the badges of the ledger with their criteria. -/
structure MirrorsBadges (s : Ledger) (t : Tables) : Prop where
  lastBadge : t.lastBadge = s.lastBadge
  lastCriterion : t.lastCriterion = s.lastCriterion
  badges : t.badges = s.badges.values.map Badge.row
  criteria : ∀ {id b}, s.badges.get? id = some b →
    t.criteria.filter (·.badge == id) = b.criteria.map Criterion.row
  owned : ∀ {r}, r ∈ t.criteria → ∃ b, s.badges.get? r.badge = some b
  params : ∀ {id b c}, s.badges.get? id = some b → c ∈ b.criteria →
    t.params.filter (·.criterion == c.id) = c.paramRows
  params_le : ∀ {p}, p ∈ t.params → p.criterion.val ≤ s.lastCriterion
  legible : ∀ {id b}, s.badges.get? id = some b → b.Legible

/-- The tables hold the rows beside the badges of the ledger. -/
structure MirrorsRows (s : Ledger) (t : Tables) : Prop where
  met : s.met.Holds MetRecord.row t.met
  manual : s.manual.Holds ManualAward.row t.manual
  issued : s.awards.Holds Award.row t.issued

/-- The tables hold what the ledger holds, which is sound. -/
structure Mirrors (s : Ledger) (t : Tables) : Prop extends MirrorsBadges s t, MirrorsRows s t where
  sound : s.Sound

theorem mirrors_empty : Mirrors .empty .empty where
  lastBadge := rfl
  lastCriterion := rfl
  badges := rfl
  criteria h := by cases h
  owned h := by cases h
  params h := by cases h
  params_le h := by cases h
  legible h := by cases h
  met := .empty
  manual := .empty
  issued := .empty
  sound := Ledger.sound_empty

variable {s : Ledger} {t : Tables}

namespace MirrorsBadges

variable (M : MirrorsBadges s t)

include M

theorem holds : s.badges.Holds Badge.row t.badges := .of_eq M.badges

theorem exists_criterion {r : CriterionRow} (hr : r ∈ t.criteria) :
    ∃ b, s.badges.get? r.badge = some b ∧ ∃ c ∈ b.criteria, c.row = r := by
  obtain ⟨b, hb⟩ := M.owned hr
  have hmem : r ∈ t.criteria.filter (·.badge == r.badge) := List.mem_filter.2 ⟨hr, by simp⟩
  rw [M.criteria hb] at hmem
  obtain ⟨c, hc, heq⟩ := List.mem_map.1 hmem
  exact ⟨b, hb, c, hc, heq⟩

theorem row_mem {id : BadgeId} {b : Badge} {c : Criterion} (hb : s.badges.get? id = some b)
    (hc : c ∈ b.criteria) : c.row ∈ t.criteria := by
  have hmem : c.row ∈ b.criteria.map Criterion.row := List.mem_map_of_mem hc
  rw [← M.criteria hb] at hmem
  exact List.mem_of_mem_filter hmem

theorem any_criteria_iff {id : CriterionId} : t.criteria.any (·.id == id) = true ↔
    ∃ k b c, s.badges.get? k = some b ∧ c ∈ b.criteria ∧ c.id = id := by
  rw [List.any_eq_true]
  constructor
  · rintro ⟨r, hr, heq⟩
    obtain ⟨b, hb, c, hc, rfl⟩ := M.exists_criterion hr
    exact ⟨_, b, c, hb, hc, beq_iff_eq.1 heq⟩
  · rintro ⟨k, b, c, hb, hc, rfl⟩
    exact ⟨c.row, M.row_mem hb hc, beq_self_eq_true _⟩

theorem id_ne_of_any_criteria {id : CriterionId} (h : t.criteria.any (·.id == id) = false)
    {k : BadgeId} {b : Badge} {c : Criterion} (hb : s.badges.get? k = some b)
    (hc : c ∈ b.criteria) : c.id ≠ id := by
  intro hid
  rw [M.any_criteria_iff.2 ⟨k, b, c, hb, hc, hid⟩] at h
  cases h

theorem criteriaOf_eq {id : BadgeId} {b : Badge} (hb : s.badges.get? id = some b) :
    t.criteriaOf id = .ok (b.criteria.map Criterion.rebuilt) := by
  have hparams {c : Criterion} (hc : c ∈ b.criteria) : t.paramsOf c.id = c.kind.params := by
    have hpairs : (c.paramRows.map fun p => (p.name, p.value)) = c.kind.params.entries := by
      rw [Criterion.paramRows, List.map_map]
      exact List.map_id _
    rw [paramsOf, M.params hb hc, hpairs, Register.ofList_entries]
  rw [criteriaOf, M.criteria hb, mapM_eq_ok_iff, List.forall₂_map_left_iff,
    List.forall₂_map_right_iff, List.forall₂_same]
  intro c hc
  show c.row.read (t.paramsOf c.id) = _
  rw [hparams hc, CriterionRow.read_row (M.legible hb c hc)]

theorem params_of_insert {id j : BadgeId} {b b' d : Badge} {c : Criterion}
    (hb : s.badges.get? id = some b) (hj : (s.badges.insert id b').get? j = some d)
    (hc : c ∈ d.criteria) (hsub : ∀ c ∈ b'.criteria, c ∈ b.criteria) :
    t.params.filter (·.criterion == c.id) = c.paramRows := by
  rcases Register.get?_insert_eq_some_iff.1 hj with ⟨rfl, rfl⟩ | ⟨-, hj⟩
  · exact M.params hb (hsub c hc)
  · exact M.params hj hc

variable (hs : s.BadgesSound)

include hs

theorem find?_badges (id : BadgeId) :
    t.badges.find? (·.id == id) = (s.badges.get? id).map Badge.row := by
  refine M.holds.find?_eq fun k b hb => ?_
  rw [beq_iff_eq, ← (hs.badge hb).id_eq]
  rfl

theorem any_badges (id : BadgeId) : t.badges.any (·.id == id) = s.badges.contains id := by
  refine M.holds.any_eq fun k b hb => ?_
  rw [beq_iff_eq, ← (hs.badge hb).id_eq]
  rfl

theorem belongs_iff {id : CriterionId} {k : BadgeId} : t.belongs id k = true ↔
    ∃ b, s.badges.get? k = some b ∧ ∃ c ∈ b.criteria, c.id = id := by
  simp only [belongs, List.any_eq_true, Bool.and_eq_true, beq_iff_eq]
  constructor
  · rintro ⟨r, hr, rfl, rfl⟩
    obtain ⟨b, hb, c, hc, rfl⟩ := M.exists_criterion hr
    exact ⟨b, hb, c, hc, rfl⟩
  · rintro ⟨b, hb, c, hc, rfl⟩
    refine ⟨c.row, M.row_mem hb hc, rfl, ?_⟩
    show c.badge = k
    rw [(hs.badge hb).badge_eq c hc]

theorem readBadge_row {id : BadgeId} {b : Badge} (hb : s.badges.get? id = some b) :
    t.readBadge b.row = .ok b.rebuilt := by
  have hcriteria : t.criteriaOf b.row.id = .ok (b.criteria.map Criterion.rebuilt) := by
    show t.criteriaOf b.id = _
    rw [(hs.badge hb).id_eq, M.criteriaOf_eq hb]
  rw [readBadge, hcriteria]
  exact BadgeRow.read_row b _

theorem badge?_eq (id : BadgeId) : t.badge? id = .ok ((s.badges.get? id).map Badge.rebuilt) := by
  rw [badge?, M.find?_badges hs]
  cases hb : s.badges.get? id with
  | none => rfl
  | some b =>
    simp only [Option.map_some, M.readBadge_row hs hb]
    rfl

theorem mapM_readBadge : t.badges.mapM t.readBadge = .ok (s.badges.values.map Badge.rebuilt) := by
  rw [M.badges, mapM_eq_ok_iff, List.forall₂_map_left_iff, List.forall₂_map_right_iff,
    List.forall₂_same]
  intro b hb
  obtain ⟨k, hk⟩ := Register.mem_values_iff.1 hb
  exact M.readBadge_row hs hk

theorem eq_row_of_id {id : BadgeId} {b : Badge} (hb : s.badges.get? id = some b) {r : BadgeRow}
    (hr : r ∈ t.badges) (hid : r.id = id) : r = b.row := by
  obtain ⟨k, d, hd, rfl⟩ := M.holds.mem_iff.1 hr
  have hk : k = id := (hs.badge hd).id_eq.symm.trans hid
  rw [hk, hb, Option.some.injEq] at hd
  rw [hd]

theorem rows_insert {id : BadgeId} {b : Badge} (hb : s.badges.get? id = some b) (b' : Badge) :
    (s.badges.insert id b').values.map Badge.row =
      t.badges.map fun r => if r.id = id then b'.row else r := by
  rw [Register.insert_eq_mapValues hb, M.badges]
  simp only [Register.values, Register.mapValues, List.map_map]
  refine List.map_congr_left fun e he => ?_
  have hid : e.2.row.id = e.1 := (hs.badge (Register.mem_entries_iff.1 he)).id_eq
  simp only [Function.comp_apply, hid, Std.LawfulEqCmp.compare_eq_iff_eq]
  split <;> rfl

/-- A badge in the place of a stored one is mirrored if its own criteria and parameters are, and
those of the others stay. -/
theorem put {id : BadgeId} {b b' : Badge} {last last' : Int} {badges : List BadgeRow}
    {criteria : List CriterionRow} {params : List ParamRow} (hb : s.badges.get? id = some b)
    (hlast : s.lastCriterion ≤ last) (hlast' : last' = last)
    (hbadges : badges = t.badges.map fun r => if r.id = id then b'.row else r)
    (hcriteria : criteria.filter (·.badge == id) = b'.criteria.map Criterion.row)
    (hothers : ∀ {j d}, j ≠ id → s.badges.get? j = some d →
      criteria.filter (·.badge == j) = t.criteria.filter (·.badge == j))
    (howned : ∀ {r}, r ∈ criteria → r ∈ t.criteria ∨ r.badge = id)
    (hparams : ∀ {j d c}, (s.badges.insert id b').get? j = some d → c ∈ d.criteria →
      params.filter (·.criterion == c.id) = c.paramRows)
    (hparams_le : ∀ {p}, p ∈ params → p ∈ t.params ∨ p.criterion.val ≤ last)
    (hlegible : b'.Legible) :
    MirrorsBadges { s with lastCriterion := last, badges := s.badges.insert id b' } { t with
      lastCriterion := last', badges := badges, criteria := criteria, params := params } where
  lastBadge := M.lastBadge
  lastCriterion := hlast'
  badges := by rw [M.rows_insert hs hb, hbadges]
  criteria {j d} hj := by
    rcases Register.get?_insert_eq_some_iff.1 hj with ⟨rfl, rfl⟩ | ⟨hne, hj⟩
    · exact hcriteria
    · rw [hothers hne hj, M.criteria hj]
  owned {r} hr := by
    by_cases hid : r.badge = id
    · exact ⟨b', by rw [hid, Register.get?_insert_self]⟩
    · obtain ⟨d, hd⟩ := M.owned ((howned hr).resolve_right hid)
      exact ⟨d, by rw [Register.get?_insert_of_ne _ hid, hd]⟩
  params := hparams
  params_le {p} hp := by
    rcases hparams_le hp with hp | hp
    · exact Int.le_trans (M.params_le hp) hlast
    · exact hp
  legible {j d} hj := by
    rcases Register.get?_insert_eq_some_iff.1 hj with ⟨rfl, rfl⟩ | ⟨-, hj⟩
    · exact hlegible
    · exact M.legible hj

theorem badges_eq_of_row {id : BadgeId} {b b' : Badge} (hb : s.badges.get? id = some b)
    (hrow : b'.row = b.row) : t.badges = t.badges.map fun r => if r.id = id then b'.row else r := by
  refine (List.map_id _).symm.trans (List.map_congr_left fun r hr => ?_)
  split
  · next hid => rw [hrow, M.eq_row_of_id hs hb hr hid]; rfl
  · rfl

theorem setStatus {id : BadgeId} {b : Badge} (hb : s.badges.get? id = some b) (status : Status) :
    MirrorsBadges { s with badges := s.badges.insert id { b with status := status } }
      { t with badges := t.badges.map fun r =>
        if r.id = id then { r with status := status.code } else r } := by
  have hbadges : (t.badges.map fun r => if r.id = id then { r with status := status.code } else r) =
      t.badges.map fun r => if r.id = id then Badge.row { b with status := status } else r := by
    refine List.map_congr_left fun r hr => ?_
    split
    · next hid =>
      rw [M.eq_row_of_id hs hb hr hid]
      rfl
    · rfl
  have hcriteria : t.criteria.filter (·.badge == id) =
      b.criteria.map Criterion.row := M.criteria hb
  have hlegible : b.Legible := M.legible hb
  exact M.put hs hb (Int.le_refl _) M.lastCriterion hbadges hcriteria (fun _ _ => rfl) .inl
    (fun hj hc => M.params_of_insert hb hj hc fun _ h => h) .inl hlegible

theorem addCriterion {id : BadgeId} {b : Badge} {c : Criterion} {record : Criterion.Record}
    (hb : s.badges.get? id = some b) (hc : b.prepare ⟨s.lastCriterion + 1⟩ record = .ok c) :
    MirrorsBadges { s with
      lastCriterion := s.lastCriterion + 1
      badges := s.badges.insert id { b with criteria := b.criteria ++ [c] } } { t with
        lastCriterion := s.lastCriterion + 1
        criteria := t.criteria ++ [c.row]
        params := t.params ++ c.paramRows } := by
  obtain ⟨-, hread, -⟩ := Badge.prepare_eq_ok_iff.1 hc
  obtain ⟨hcid, hcbadge⟩ := Criterion.id_of_ofRecord hread
  have hcrow : c.row.badge = id := hcbadge.trans (hs.badge hb).id_eq
  -- The new identity is larger than all others, so no stored parameter is about it.
  have hnew : ∀ {j d e}, s.badges.get? j = some d → e ∈ d.criteria → e.id ≠ c.id := by
    intro j d e hd he heq
    have hle := ((hs.badge hd).criterion_range e he).2
    rw [heq, hcid] at hle
    dsimp only at hle
    omega
  refine M.put hs hb (by omega) rfl (M.badges_eq_of_row hs hb rfl) ?_
    (fun {j d} hne hj => ?_) (fun {r} hr => ?_) (fun {j d e} hj he => ?_) (fun {p} hp => ?_)
    (fun e he => ?_)
  · rw [List.filter_append, M.criteria hb, List.map_append]
    simp [hcrow]
  · rw [List.filter_append]
    simp [hcrow, Ne.symm hne]
  · rcases List.mem_append.1 hr with hr | hr
    · exact .inl hr
    · rw [List.mem_singleton.1 hr]
      exact .inr hcrow
  · rw [List.filter_append]
    have hold : ∀ {j d}, s.badges.get? j = some d → e ∈ d.criteria →
        t.params.filter (·.criterion == e.id) ++ c.paramRows.filter (·.criterion == e.id) =
          e.paramRows := by
      intro j d hd he
      rw [M.params hd he, Criterion.filter_paramRows_of_ne (hnew hd he).symm, List.append_nil]
    rcases Register.get?_insert_eq_some_iff.1 hj with ⟨rfl, rfl⟩ | ⟨-, hj⟩
    · rcases List.mem_append.1 he with he | he
      · exact hold hb he
      · rw [List.mem_singleton.1 he, Criterion.filter_paramRows_self]
        have hnone : t.params.filter (·.criterion == c.id) = [] := by
          refine List.filter_eq_nil_iff.2 fun p hp heq => ?_
          have hle := M.params_le hp
          rw [beq_iff_eq.1 heq, hcid] at hle
          dsimp only at hle
          omega
        rw [hnone, List.nil_append]
    · exact hold hj he
  · rcases List.mem_append.1 hp with hp | hp
    · exact .inl hp
    · rw [Criterion.criterion_of_mem_paramRows hp, hcid]
      exact .inr (Int.le_refl _)
  · rcases List.mem_append.1 he with he | he
    · exact M.legible hb e he
    · rw [List.mem_singleton.1 he]
      exact Criterion.legible_of_ofRecord hread

theorem deleteCriterion {id : CriterionId} {key : BadgeId} {b : Badge}
    (hb : s.badges.get? key = some b) (hc : ∃ c ∈ b.criteria, c.id = id) :
    MirrorsBadges { s with
      badges := s.badges.insert key { b with criteria := b.criteria.filter (·.id ≠ id) } } { t with
        criteria := t.criteria.filter (·.id ≠ id)
        params := t.params.filter (·.criterion ≠ id) } := by
  obtain ⟨c, hc, rfl⟩ := hc
  refine M.put hs hb (Int.le_refl _) M.lastCriterion (M.badges_eq_of_row hs hb rfl) ?_
    (fun {j d} hne hj => ?_) (fun {r} hr => .inl (List.mem_of_mem_filter hr))
    (fun {j d e} hj he => ?_) (fun {p} hp => .inl (List.mem_of_mem_filter hp))
    fun e he => M.legible hb e (List.mem_of_mem_filter he)
  · rw [List.filter_filter, List.filter_congr (fun _ _ => Bool.and_comm _ _), ← List.filter_filter,
      M.criteria hb, List.filter_map]
    rfl
  · refine filter_filter_of_imp fun r hr hj' => decide_eq_true ?_
    intro heq
    obtain ⟨d', hd', e, he, rfl⟩ := M.exists_criterion hr
    have hkey := hs.owner_unique hd' hb he hc heq
    exact hne ((beq_iff_eq.1 hj').symm.trans hkey)
  · have hne : e.id ≠ c.id := by
      rcases Register.get?_insert_eq_some_iff.1 hj with ⟨rfl, rfl⟩ | ⟨hjk, hj⟩
      · simpa using (List.mem_filter.1 he).2
      · intro heq
        exact hjk (hs.owner_unique hj hb he hc heq)
    rw [← M.params_of_insert hb hj he fun _ h => List.mem_of_mem_filter h]
    refine filter_filter_of_imp fun p _ heq => decide_eq_true ?_
    rw [beq_iff_eq.1 heq]
    exact hne

theorem insertBadge (new : NewBadge) :
    MirrorsBadges { s with
      lastBadge := s.lastBadge + 1
      badges := s.badges.insert ⟨s.lastBadge + 1⟩ (.ofNew ⟨s.lastBadge + 1⟩ new) } { t with
        lastBadge := s.lastBadge + 1
        badges := t.badges ++ [(Badge.ofNew ⟨s.lastBadge + 1⟩ new).row] } where
  lastBadge := rfl
  lastCriterion := M.lastCriterion
  badges := by
    have hlast : ∀ e ∈ s.badges.entries, compare e.1 (⟨s.lastBadge + 1⟩ : BadgeId) = .lt := by
      intro e he
      have hle := (hs.badge_range (Register.mem_entries_iff.1 he)).2
      exact Ident.compare_eq_lt_iff.2 (Int.lt_add_one_of_le hle)
    show t.badges ++ _ = (s.badges.insert _ _).values.map Badge.row
    rw [M.badges, Register.values, Register.values, Register.entries_insert_last hlast]
    simp
  criteria {j d} hj := by
    rcases Register.get?_insert_eq_some_iff.1 hj with ⟨rfl, rfl⟩ | ⟨-, hj⟩
    · refine List.filter_eq_nil_iff.2 fun r hr heq => ?_
      obtain ⟨b, hb⟩ := M.owned hr
      rw [beq_iff_eq.1 heq, hs.get?_next] at hb
      cases hb
    · exact M.criteria hj
  owned hr := by
    obtain ⟨b, hb⟩ := M.owned hr
    obtain ⟨b', hb', -⟩ := Ledger.exists_get?_insert_new hs.get?_next hb
    exact ⟨b', hb'⟩
  params {j d c} hj hc := by
    rcases Register.get?_insert_eq_some_iff.1 hj with ⟨rfl, rfl⟩ | ⟨-, hj⟩
    · cases hc
    · exact M.params hj hc
  params_le := M.params_le
  legible {j d} hj := by
    rcases Register.get?_insert_eq_some_iff.1 hj with ⟨rfl, rfl⟩ | ⟨-, hj⟩
    · intro c hc
      cases hc
    · exact M.legible hj

theorem deleteBadge (id : BadgeId) :
    MirrorsBadges { s with badges := s.badges.erase id } { t with
      badges := t.badges.filter (·.id ≠ id)
      criteria := t.criteria.filter (·.badge ≠ id)
      params := t.params.filter fun r => !t.belongs r.criterion id } where
  lastBadge := M.lastBadge
  lastCriterion := M.lastCriterion
  badges := by
    have hentries : s.badges.entries.filter (fun e => decide (compare id e.1 ≠ .eq)) =
        s.badges.entries.filter fun e => decide (e.2.row.id ≠ id) := by
      refine List.filter_congr fun e he => ?_
      have hid : e.2.row.id = e.1 := (hs.badge (Register.mem_entries_iff.1 he)).id_eq
      rw [hid, decide_eq_decide, ne_eq, ne_eq, Std.LawfulEqCmp.compare_eq_iff_eq, eq_comm]
    show t.badges.filter _ = _
    rw [M.badges]
    simp only [Register.values, Register.erase, Register.filter, hentries, List.filter_map,
      List.map_map]
    rfl
  criteria {j d} hj := by
    obtain ⟨hne, hj⟩ := Register.get?_erase_eq_some_iff.1 hj
    rw [← M.criteria hj]
    refine filter_filter_of_imp fun r _ heq => decide_eq_true ?_
    rw [beq_iff_eq.1 heq]
    exact hne
  owned {r} hr := by
    obtain ⟨hr, hne⟩ := List.mem_filter.1 hr
    obtain ⟨b, hb⟩ := M.owned hr
    exact ⟨b, Register.get?_erase_eq_some_iff.2 ⟨by simpa using hne, hb⟩⟩
  params {j d c} hj hc := by
    obtain ⟨hne, hj⟩ := Register.get?_erase_eq_some_iff.1 hj
    -- A criterion of another badge does not belong to the one that is removed.
    have hkept : t.belongs c.id id = false := by
      refine Bool.eq_false_iff.2 fun hgone => ?_
      obtain ⟨b, hb, e, he, heq⟩ := (M.belongs_iff hs).1 hgone
      exact hne (hs.owner_unique hj hb hc he heq.symm)
    rw [← M.params hj hc]
    refine filter_filter_of_imp fun p _ heq => ?_
    rw [beq_iff_eq.1 heq, hkept]
    rfl
  params_le hp := M.params_le (List.mem_of_mem_filter hp)
  legible hj := M.legible (Register.get?_erase_eq_some_iff.1 hj).2

omit hs in
theorem of_rows {met : Register (Pair CriterionId LearnerId) MetRecord}
    {manual : Register (Pair BadgeId (Pair LearnerId RoleId)) ManualAward}
    {awards : Register (Pair BadgeId LearnerId) Award} {met' : List MetRow}
    {manual' : List ManualRow} {issued : List IssuedRow} :
    MirrorsBadges { s with met := met, manual := manual, awards := awards }
      { t with met := met', manual := manual', issued := issued } :=
  ⟨M.lastBadge, M.lastCriterion, M.badges, M.criteria, M.owned, M.params, M.params_le, M.legible⟩

end MirrorsBadges

namespace Ledger.RowsSound

variable (hs : s.RowsSound)

include hs

theorem met_key (c : CriterionId) (l : LearnerId) {k : Pair CriterionId LearnerId} {r : MetRecord}
    (hr : s.met.get? k = some r) :
    (r.row.criterion == c && r.row.learner == l) = true ↔ k = ⟨c, l⟩ := by
  rw [(hs.met hr).1, Bool.and_eq_true, beq_iff_eq, beq_iff_eq, Pair.mk.injEq]
  rfl

theorem manual_key (b : BadgeId) (l : LearnerId) (o : RoleId)
    {k : Pair BadgeId (Pair LearnerId RoleId)} {a : ManualAward} (ha : s.manual.get? k = some a) :
    (a.row.badge == b && a.row.recipient == l && a.row.issuerRole == o) = true ↔
      k = ⟨b, l, o⟩ := by
  rw [(hs.manual ha).1, Bool.and_eq_true, Bool.and_eq_true, beq_iff_eq, beq_iff_eq, beq_iff_eq,
    Pair.mk.injEq, Pair.mk.injEq, and_assoc]
  rfl

theorem award_key (b : BadgeId) (l : LearnerId) {k : Pair BadgeId LearnerId} {a : Award}
    (ha : s.awards.get? k = some a) :
    (a.row.badge == b && a.row.learner == l) = true ↔ k = ⟨b, l⟩ := by
  rw [(hs.awards ha).1, Bool.and_eq_true, beq_iff_eq, beq_iff_eq, Pair.mk.injEq]
  rfl

end Ledger.RowsSound

namespace MirrorsRows

theorem of_badges (M : MirrorsRows s t) {lastBadge lastCriterion lastBadge' lastCriterion' : Int}
    {badges : Register BadgeId Badge} {badges' : List BadgeRow} {criteria : List CriterionRow}
    {params : List ParamRow} :
    MirrorsRows
      { s with lastBadge := lastBadge, lastCriterion := lastCriterion, badges := badges }
      { t with
        lastBadge := lastBadge', lastCriterion := lastCriterion', badges := badges'
        criteria := criteria, params := params } :=
  ⟨M.met, M.manual, M.issued⟩

variable (M : MirrorsRows s t) (hs : s.RowsSound)

include M hs

theorem any_met (c : CriterionId) (l : LearnerId) :
    (t.met.any fun r => r.criterion == c && r.learner == l) = s.met.contains ⟨c, l⟩ :=
  M.met.any_eq fun _ _ hr => hs.met_key c l hr

theorem any_manual (b : BadgeId) (l : LearnerId) (o : RoleId) :
    (t.manual.any fun r => r.badge == b && r.recipient == l && r.issuerRole == o) =
      s.manual.contains ⟨b, l, o⟩ :=
  M.manual.any_eq fun _ _ ha => hs.manual_key b l o ha

theorem criterionMet_eq (c : CriterionId) (l : LearnerId) :
    t.criterionMet c l = .ok ((s.met.get? ⟨c, l⟩).map MetRecord.wholeSeconds) := by
  rw [criterionMet, M.met.find?_eq fun k r hr => hs.met_key c l hr]
  cases s.met.get? ⟨c, l⟩ with
  | none => rfl
  | some r =>
    simp only [Option.map_some, MetRow.read_row]
    rfl

theorem award?_eq (b : BadgeId) (l : LearnerId) :
    t.award? b l = .ok ((s.awards.get? ⟨b, l⟩).map Award.wholeSeconds) := by
  rw [award?, M.issued.find?_eq fun k a ha => hs.award_key b l ha]
  cases s.awards.get? ⟨b, l⟩ with
  | none => rfl
  | some a =>
    simp only [Option.map_some, IssuedRow.read_row]
    rfl

/-- The met records of a learner stand in the order of their criteria. -/
theorem metRecords_eq (b : BadgeId) (l : LearnerId) :
    t.metRecords b l = .ok ((s.metRecords b l).map MetRecord.wholeSeconds) := by
  have horder := M.met.orderBy_eq (·.criterion.val)
    (fun r => r.badge == b && r.learner == l) (fun r => r.badge == b && r.learner == l)
    (fun _ => rfl) (Register.pairwise_values_filter fun {k r k' r'} hr hr' hlt hp hp' => by
      rw [(hs.met hr).1, (hs.met hr').1] at hlt
      simp only [Bool.and_eq_true, beq_iff_eq] at hp hp'
      rw [Pair.compare_fst (hp.2.trans hp'.2.symm)] at hlt
      exact Ident.compare_eq_lt_iff.1 hlt)
  rw [metRecords, horder, mapM_eq_ok_iff, List.forall₂_map_left_iff, List.forall₂_map_right_iff,
    Ledger.metRecords, List.forall₂_same]
  exact fun r _ => MetRow.read_row r

theorem awardsOf_eq (b : BadgeId) :
    t.awardsOf b = .ok ((s.awardsOf b).map Award.wholeSeconds) := by
  have horder := M.issued.orderBy_eq (·.learner.val) (fun a => a.badge == b)
    (fun a => a.badge == b) (fun _ => rfl)
    (Register.pairwise_values_filter fun {k a k' a'} ha ha' hlt hp hp' => by
      rw [(hs.awards ha).1, (hs.awards ha').1] at hlt
      rw [Pair.compare_snd ((beq_iff_eq.1 hp).trans (beq_iff_eq.1 hp').symm)] at hlt
      exact Ident.compare_eq_lt_iff.1 hlt)
  rw [awardsOf, horder, mapM_eq_ok_iff, List.forall₂_map_left_iff, List.forall₂_map_right_iff,
    Ledger.awardsOf, List.forall₂_same]
  exact fun a _ => IssuedRow.read_row a

end MirrorsRows

end Badging
