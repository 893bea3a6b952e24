import Badging.Proofs.Review.Meaning
import Badging.Proofs.Store.Catalog

/-!
# Criteria that tables have stored

The tables answer that a criterion was added with the criterion as it was read from the record,
while their rows hold its parameters, as which it is read back. The two are satisfied by the same
learners if the conditions that were added do not contradict each other.

What is stored under the identity of a criterion is settled when it is added. Identities are not
given out twice, so in the ledger whose badges the tables have there is never another criterion with
this identity, and it is there until somebody removes it or its badge.
-/

namespace Badging

namespace Ledger

variable {s s' : Ledger} {c : Criterion} {id : BadgeId}

/-- Nothing but `c` has the identity of `c`, nor will have. -/
structure Reserves (c : Criterion) (s : Ledger) : Prop where
  le : c.id.val ≤ s.lastCriterion
  eq : ∀ {id b d}, s.badges.get? id = some b → d ∈ b.criteria → d.id = c.id → d = c

def HasCriterion (id : BadgeId) (c : Criterion) (s : Ledger) : Prop :=
  ∃ b, s.badges.get? id = some b ∧ c ∈ b.criteria

theorem Reserves.insert (h : Reserves c s) {key : BadgeId} {b : Badge}
    (hbadges : s'.badges = s.badges.insert key b) (hlast : s.lastCriterion ≤ s'.lastCriterion)
    (hb : ∀ d ∈ b.criteria, d.id = c.id → d = c) : Reserves c s' := by
  refine ⟨Int.le_trans h.le hlast, fun {j b' d} hj hd hid => ?_⟩
  rw [hbadges] at hj
  rcases Register.get?_insert_eq_some_iff.1 hj with ⟨-, rfl⟩ | ⟨-, hj⟩
  · exact hb d hd hid
  · exact h.eq hj hd hid

theorem Reserves.effect (h : Reserves c s) {op : Operation} {a : op.Answer}
    (heffect : Effect s op a s') : Reserves c s' := by
  cases heffect with
  | idle => exact h
  | insertBadge new => exact h.insert rfl (Int.le_refl _) fun d hd => absurd hd List.not_mem_nil
  | setStatus hb => exact h.insert rfl (Int.le_refl _) fun d hd => h.eq hb hd
  | deleteBadge hb => exact ⟨h.le, fun hj => h.eq (Register.get?_erase_eq_some_iff.1 hj).2⟩
  | addCriterion hb hc =>
    obtain ⟨-, hread, -⟩ := Badge.prepare_eq_ok_iff.1 hc
    refine h.insert rfl (Int.le_of_lt (Int.lt_succ _)) fun d hd hid => ?_
    rcases List.mem_append.1 hd with hd | hd
    · exact h.eq hb hd hid
    · have hle := h.le
      rw [← hid, List.mem_singleton.1 hd, (Criterion.id_of_ofRecord hread).1] at hle
      exact absurd hle (Int.not_le.2 (Int.lt_succ _))
  | deleteCriterion ho =>
    have hb := (get?_of_ownerOf? ho).1
    exact h.insert rfl (Int.le_refl _) fun d hd => h.eq hb (List.mem_of_mem_filter hd)
  | _ => exact ⟨h.le, h.eq⟩

theorem HasCriterion.effect (h : HasCriterion id c s) (hs : s.BadgesSound) {op : Operation}
    {a : op.Answer} (heffect : Effect s op a s') (hbadge : op ≠ .deleteBadge id)
    (hcriterion : op ≠ .deleteCriterion c.id) : HasCriterion id c s' := by
  obtain ⟨b, hb, hc⟩ := h
  have hkept : ∀ {badges : Register BadgeId Badge},
      (∃ b', badges.get? id = some b' ∧ ∀ c ∈ b.criteria, c ∈ b'.criteria) →
      ∃ b', badges.get? id = some b' ∧ c ∈ b'.criteria := fun ⟨b', hb', hsub⟩ =>
    ⟨b', hb', hsub c hc⟩
  cases heffect with
  | insertBadge new => exact hkept (exists_get?_insert_new hs.get?_next hb)
  | setStatus hd =>
    refine hkept (exists_get?_insert hd ?_ hb)
    exact fun _ hc => hc
  | addCriterion hd =>
    exact hkept (exists_get?_insert hd (fun _ hc => List.mem_append_left _ hc) hb)
  | @deleteBadge id' d hd =>
    have hne : id ≠ id' := fun heq => hbadge (heq ▸ rfl)
    exact ⟨b, Register.get?_erase_eq_some_iff.2 ⟨hne, hb⟩, hc⟩
  | @deleteCriterion id' key d ho =>
    have hd := (get?_of_ownerOf? ho).1
    by_cases hkey : id = key
    · subst hkey
      rw [hb, Option.some.injEq] at hd
      subst hd
      have hne : c.id ≠ id' := fun heq => hcriterion (heq ▸ rfl)
      exact ⟨_, Register.get?_insert_self _ _ _, List.mem_filter.2 ⟨hc, by simpa using hne⟩⟩
    · exact ⟨b, by rw [Register.get?_insert_of_ne _ hkey, hb], hc⟩
  | _ => exact ⟨b, hb, hc⟩

/-- When a criterion was added it is there, and its identity is its own. -/
theorem added_of_effect {record : Criterion.Record} (hs : s.Sound)
    (h : Effect s (.addCriterion id record) c s') :
    Reserves c s' ∧ HasCriterion id c s' ∧
      ∃ tag, Criterion.Kind.ofParams tag record.params = .ok c.kind := by
  cases h with
  | idle h => cases h
  | @addCriterion _ _ b _ hb hc =>
    obtain ⟨-, hread, -⟩ := Badge.prepare_eq_ok_iff.1 hc
    have hid := (Criterion.id_of_ofRecord hread).1
    refine ⟨⟨?_, fun {j b' d} hj hd hdc => ?_⟩, ⟨_, Register.get?_insert_self _ _ _, ?_⟩, ?_⟩
    · exact Int.le_of_eq (congrArg Ident.val hid)
    · have hold : ∀ {j b'}, s.badges.get? j = some b' → d ∉ b'.criteria := fun hj hd => by
        have hrange := ((hs.badge hj).criterion_range d hd).2
        rw [hdc, hid] at hrange
        exact absurd hrange (Int.not_le.2 (Int.lt_succ _))
      rcases Register.get?_insert_eq_some_iff.1 hj with ⟨-, rfl⟩ | ⟨-, hj⟩
      · rcases List.mem_append.1 hd with hd | hd
        · exact absurd hd (hold hb)
        · exact List.mem_singleton.1 hd
      · exact absurd hd (hold hj)
    · exact List.mem_append_right _ (List.mem_singleton.2 rfl)
    · obtain ⟨tag, kind, -, hkind, rfl⟩ := Criterion.ofRecord_eq_ok_iff.1 hread
      exact ⟨tag, hkind⟩

end Ledger

namespace Tables

variable {t t' : Tables} {c : Criterion} {id : BadgeId}

/-- The badges of the tables are those of a ledger that reserves the identity of the criterion. -/
def Reserves (c : Criterion) (t : Tables) : Prop := ∃ s, HasBadges s t ∧ s.Reserves c

def HasCriterion (id : BadgeId) (c : Criterion) (t : Tables) : Prop :=
  ∃ s, HasBadges s t ∧ s.HasCriterion id c

theorem added_of_perform {record : Criterion.Record} {s : Ledger} (M : HasBadges s t)
    (h : Store.perform (.addCriterion id record) t = .ok (c, t')) :
    t'.Reserves c ∧ t'.HasCriterion id c ∧
      ∃ tag, Criterion.Kind.ofParams tag record.params = .ok c.kind := by
  rcases M.step (effect_of_perform h) with ⟨-, hop⟩ | ⟨s', hledger, M'⟩
  · cases hop
  · obtain ⟨hreserves, hhas, hread⟩ :=
      Ledger.added_of_effect M.sound (Ledger.effect_of_perform hledger)
    exact ⟨⟨s', M', hreserves⟩, ⟨s', M', hhas⟩, hread⟩

theorem Reserves.of_reaches {ok : (op : Operation) → op.Answer → Prop} (h : t.Reserves c)
    (hreaches : Store.Reaches ok t t') : t'.Reserves c := by
  refine hreaches.preserves (I := Reserves c) (fun {op a t t'} ht hperform _ => ?_) h
  obtain ⟨s, M, hs⟩ := ht
  rcases M.step (effect_of_perform hperform) with ⟨M', -⟩ | ⟨s', hledger, M'⟩
  · exact ⟨s, M', hs⟩
  · exact ⟨s', M', hs.effect (Ledger.effect_of_perform hledger)⟩

theorem HasCriterion.of_reaches (h : t.HasCriterion id c) (hreaches : Store.Reaches
      (fun op _ => op ≠ .deleteBadge id ∧ op ≠ .deleteCriterion c.id) t t') :
    t'.HasCriterion id c := by
  refine hreaches.preserves (I := HasCriterion id c) (fun {op a t t'} ht hperform hop => ?_) h
  obtain ⟨s, M, hs⟩ := ht
  rcases M.step (effect_of_perform hperform) with ⟨M', -⟩ | ⟨s', hledger, M'⟩
  · exact ⟨s, M', hs⟩
  · exact ⟨s', M', hs.effect M.sound.toBadgesSound (Ledger.effect_of_perform hledger) hop.1 hop.2⟩

theorem Reserves.eq_rebuilt (h : t.Reserves c) {b' : Badge} {c' : Criterion}
    (hb' : Store.badge? t id = some b') (hc' : c' ∈ b'.criteria) (hid : c'.id = c.id) :
    c' = c.rebuilt := by
  obtain ⟨s, M, hs⟩ := h
  rw [catalog.badge?_eq ⟨s, M, rfl⟩, Option.map_eq_some_iff] at hb'
  obtain ⟨b, hb, rfl⟩ := hb'
  obtain ⟨d, hd, rfl⟩ := List.mem_map.1 hc'
  rw [hs.eq hb hd hid]

theorem HasCriterion.exists_read (h : t.HasCriterion id c) :
    ∃ b', Store.badge? t id = some b' ∧ ∃ c' ∈ b'.criteria, c'.id = c.id := by
  obtain ⟨s, M, b, hb, hc⟩ := h
  refine ⟨b.rebuilt, ?_, c.rebuilt, List.mem_map_of_mem hc, rfl⟩
  rw [catalog.badge?_eq ⟨s, M, rfl⟩, hb]
  rfl

end Tables

theorem Ledger.tellsManual (s : Ledger) : Review.TellsManual (· = s) := fun b l r => by
  refine ⟨s.manual.contains ⟨b, l, r⟩, ?_⟩
  rintro _ rfl
  rfl

theorem Tables.tellsManual (t : Tables) : Review.TellsManual (· = t) := fun b l r => by
  refine ⟨t.manualExists b l r, ?_⟩
  rintro _ rfl
  rfl

open Review in
/-- A criterion that the tables have accepted is read back later, until it is removed or its badge
is, and it means what the criterion that was returned means if the conditions of the latter do not
contradict each other. -/
theorem stored_criterion_keeps_meaning (ops later : List Operation) {id : BadgeId}
    {record : Criterion.Record} {c : Criterion}
    (hadd : (Store.step (.addCriterion id record) (Store.run Tables.empty ops)).1 = .ok c)
    (hconsistent : c.kind.Consistent) :
    let t := Store.run Tables.empty (ops ++ .addCriterion id record :: later)
    (∀ {j b' c'}, Store.badge? t j = some b' → c' ∈ b'.criteria → c'.id = c.id →
      SameVerdicts Ledger c c' ∧ SameVerdicts Tables c c') ∧
    ((∀ op ∈ later, op ≠ .deleteBadge id ∧ op ≠ .deleteCriterion c.id) →
      ∃ b', Store.badge? t id = some b' ∧ ∃ c' ∈ b'.criteria, c'.id = c.id) := by
  intro t
  obtain ⟨s, M⟩ : ∃ s, Tables.HasBadges s (Store.run Tables.empty ops) :=
    Tables.catalog.exists_of_reaches Tables.HasBadges.empty (Store.reaches_run _ ops)
  obtain ⟨hreserves, hhas, tag, hread⟩ := Tables.added_of_perform M (Store.perform_of_step hadd)
  have ht : t = Store.run (Store.step (.addCriterion id record)
      (Store.run Tables.empty ops)).2 later := by rw [← Store.run_cons, ← Store.run_append]
  refine ⟨fun {j b' c'} hb' hc' hid => ?_, fun hlater => ?_⟩
  · have halike := Criterion.Kind.alike_rebuilt hread hconsistent
    have hreserves' : t.Reserves c := ht ▸ hreserves.of_reaches (Store.reaches_run _ later)
    rw [hreserves'.eq_rebuilt hb' hc' hid]
    exact ⟨sameVerdicts Ledger.tellsManual halike rfl rfl,
      sameVerdicts Tables.tellsManual halike rfl rfl⟩
  · have hhas' : t.HasCriterion id c := ht ▸ hhas.of_reaches (Store.reaches_run_of _ hlater)
    exact hhas'.exists_read

open Review in
/-- A criterion with one condition keeps its meaning. -/
theorem stored_activity_keeps_meaning :
    let cutoff : Instant := ⟨100, 0, by decide, by decide, by decide, by decide⟩
    let ops := [Operation.insertBadge ⟨"Reader", .site, .never⟩]
    let record : Criterion.Record :=
      ⟨"activity", .any, none, .ofList [("module_07", ""), ("bydate_07", "100")]⟩
    let c : Criterion := ⟨⟨1⟩, ⟨1⟩, .any, none, .activity [⟨⟨7⟩, some cutoff⟩]⟩
    let later := [Operation.setStatus ⟨1⟩ .archived]
    let t := Store.run Tables.empty (ops ++ .addCriterion ⟨1⟩ record :: later)
    (Store.step (.addCriterion ⟨1⟩ record) (Store.run Tables.empty ops)).1 = .ok c ∧
      c.kind.Consistent ∧
      (∀ {j b' c'}, Store.badge? t j = some b' → c' ∈ b'.criteria → c'.id = c.id →
        SameVerdicts Ledger c c' ∧ SameVerdicts Tables c c') ∧
      ∃ b', Store.badge? t ⟨1⟩ = some b' ∧ ∃ c' ∈ b'.criteria, c'.id = c.id := by
  intro cutoff ops record c later t
  have hadd : (Store.step (.addCriterion ⟨1⟩ record) (Store.run Tables.empty ops)).1 = .ok c := by
    decide +kernel
  have hconsistent : c.kind.Consistent := by decide
  obtain ⟨hmeaning, hread⟩ := stored_criterion_keeps_meaning ops later hadd hconsistent
  exact ⟨hadd, hconsistent, hmeaning, hread (by decide)⟩

open Review in
/-- Two spellings of an activity are accepted with different cutoffs, and what is read back has one
condition of the two. A learner who missed the cutoff meets the one criterion and not the other. -/
theorem contradicting_conditions_change_meaning :
    let cutoff : Instant := ⟨100, 0, by decide, by decide, by decide, by decide⟩
    let completed : Instant := ⟨200, 0, by decide, by decide, by decide, by decide⟩
    let facts := (Snapshot.empty.withActivity ⟨7⟩ ⟨1⟩).recordActivity
      ⟨⟨7⟩, ⟨1⟩, .complete, completed⟩
    let record : Criterion.Record := ⟨"activity", .any, none,
      .ofList [("module_07", ""), ("bydate_07", "100"), ("module_7", "")]⟩
    let c : Criterion := ⟨⟨1⟩, ⟨1⟩, .any, none, .activity [⟨⟨7⟩, some cutoff⟩, ⟨⟨7⟩, none⟩]⟩
    let c' : Criterion := ⟨⟨1⟩, ⟨1⟩, .any, none, .activity [⟨⟨7⟩, some cutoff⟩]⟩
    let b : Badge := ⟨⟨1⟩, "Reader", .site, .draft, .never, [c']⟩
    let added := Store.step (.addCriterion ⟨1⟩ record)
      (Store.run Tables.empty [.insertBadge ⟨"Reader", .site, .never⟩])
    added.1 = .ok c ∧ Store.badge? added.2 ⟨1⟩ = some b ∧
      ((criterion b ⟨1⟩ c).exec (.clean facts.source) (.ofStore added.2)).1 = .done true ∧
      ((criterion b ⟨1⟩ c').exec (.clean facts.source) (.ofStore added.2)).1 = .done false := by
  decide +kernel

end Badging
