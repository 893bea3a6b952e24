import Badging.Proofs.Criterion.Reading
import Badging.Proofs.Store.Ledger.Effect
import Mathlib.Data.List.Nodup

/-!
# Sound ledgers

A ledger is a handful of registers and two counters, and not every combination of them comes from
operations. `Sound` says what the ledgers that do have in common. A badge is stored under its own
identity, its criteria name it and are listed in the order in which they were added, no criterion
belongs to two badges, and no identity exceeds its counter. Every row is stored under the key made
of its own fields and names things that exist.

Soundness holds of the empty ledger and is preserved by every operation, so it holds of every
ledger that operations lead to. Badges and rows are treated apart: an operation on badges
is an insert under a key or a removal, and `BadgesSound.insert` says what an insert needs.
-/

namespace Badging

/-- A badge as it is stored under an identity, when `last` is the last identity of a criterion. -/
structure Badge.Sound (id : BadgeId) (last : Int) (b : Badge) : Prop where
  id_eq : b.id = id
  badge_eq : ∀ c ∈ b.criteria, c.badge = id
  criterion_range : ∀ c ∈ b.criteria, 1 ≤ c.id.val ∧ c.id.val ≤ last
  ascending : b.criteria.Pairwise (·.id.val < ·.id.val)
  overall_le_one : b.criteria.countP (·.isOverall) ≤ 1

theorem Badge.overall_le_one_append {b : Badge} {id : CriterionId} {record : Criterion.Record}
    {c : Criterion} (hc : b.prepare id record = .ok c)
    (h : b.criteria.countP (·.isOverall) ≤ 1) :
    (b.criteria ++ [c]).countP (·.isOverall) ≤ 1 := by
  obtain ⟨-, -, hsecond⟩ := prepare_eq_ok_iff.1 hc
  rw [List.countP_append, List.countP_singleton]
  split
  · next hoverall =>
    have hnone : b.criteria.countP (·.isOverall) = 0 := by
      rw [List.countP_eq_zero]
      intro d hd hdo
      exact hsecond ⟨hoverall, overall?_isSome_iff.2 ⟨d, hd, hdo⟩⟩
    omega
  · exact h

namespace Badge.Sound

variable {id : BadgeId} {last : Int} {b : Badge}

theorem ofNew (new : NewBadge) : Badge.Sound id last (.ofNew id new) where
  id_eq := rfl
  badge_eq _ h := absurd h List.not_mem_nil
  criterion_range _ h := absurd h List.not_mem_nil
  ascending := .nil
  overall_le_one := Nat.zero_le 1

theorem setStatus (h : b.Sound id last) (status : Status) :
    Badge.Sound id last { b with status := status } where
  id_eq := h.id_eq
  badge_eq := h.badge_eq
  criterion_range := h.criterion_range
  ascending := h.ascending
  overall_le_one := h.overall_le_one

theorem append {c : Criterion} {record : Criterion.Record} (h : b.Sound id last)
    (hlast : 0 ≤ last) (hc : b.prepare ⟨last + 1⟩ record = .ok c) :
    Badge.Sound id (last + 1) { b with criteria := b.criteria ++ [c] } := by
  obtain ⟨-, hread, -⟩ := Badge.prepare_eq_ok_iff.1 hc
  obtain ⟨hid, hbadge⟩ := Criterion.id_of_ofRecord hread
  have hmem : ∀ d ∈ b.criteria ++ [c], d ∈ b.criteria ∨ d = c := fun d hd => by
    simpa using hd
  refine ⟨h.id_eq, fun d hd => ?_, fun d hd => ?_, ?_, ?_⟩
  · rcases hmem d hd with hd | rfl
    · exact h.badge_eq d hd
    · rw [hbadge, h.id_eq]
  · rcases hmem d hd with hd | rfl
    · have := h.criterion_range d hd
      omega
    · rw [hid]
      dsimp only
      omega
  · refine List.pairwise_append.2 ⟨h.ascending, List.pairwise_singleton _ c, fun d hd e he => ?_⟩
    have := (h.criterion_range d hd).2
    rw [List.mem_singleton.1 he, hid]
    exact Int.lt_add_one_of_le this
  · exact overall_le_one_append hc h.overall_le_one

theorem filter (h : b.Sound id last) (p : Criterion → Bool) :
    Badge.Sound id last { b with criteria := b.criteria.filter p } where
  id_eq := h.id_eq
  badge_eq c hc := h.badge_eq c (List.mem_of_mem_filter hc)
  criterion_range c hc := h.criterion_range c (List.mem_of_mem_filter hc)
  ascending := h.ascending.filter p
  overall_le_one := by
    refine Nat.le_trans ?_ h.overall_le_one
    exact List.Sublist.countP_le List.filter_sublist

theorem eq_of_id (h : b.Sound id last) {c d : Criterion} (hc : c ∈ b.criteria)
    (hd : d ∈ b.criteria) (heq : c.id = d.id) : c = d := by
  have hnodup : (b.criteria.map (·.id.val)).Nodup :=
    List.pairwise_map.2 (h.ascending.imp fun hlt => Int.ne_of_lt hlt)
  exact List.inj_on_of_nodup_map hnodup hc hd (congrArg Ident.val heq)

end Badge.Sound

namespace Ledger

/-- The badges are stored under their identities, and their criteria are theirs alone. -/
structure BadgesSound (s : Ledger) : Prop where
  badge : ∀ {id b}, s.badges.get? id = some b → b.Sound id s.lastCriterion
  badge_range : ∀ {id b}, s.badges.get? id = some b → 1 ≤ id.val ∧ id.val ≤ s.lastBadge
  counters : 0 ≤ s.lastBadge ∧ 0 ≤ s.lastCriterion
  owner_unique : ∀ {i j b b' c c'}, s.badges.get? i = some b → s.badges.get? j = some b' →
    c ∈ b.criteria → c' ∈ b'.criteria → c.id = c'.id → i = j

/-- The rows are stored under their keys and name badges and criteria that exist. -/
structure RowsSound (s : Ledger) : Prop where
  met : ∀ {k r}, s.met.get? k = some r → k = ⟨r.criterion, r.learner⟩ ∧
    ∃ b, s.badges.get? r.badge = some b ∧ ∃ c ∈ b.criteria, c.id = r.criterion
  manual : ∀ {k a}, s.manual.get? k = some a → k = ⟨a.badge, a.recipient, a.issuerRole⟩ ∧
    ∃ b, s.badges.get? a.badge = some b
  awards : ∀ {k a}, s.awards.get? k = some a → k = ⟨a.badge, a.learner⟩ ∧
    ∃ b, s.badges.get? a.badge = some b

/-- What the ledgers have in common that operations lead to. -/
structure Sound (s : Ledger) : Prop extends BadgesSound s, RowsSound s

theorem sound_empty : Sound .empty where
  badge h := by cases h
  badge_range h := by cases h
  counters := by decide
  owner_unique h := by cases h
  met h := by cases h
  manual h := by cases h
  awards h := by cases h

variable {s : Ledger}

/-- A badge may be stored if it is sound itself and takes no criterion from another badge. -/
theorem BadgesSound.insert (hs : s.BadgesSound) {id : BadgeId} {b : Badge} {lastBadge last : Int}
    (hb : b.Sound id last) (hid : 1 ≤ id.val ∧ id.val ≤ lastBadge)
    (hlastBadge : s.lastBadge ≤ lastBadge) (hlast : s.lastCriterion ≤ last)
    (hown : ∀ c ∈ b.criteria, s.lastCriterion < c.id.val ∨
      ∃ b₀, s.badges.get? id = some b₀ ∧ ∃ c₀ ∈ b₀.criteria, c₀.id = c.id) :
    BadgesSound { s with
      lastBadge := lastBadge, lastCriterion := last, badges := s.badges.insert id b } := by
  have hapart : ∀ {j b' c c'}, s.badges.get? j = some b' → c ∈ b.criteria → c' ∈ b'.criteria →
      c.id = c'.id → id = j := fun {j b' c c'} hj hc hc' heq => by
    rcases hown c hc with hnew | ⟨b₀, hb₀, c₀, hc₀, heq₀⟩
    · have := ((hs.badge hj).criterion_range c' hc').2
      rw [← heq] at this
      omega
    · exact hs.owner_unique hb₀ hj hc₀ hc' (heq₀.trans heq)
  refine ⟨fun {j b'} hj => ?_, fun {j b'} hj => ?_, ?_, fun {i j b₁ b₂ c c'} hi hj hc hc' heq => ?_⟩
  · rcases Register.get?_insert_eq_some_iff.1 hj with ⟨rfl, rfl⟩ | ⟨-, hj⟩
    · exact hb
    · have h := hs.badge hj
      exact ⟨h.id_eq, h.badge_eq, fun c hc => ⟨(h.criterion_range c hc).1,
        Int.le_trans (h.criterion_range c hc).2 hlast⟩, h.ascending, h.overall_le_one⟩
  · rcases Register.get?_insert_eq_some_iff.1 hj with ⟨rfl, rfl⟩ | ⟨-, hj⟩
    · exact hid
    · exact ⟨(hs.badge_range hj).1, Int.le_trans (hs.badge_range hj).2 hlastBadge⟩
  · exact ⟨Int.le_trans hs.counters.1 hlastBadge, Int.le_trans hs.counters.2 hlast⟩
  · rcases Register.get?_insert_eq_some_iff.1 hi with ⟨rfl, rfl⟩ | ⟨-, hi'⟩ <;>
      rcases Register.get?_insert_eq_some_iff.1 hj with ⟨rfl, rfl⟩ | ⟨-, hj'⟩
    · rfl
    · exact hapart hj' hc hc' heq
    · exact (hapart hi' hc' hc heq.symm).symm
    · exact hs.owner_unique hi' hj' hc hc' heq

theorem BadgesSound.of_rows (hs : s.BadgesSound)
    {met : Register (Pair CriterionId LearnerId) MetRecord}
    {manual : Register (Pair BadgeId (Pair LearnerId RoleId)) ManualAward}
    {awards : Register (Pair BadgeId LearnerId) Award} :
    BadgesSound { s with met := met, manual := manual, awards := awards } :=
  ⟨hs.badge, hs.badge_range, hs.counters, hs.owner_unique⟩

/-- Rows stay sound while the badges keep their criteria or get more. -/
theorem RowsSound.of_badges (hs : s.RowsSound) {lastBadge last : Int}
    {badges : Register BadgeId Badge}
    (h : ∀ {id b}, s.badges.get? id = some b →
      ∃ b', badges.get? id = some b' ∧ ∀ c ∈ b.criteria, c ∈ b'.criteria) :
    RowsSound { s with lastBadge := lastBadge, lastCriterion := last, badges := badges } := by
  refine ⟨fun {k r} hr => ?_, fun {k a} ha => ?_, fun {k a} ha => ?_⟩
  · obtain ⟨hk, b, hb, c, hc, hid⟩ := hs.met hr
    obtain ⟨b', hb', hsub⟩ := h hb
    exact ⟨hk, b', hb', c, hsub c hc, hid⟩
  · obtain ⟨hk, b, hb⟩ := hs.manual ha
    obtain ⟨b', hb', -⟩ := h hb
    exact ⟨hk, b', hb'⟩
  · obtain ⟨hk, b, hb⟩ := hs.awards ha
    obtain ⟨b', hb', -⟩ := h hb
    exact ⟨hk, b', hb'⟩

theorem RowsSound.not_met (hs : s.RowsSound) {c : CriterionId} (l : LearnerId)
    (h : ∀ {id b d}, s.badges.get? id = some b → d ∈ b.criteria → d.id ≠ c) :
    s.met.get? ⟨c, l⟩ = none := by
  cases hr : s.met.get? ⟨c, l⟩ with
  | none => rfl
  | some r =>
    obtain ⟨hk, b, hb, d, hd, hid⟩ := hs.met hr
    exact absurd (hid.trans (Pair.mk.inj hk).1.symm) (h hb hd)

theorem RowsSound.not_awarded (hs : s.RowsSound) {id : BadgeId} (l : LearnerId)
    (h : s.badges.get? id = none) : s.awards.get? ⟨id, l⟩ = none := by
  cases ha : s.awards.get? ⟨id, l⟩ with
  | none => rfl
  | some a =>
    obtain ⟨hk, b, hb⟩ := hs.awards ha
    rw [← (Pair.mk.inj hk).1, h] at hb
    cases hb

theorem exists_get?_insert {id : BadgeId} {b b' : Badge} (h : s.badges.get? id = some b)
    (hsub : ∀ c ∈ b.criteria, c ∈ b'.criteria) {j : BadgeId} {d : Badge}
    (hj : s.badges.get? j = some d) :
    ∃ d', (s.badges.insert id b').get? j = some d' ∧ ∀ c ∈ d.criteria, c ∈ d'.criteria := by
  by_cases hij : j = id
  · subst hij
    rw [h, Option.some.injEq] at hj
    subst hj
    exact ⟨b', s.badges.get?_insert_self j b', hsub⟩
  · exact ⟨d, by rw [s.badges.get?_insert_of_ne hij, hj], fun _ hc => hc⟩

theorem get?_of_ownerOf? {id : CriterionId} {key : BadgeId} {b : Badge}
    (h : s.ownerOf? id = some (key, b)) :
    s.badges.get? key = some b ∧ ∃ c ∈ b.criteria, c.id = id := by
  refine ⟨Register.mem_entries_iff.1 (List.mem_of_find?_eq_some h), ?_⟩
  simpa using List.find?_some h

theorem BadgesSound.ownerOf?_eq (hs : s.BadgesSound) {id : CriterionId} {key : BadgeId} {b : Badge}
    {c : Criterion} (hb : s.badges.get? key = some b) (hc : c ∈ b.criteria) (hid : c.id = id) :
    s.ownerOf? id = some (key, b) := by
  cases h : s.ownerOf? id with
  | none =>
    have hnone := List.find?_eq_none.1 h (key, b) (Register.mem_entries_iff.2 hb)
    exact absurd (List.any_eq_true.2 ⟨c, hc, by simp [hid]⟩) hnone
  | some e =>
    obtain ⟨key', b'⟩ := e
    obtain ⟨hb', c', hc', hid'⟩ := get?_of_ownerOf? h
    have hkey := hs.owner_unique hb' hb hc' hc (hid'.trans hid.symm)
    subst hkey
    rw [hb, Option.some.injEq] at hb'
    rw [hb']

theorem exists_get?_insert_new {id : BadgeId} {b : Badge} (h : s.badges.get? id = none)
    {j : BadgeId} {d : Badge} (hj : s.badges.get? j = some d) :
    ∃ d', (s.badges.insert id b).get? j = some d' ∧ ∀ c ∈ d.criteria, c ∈ d'.criteria := by
  refine ⟨d, ?_, fun _ hc => hc⟩
  rw [s.badges.get?_insert_of_ne, hj]
  rintro rfl
  rw [h] at hj
  cases hj

theorem BadgesSound.get?_next (hs : s.BadgesSound) : s.badges.get? ⟨s.lastBadge + 1⟩ = none := by
  cases h : s.badges.get? ⟨s.lastBadge + 1⟩ with
  | none => rfl
  | some b =>
    have := (hs.badge_range h).2
    dsimp only at this
    omega

theorem Sound.insertBadge (hs : s.Sound) (new : NewBadge) :
    Sound { s with
      lastBadge := s.lastBadge + 1
      badges := s.badges.insert ⟨s.lastBadge + 1⟩ (.ofNew ⟨s.lastBadge + 1⟩ new) } := by
  have := hs.counters.1
  refine ⟨hs.toBadgesSound.insert (Badge.Sound.ofNew new) ?_ ?_ (Int.le_refl _)
    fun c hc => absurd hc List.not_mem_nil, hs.toRowsSound.of_badges fun h => ?_⟩
  · dsimp only
    omega
  · omega
  · exact exists_get?_insert_new hs.get?_next h

theorem Sound.setStatus (hs : s.Sound) {id : BadgeId} {b : Badge}
    (h : s.badges.get? id = some b) (status : Status) :
    Sound { s with badges := s.badges.insert id { b with status := status } } :=
  ⟨hs.toBadgesSound.insert ((hs.badge h).setStatus status) (hs.badge_range h) (Int.le_refl _)
    (Int.le_refl _) fun c hc => .inr ⟨b, h, c, hc, rfl⟩,
    hs.toRowsSound.of_badges fun hj =>
      exists_get?_insert h (fun c hc => (hc : c ∈ { b with status := status }.criteria)) hj⟩

theorem Sound.addCriterion (hs : s.Sound) {id : BadgeId} {b : Badge} {c : Criterion}
    {record : Criterion.Record} (h : s.badges.get? id = some b)
    (hc : b.prepare ⟨s.lastCriterion + 1⟩ record = .ok c) :
    Sound { s with
      lastCriterion := s.lastCriterion + 1
      badges := s.badges.insert id { b with criteria := b.criteria ++ [c] } } := by
  refine ⟨hs.toBadgesSound.insert ((hs.badge h).append hs.counters.2 hc) (hs.badge_range h)
    (Int.le_refl _) (by omega) fun d hd => ?_,
    hs.toRowsSound.of_badges fun hj =>
      exists_get?_insert h (fun _ hd => List.mem_append_left _ hd) hj⟩
  rcases List.mem_append.1 hd with hd | hd
  · exact .inr ⟨b, h, d, hd, rfl⟩
  · obtain ⟨-, hread, -⟩ := Badge.prepare_eq_ok_iff.1 hc
    rw [List.mem_singleton.1 hd, (Criterion.id_of_ofRecord hread).1]
    exact .inl (Int.lt_succ _)

theorem Sound.deleteCriterion (hs : s.Sound) {id : CriterionId} {key : BadgeId} {b : Badge}
    (h : s.badges.get? key = some b) :
    Sound { s with
      badges := s.badges.insert key { b with criteria := b.criteria.filter (·.id ≠ id) }
      met := s.met.filter fun k _ => k.fst ≠ id } := by
  have hbadges := hs.toBadgesSound.insert ((hs.badge h).filter (·.id ≠ id)) (hs.badge_range h)
    (Int.le_refl _) (Int.le_refl _) fun c hc => .inr ⟨b, h, c, List.mem_of_mem_filter hc, rfl⟩
  have hkept : ∀ {j d}, s.badges.get? j = some d → ∃ d',
      (s.badges.insert key { b with criteria := b.criteria.filter (·.id ≠ id) }).get? j =
        some d' ∧ ∀ c ∈ d.criteria, c.id ≠ id → c ∈ d'.criteria := fun {j d} hj => by
    by_cases hjk : j = key
    · subst hjk
      rw [h, Option.some.injEq] at hj
      subst hj
      exact ⟨_, s.badges.get?_insert_self j _, fun c hc hid => by simpa using ⟨hc, hid⟩⟩
    · exact ⟨d, by rw [s.badges.get?_insert_of_ne hjk, hj], fun _ hc _ => hc⟩
  refine ⟨hbadges.of_rows, fun {k r} hr => ?_, fun {k a} ha => ?_, fun {k a} ha => ?_⟩
  · obtain ⟨hr, hne⟩ := Register.get?_filter_eq_some_iff.1 hr
    obtain ⟨hk, d, hd, c, hc, hid⟩ := hs.met hr
    obtain ⟨d', hd', hsub⟩ := hkept hd
    refine ⟨hk, d', hd', c, hsub c hc ?_, hid⟩
    rw [hid]
    simpa [hk] using hne
  · obtain ⟨hk, d, hd⟩ := hs.manual ha
    obtain ⟨d', hd', -⟩ := hkept hd
    exact ⟨hk, d', hd'⟩
  · obtain ⟨hk, d, hd⟩ := hs.awards ha
    obtain ⟨d', hd', -⟩ := hkept hd
    exact ⟨hk, d', hd'⟩

theorem Sound.deleteBadge (hs : s.Sound) (id : BadgeId) :
    Sound { s with
      badges := s.badges.erase id
      met := s.met.filter fun _ r => r.badge ≠ id
      manual := s.manual.filter fun k _ => k.fst ≠ id
      awards := s.awards.filter fun k _ => k.fst ≠ id } := by
  have hkept : ∀ {j d}, s.badges.get? j = some d → j ≠ id →
      (s.badges.erase id).get? j = some d := fun hj hne =>
    Register.get?_erase_eq_some_iff.2 ⟨hne, hj⟩
  have hold : ∀ {j d}, (s.badges.erase id).get? j = some d → s.badges.get? j = some d :=
    fun hj => (Register.get?_erase_eq_some_iff.1 hj).2
  refine ⟨⟨fun h => hs.badge (hold h), fun h => hs.badge_range (hold h), hs.counters,
    fun hi hj => hs.owner_unique (hold hi) (hold hj)⟩, fun {k r} hr => ?_, fun {k a} ha => ?_,
    fun {k a} ha => ?_⟩
  · obtain ⟨hr, hne⟩ := Register.get?_filter_eq_some_iff.1 hr
    obtain ⟨hk, d, hd, hc⟩ := hs.met hr
    exact ⟨hk, d, hkept hd (by simpa using hne), hc⟩
  · obtain ⟨ha, hne⟩ := Register.get?_filter_eq_some_iff.1 ha
    obtain ⟨hk, d, hd⟩ := hs.manual ha
    exact ⟨hk, d, hkept hd (by simpa [hk] using hne)⟩
  · obtain ⟨ha, hne⟩ := Register.get?_filter_eq_some_iff.1 ha
    obtain ⟨hk, d, hd⟩ := hs.awards ha
    exact ⟨hk, d, hkept hd (by simpa [hk] using hne)⟩

/-- Every operation preserves soundness. -/
theorem Sound.effect {op : Operation} {a : op.Answer} {s' : Ledger} (hs : s.Sound)
    (h : Effect s op a s') : s'.Sound := by
  cases h with
  | idle => exact hs
  | insertBadge new => exact hs.insertBadge new
  | setStatus h => exact hs.setStatus h _
  | deleteBadge h => exact hs.deleteBadge _
  | addCriterion h hc => exact hs.addCriterion h hc
  | deleteCriterion h => exact hs.deleteCriterion (get?_of_ownerOf? h).1
  | markMet h hc hr =>
    refine ⟨hs.toBadgesSound.of_rows, fun {k r'} hr' => ?_, hs.manual, hs.awards⟩
    rcases Register.get?_insert_eq_some_iff.1 hr' with ⟨rfl, rfl⟩ | ⟨-, hr'⟩
    · exact ⟨rfl, _, h, hc⟩
    · exact hs.met hr'
  | recordManual h ha =>
    refine ⟨hs.toBadgesSound.of_rows, hs.met, fun {k a'} ha' => ?_, hs.awards⟩
    rcases Register.get?_insert_eq_some_iff.1 ha' with ⟨rfl, rfl⟩ | ⟨-, ha'⟩
    · exact ⟨rfl, _, h⟩
    · exact hs.manual ha'
  | insertAward h ha =>
    refine ⟨hs.toBadgesSound.of_rows, hs.met, hs.manual, fun {k a'} ha' => ?_⟩
    rcases Register.get?_insert_eq_some_iff.1 ha' with ⟨rfl, rfl⟩ | ⟨-, ha'⟩
    · exact ⟨rfl, _, h⟩
    · exact hs.awards ha'

theorem Sound.of_reaches {ok : (op : Operation) → op.Answer → Prop} {s' : Ledger} (hs : s.Sound)
    (h : Store.Reaches ok s s') : s'.Sound :=
  h.preserves (fun hs hop _ => hs.effect (effect_of_perform hop)) hs

theorem sound_run (ops : List Operation) : (Store.run Ledger.empty ops).Sound :=
  sound_empty.of_reaches (Store.reaches_run Ledger.empty ops)

end Ledger

end Badging
