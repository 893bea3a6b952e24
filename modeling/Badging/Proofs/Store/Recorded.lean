import Badging.Proofs.Store.Faithful
import Badging.Proofs.Store.Stored

/-!
# Records that stay

A met record stands for a criterion and a learner, and it names a badge. Of the records that name
the badge of their criterion, a store loses one only when the criterion is removed or the badge is,
and then the criterion is gone for good: no badge has it, and its identity is not given out again.
So whoever finds a criterion where it was finds the records of it that were there.

Tables take records that name some other badge than that of the criterion. Such a record goes when
the other badge does, so the badge that a record names is part of what is kept here.
-/

namespace Badging

/-- The operation removes a criterion or the badge that has it. -/
def Operation.Removes (id : BadgeId) (c : CriterionId) (op : Operation) : Prop :=
  op = .deleteBadge id ∨ op = .deleteCriterion c

theorem Operation.Removes.editsBadges {id : BadgeId} {c : CriterionId} {op : Operation}
    (h : op.Removes id c) : op.editsBadges = true := by
  rcases h with rfl | rfl <;> rfl

namespace Ledger

variable {s s' : Ledger} {c : CriterionId} {id : BadgeId}

/-- No badge has the criterion, nor will have it. -/
structure Gone (c : CriterionId) (s : Ledger) : Prop where
  le : c.val ≤ s.lastCriterion
  not_owns : ∀ {id b}, s.badges.get? id = some b → ¬ b.Owns c

theorem Gone.insert (h : Gone c s) {key : BadgeId} {b : Badge}
    (hbadges : s'.badges = s.badges.insert key b) (hlast : s.lastCriterion ≤ s'.lastCriterion)
    (hb : ¬ b.Owns c) : Gone c s' := by
  refine ⟨Int.le_trans h.le hlast, fun {j d} hj => ?_⟩
  rw [hbadges] at hj
  rcases Register.get?_insert_eq_some_iff.1 hj with ⟨-, rfl⟩ | ⟨-, hj⟩
  · exact hb
  · exact h.not_owns hj

theorem Gone.effect (h : Gone c s) {op : Operation} {a : op.Answer} (heffect : Effect s op a s') :
    Gone c s' := by
  cases heffect with
  | idle => exact h
  | insertBadge new => exact h.insert rfl (Int.le_refl _) fun ⟨_, hd, _⟩ => List.not_mem_nil hd
  | @setStatus key status b hb =>
    have hnot : ¬ b.Owns c := h.not_owns hb
    exact h.insert rfl (Int.le_refl _) hnot
  | deleteBadge hb => exact ⟨h.le, fun hj => h.not_owns (Register.get?_erase_eq_some_iff.1 hj).2⟩
  | addCriterion hb hc =>
    obtain ⟨-, hread, -⟩ := Badge.prepare_eq_ok_iff.1 hc
    refine h.insert rfl (Int.le_of_lt (Int.lt_succ _)) fun ⟨d, hd, hid⟩ => ?_
    rcases List.mem_append.1 hd with hd | hd
    · exact h.not_owns hb ⟨d, hd, hid⟩
    · have hle := h.le
      rw [← hid, List.mem_singleton.1 hd, (Criterion.id_of_ofRecord hread).1] at hle
      exact absurd hle (Int.not_le.2 (Int.lt_succ _))
  | deleteCriterion ho =>
    have hb := (get?_of_ownerOf? ho).1
    exact h.insert rfl (Int.le_refl _) fun ⟨d, hd, hid⟩ =>
      h.not_owns hb ⟨d, List.mem_of_mem_filter hd, hid⟩
  | _ => exact ⟨h.le, h.not_owns⟩

/-- A criterion that was removed, itself or with its badge, is gone. -/
theorem gone_of_removes (hs : s.BadgesSound) {d : Criterion} (hd : HasCriterion id d s)
    {op : Operation} {a : op.Answer} (heffect : Effect s op a s') (hop : op.Removes id d.id) :
    Gone d.id s' := by
  obtain ⟨b, hb, hmem⟩ := hd
  have hle := ((hs.badge hb).criterion_range d hmem).2
  have howner : ∀ {j b'}, s.badges.get? j = some b' → b'.Owns d.id → j = id :=
    fun hj ⟨e, he, hid⟩ => hs.owner_unique hj hb he hmem hid
  cases heffect with
  | deleteBadge =>
    rcases hop with hop | hop
    · cases hop
      refine ⟨hle, fun hj howns => ?_⟩
      obtain ⟨hne, hj⟩ := Register.get?_erase_eq_some_iff.1 hj
      exact hne (howner hj howns)
    · cases hop
  | deleteCriterion ho =>
    rcases hop with hop | hop
    · cases hop
    · cases hop
      obtain ⟨hkey, howns⟩ := get?_of_ownerOf? ho
      refine ⟨hle, fun {j b'} hj howns' => ?_⟩
      rcases Register.get?_insert_eq_some_iff.1 hj with ⟨-, rfl⟩ | ⟨hne, hj⟩
      · obtain ⟨e, he, hid⟩ := howns'
        simp [hid] at he
      · exact hne ((howner hj howns').trans (howner hkey howns).symm)
  | idle h =>
    rcases hop with rfl | rfl <;> cases h
  | _ => rcases hop with hop | hop <;> cases hop

/-- There is a met record of the learner for the criterion, and it names the badge. -/
def HasRecord (s : Ledger) (b : BadgeId) (l : LearnerId) (c : CriterionId) : Prop :=
  ∃ k r, s.met.get? k = some r ∧ r.badge = b ∧ r.learner = l ∧ r.criterion = c

end Ledger

def Tables.HasRecord (t : Tables) (b : BadgeId) (l : LearnerId) (c : CriterionId) : Prop :=
  ∃ r ∈ t.met, r.badge = b ∧ r.learner = l ∧ r.criterion = c

/-- A store keeps the records that name the badge of their criterion until one of the two is
removed. -/
structure Store.KeepsRecords {σ : Type} [Store σ] (R : Ledger → σ → Prop)
    (HasRecord : σ → BadgeId → LearnerId → CriterionId → Prop) : Prop where
  kept : ∀ {s t t'} {op : Operation} {a : op.Answer} {id : BadgeId} {c : Criterion} {l : LearnerId},
    R s t → Store.perform op t = .ok (a, t') → s.HasCriterion id c → ¬ op.Removes id c.id →
      HasRecord t id l c.id → HasRecord t' id l c.id

theorem Ledger.keepsRecords :
    Store.KeepsRecords (fun s t : Ledger => s = t ∧ s.Sound) Ledger.HasRecord := by
  constructor
  rintro s t t' op a id c l ⟨rfl, hs⟩ hperform - hop ⟨k, r, hr, rfl, rfl, hcriterion⟩
  rw [Operation.Removes, not_or] at hop
  cases effect_of_perform hperform with
  | @deleteBadge id' =>
    have hkept : r.badge ≠ id' := fun heq => hop.1 (by rw [heq])
    exact ⟨k, r, Register.get?_filter_eq_some_iff.2 ⟨hr, by simpa using hkept⟩, rfl, rfl,
      hcriterion⟩
  | @deleteCriterion c' =>
    have hkept : k.fst ≠ c' := fun heq => hop.2 (by rw [← heq, (hs.met hr).1, hcriterion])
    exact ⟨k, r, Register.get?_filter_eq_some_iff.2 ⟨hr, by simpa using hkept⟩, rfl, rfl,
      hcriterion⟩
  | markMet hb hc hnone =>
    refine ⟨k, r, ?_, rfl, rfl, hcriterion⟩
    rw [Register.get?_insert_of_ne _ ?_, hr]
    rintro rfl
    rw [hnone] at hr
    cases hr
  | _ => exact ⟨k, r, hr, rfl, rfl, hcriterion⟩

theorem Tables.keepsRecords : Store.KeepsRecords HasBadges Tables.HasRecord := by
  constructor
  rintro s t t' op a id c l M hperform ⟨b, hb, hc⟩ hop ⟨r, hr, hbadge, hlearner, hcriterion⟩
  rw [Operation.Removes, not_or] at hop
  cases effect_of_perform hperform with
  | @deleteBadge id' =>
    have hne : r.badge ≠ id' := fun heq => hop.1 (by rw [← heq, hbadge])
    -- The criterion belongs to the badge that is named, and to no other.
    have hbelongs : t.belongs r.criterion id' = false := by
      refine Bool.eq_false_iff.2 fun hgone => hne ?_
      obtain ⟨b', hb', c', hc', hid⟩ := (M.belongs_iff M.sound.toBadgesSound).1 hgone
      rw [hbadge]
      exact M.sound.owner_unique hb hb' hc hc' (hcriterion.symm.trans hid.symm)
    exact ⟨r, List.mem_filter.2 ⟨hr, by simp [hne, hbelongs]⟩, hbadge, hlearner, hcriterion⟩
  | @deleteCriterion c' =>
    have hne : r.criterion ≠ c' := fun heq => hop.2 (by rw [← heq, hcriterion])
    exact ⟨r, List.mem_filter.2 ⟨hr, by simpa using hne⟩, hbadge, hlearner, hcriterion⟩
  | markMet => exact ⟨r, List.mem_append_left _ hr, hbadge, hlearner, hcriterion⟩
  | _ => exact ⟨r, hr, hbadge, hlearner, hcriterion⟩

namespace FaithfulCatalog

variable {σ : Type} [Store σ] {R : Ledger → σ → Prop} {form : Badge → Badge}
  {HasRecord : σ → BadgeId → LearnerId → CriterionId → Prop} {s : Ledger} {t t' : σ} {id : BadgeId}
  {l : LearnerId} {b b' : Badge} {c : CriterionId}
  (C : FaithfulCatalog R form) (hkeeps : Store.KeepsRecords R HasRecord)

include C hkeeps

/-- Whatever is done to a store, a criterion is gone afterwards or has the records that it had. -/
theorem gone_or_hasRecord (h : Store.Reaches Store.Anything t t') (hs : R s t) {d : Criterion}
    (hd : s.HasCriterion id d) (hrecord : HasRecord t id l d.id) :
    ∃ s', R s' t' ∧ (s'.Gone d.id ∨ s'.HasCriterion id d ∧ HasRecord t' id l d.id) := by
  refine h.preserves (I := fun t => ∃ s, R s t ∧
    (s.Gone d.id ∨ s.HasCriterion id d ∧ HasRecord t id l d.id))
    (fun {op a u u'} hu hperform _ => ?_) ⟨s, hs, .inr ⟨hd, hrecord⟩⟩
  obtain ⟨s, hs, hcase⟩ := hu
  by_cases hop : op.Removes id d.id
  · rcases C.step hs hperform with ⟨-, hedits⟩ | ⟨s', hledger, hs'⟩
    · rw [hop.editsBadges] at hedits
      cases hedits
    · have heffect := Ledger.effect_of_perform hledger
      refine ⟨s', hs', .inl ?_⟩
      rcases hcase with hgone | ⟨hd, -⟩
      · exact hgone.effect heffect
      · exact Ledger.gone_of_removes (C.sound hs).toBadgesSound hd heffect hop
  · have hrecord : s.HasCriterion id d ∧ HasRecord u id l d.id → HasRecord u' id l d.id :=
      fun h => hkeeps.kept hs hperform h.1 hop h.2
    rcases C.step hs hperform with ⟨hs', -⟩ | ⟨s', hledger, hs'⟩
    · exact ⟨s, hs', hcase.imp_right fun h => ⟨h.1, hrecord h⟩⟩
    · have heffect := Ledger.effect_of_perform hledger
      rw [Operation.Removes, not_or] at hop
      refine ⟨s', hs', hcase.imp (fun h => h.effect heffect) fun h => ⟨?_, hrecord h⟩⟩
      exact h.1.effect (C.sound hs).toBadgesSound heffect hop.1 hop.2

theorem hasRecord_of_owns (h : Store.Reaches Store.Anything t t') (hs : R s t)
    (hb : Store.badge? t id = some b) (hb' : Store.badge? t' id = some b') (hc : b.Owns c)
    (hc' : b'.Owns c) (hrecord : HasRecord t id l c) : HasRecord t' id l c := by
  obtain ⟨d, hd, rfl⟩ := C.exists_of_badge? hs hb
  obtain ⟨e, he, rfl⟩ := (Badge.owns_of_roles (C.roles_form hs hd)).1 hc
  obtain ⟨s', hs', hgone | ⟨-, hrecord'⟩⟩ :=
    C.gone_or_hasRecord hkeeps h hs ⟨d, hd, he⟩ hrecord
  · obtain ⟨d', hd', rfl⟩ := C.exists_of_badge? hs' hb'
    exact absurd ((Badge.owns_of_roles (C.roles_form hs' hd')).1 hc') (hgone.not_owns hd')
  · exact hrecord'

end FaithfulCatalog

end Badging
