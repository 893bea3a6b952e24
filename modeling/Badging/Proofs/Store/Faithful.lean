import Badging.Proofs.Store.Removal

/-!
# Faithful catalogs

A catalog may show its badges in a form of its own. It is faithful if the form leaves a badge
recognisable: the badge is shown under its identity, and each criterion keeps its identity and is
overall if it was. What is known of a badge from the roles of its criteria is then seen in the
store: whether it is complete, and which criteria it needs to be.

A faithful catalog also says no where the badge does. Refusals are no part of a catalog, which only
tells about operations that are answered.
-/

namespace Badging

namespace Badge

/-- The identities of the criteria, each with whether it is overall. -/
def roles (b : Badge) : List (CriterionId × Bool) := b.criteria.map fun c => (c.id, c.isOverall)

/-- What a badge is activated with: exactly one overall criterion, and at least one other. -/
def Complete (b : Badge) : Prop :=
  b.criteria.countP (·.isOverall) = 1 ∧ b.requirements ≠ []

instance (b : Badge) : Decidable b.Complete := inferInstanceAs (Decidable (_ ∧ _))

/-- The criterion is the overall one, or there is no other besides it and the overall one. -/
def Needs (b : Badge) (c : CriterionId) : Prop :=
  b.overall?.map (·.id) = some c ∨ ∀ r ∈ b.requirements, r.id = c

instance (b : Badge) (c : CriterionId) : Decidable (b.Needs c) :=
  inferInstanceAs (Decidable (_ ∨ _))

variable {b b' : Badge} {c : CriterionId}

theorem activate_eq_ok_iff_complete :
    b.activate = .ok b' ↔
      b.status ≠ .archived ∧ b.Complete ∧ b' = { b with status := b.status.activated } := by
  rw [activate_eq_ok_iff, Complete, and_assoc]

theorem complete_iff_roles :
    b.Complete ↔ b.roles.countP (·.2) = 1 ∧ b.roles.filter (!·.2) ≠ [] := by
  simp only [Complete, roles, requirements, List.countP_map, List.filter_map, ne_eq,
    List.map_eq_nil_iff]
  rfl

theorem needs_iff_roles : b.Needs c ↔ (b.roles.find? (·.2)).map (·.1) = some c ∨
    ∀ r ∈ b.roles.filter (!·.2), r.1 = c := by
  have hoverall : (b.roles.find? (·.2)).map (·.1) = b.overall?.map (·.id) := by
    rw [roles, List.find?_map, Option.map_map]
    rfl
  have hrequirements : b.roles.filter (!·.2) = b.requirements.map fun c => (c.id, c.isOverall) := by
    rw [roles, List.filter_map]
    rfl
  rw [hoverall, hrequirements, List.forall_mem_map]
  rfl

theorem complete_congr (h : b'.roles = b.roles) : b'.Complete ↔ b.Complete := by
  rw [complete_iff_roles, complete_iff_roles, h]

theorem needs_congr (h : b'.roles = b.roles) : b'.Needs c ↔ b.Needs c := by
  rw [needs_iff_roles, needs_iff_roles, h]

theorem owns_of_roles (h : b'.roles = b.roles) : b'.Owns c ↔ b.Owns c := by
  have hiff : ∀ d : Badge, d.Owns c ↔ ∃ r ∈ d.roles, r.1 = c := fun d => by
    simp [Owns, roles]
  rw [hiff, hiff, h]

theorem Complete.without (h : b.Complete) (hc : ¬ b.Needs c) : (b.without c).Complete := by
  obtain ⟨hcount, -⟩ := h
  rw [Needs, not_or] at hc
  obtain ⟨hoverall, hrequirement⟩ := hc
  rw [List.countP_eq_length_filter, List.length_eq_one_iff] at hcount
  obtain ⟨o, ho⟩ := hcount
  have hfind : b.overall? = some o := by
    rw [overall?, ← List.head?_filter, ho, List.head?_cons]
  constructor
  · -- The one overall criterion is among those that stay.
    have hkept : o.id ≠ c := fun hid => hoverall (by rw [hfind, Option.map_some, hid])
    rw [List.countP_eq_length_filter, Badge.without, List.filter_filter]
    simp only [Bool.and_comm]
    rw [← List.filter_filter, ho]
    simp [hkept]
  · push Not at hrequirement
    obtain ⟨r, hr, hid⟩ := hrequirement
    obtain ⟨hmem, hrole⟩ := mem_requirements_iff.1 hr
    have hmem' : r ∈ (b.without c).requirements :=
      mem_requirements_iff.2 ⟨List.mem_filter.2 ⟨hmem, by simpa using hid⟩, hrole⟩
    exact List.ne_nil_of_mem hmem'

theorem Complete.exists_overall (h : b.Complete) : ∃ o, b.overall? = some o := by
  rw [← Option.isSome_iff_exists, overall?_isSome_iff]
  have hpos : 0 < b.criteria.countP (·.isOverall) := by
    rw [h.1]
    exact Nat.one_pos
  exact List.countP_pos_iff.1 hpos

end Badge

/-- A catalog of sound ledgers which shows the badges under their identities and with the roles of
their criteria. A badge that is not editable refuses a change of its criteria. -/
structure FaithfulCatalog {σ : Type} [Store σ] (R : Ledger → σ → Prop) (form : Badge → Badge) :
    Prop extends Catalog R form where
  sound : ∀ {s t}, R s t → s.Sound
  id_form : ∀ b, (form b).id = b.id
  roles_form : ∀ {s t id b}, R s t → s.badges.get? id = some b → (form b).roles = b.roles
  addCriterion_locked : ∀ {s t id b} (r : Criterion.Record), R s t → s.badges.get? id = some b →
    b.isEditable = false → Store.perform (.addCriterion id r) t = .error (.locked id)
  deleteCriterion_locked : ∀ {s t id b c}, R s t → s.badges.get? id = some b →
    b.isEditable = false → b.Owns c → Store.perform (.deleteCriterion c) t = .error (.locked id)

theorem Badge.prepare_of_not_isEditable {b : Badge} (h : b.isEditable = false) (id : CriterionId)
    (r : Criterion.Record) : b.prepare id r = .error (.locked b.id) := by
  simp [prepare, h]

theorem Ledger.faithfulCatalog : FaithfulCatalog (fun s t : Ledger => s = t ∧ s.Sound) id where
  step := by
    rintro s t t' op a ⟨rfl, hs⟩ hperform
    exact .inr ⟨t', hperform, rfl, hs.effect (effect_of_perform hperform)⟩
  badge id h := Ledger.catalog.badge id h.1
  badges h := Ledger.catalog.badges h.1
  setStatus status h hb := Ledger.catalog.setStatus status h.1 hb
  insertAward h hperform := Ledger.catalog.insertAward h.1 hperform
  form_setStatus _ _ := rfl
  sound h := h.2
  id_form _ := rfl
  roles_form _ _ := rfl
  addCriterion_locked := by
    rintro s t id b r ⟨rfl, hs⟩ hb hlocked
    show s.addCriterion id r = _
    simp only [addCriterion, hb, Badge.prepare_of_not_isEditable hlocked, (hs.badge hb).id_eq]
  deleteCriterion_locked := by
    rintro s t id b c ⟨rfl, hs⟩ hb hlocked ⟨d, hd, hid⟩
    show (s.deleteCriterion c).map (((), ·)) = _
    rw [deleteCriterion, hs.toBadgesSound.ownerOf?_eq hb hd hid]
    simp only [hlocked, (hs.badge hb).id_eq]
    rfl

theorem Tables.faithfulCatalog : FaithfulCatalog Tables.HasBadges Badge.rebuilt where
  toCatalog := Tables.catalog
  sound M := M.sound
  id_form _ := rfl
  roles_form {s t id b} M hb := by
    rw [Badge.roles, Badge.rebuilt, List.map_map]
    refine List.map_congr_left fun c hc => ?_
    exact congrArg (Prod.mk c.id) (Criterion.isOverall_rebuilt (M.legible hb c hc))
  addCriterion_locked {s t id b} r M hb hlocked := by
    show t.addCriterion id r = _
    have hid : b.id = id := (M.sound.badge hb).id_eq
    rw [addCriterion, M.badge?_eq M.sound.toBadgesSound, hb]
    simp only [Option.map_some]
    rw [Badge.prepare_of_not_isEditable (b := b.rebuilt) hlocked, ← hid]
    rfl
  deleteCriterion_locked {s t id b c} M hb hlocked hc := by
    obtain ⟨d, hd, hid⟩ := hc
    have hbadges := M.sound.toBadgesSound
    have hany : t.criteria.any (·.id == c) = true := M.any_criteria_iff.2 ⟨id, b, d, hb, hd, hid⟩
    obtain ⟨row, hrow⟩ := Option.isSome_iff_exists.1 (List.find?_isSome.2 (List.any_eq_true.1 hany))
    obtain ⟨b', hb', d', hd', rfl⟩ := M.exists_criterion (List.mem_of_find?_eq_some hrow)
    have htest := List.find?_some hrow
    have hid' : d'.id = c := beq_iff_eq.1 htest
    have howner : d'.row.badge = id := hbadges.owner_unique hb' hb hd' hd (hid'.trans hid.symm)
    show (t.deleteCriterion c).map (((), ·)) = _
    have heditable : b.rebuilt.isEditable = false := hlocked
    simp only [deleteCriterion, hrow, M.badge?_eq hbadges, howner, hb, Option.map_some, heditable]
    rfl

namespace FaithfulCatalog

variable {σ : Type} [Store σ] {R : Ledger → σ → Prop} {form : Badge → Badge} {s : Ledger} {t : σ}
  {id : BadgeId} (C : FaithfulCatalog R form)

include C

/-- What is shown of a badge is the form of the one that is stored. -/
theorem badge?_eq (h : R s t) (id : BadgeId) :
    Store.badge? t id = (s.badges.get? id).map form :=
  C.toCatalog.badge?_eq ⟨s, h, rfl⟩ id

theorem exists_of_badge? (h : R s t) {b : Badge} (hb : Store.badge? t id = some b) :
    ∃ d, s.badges.get? id = some d ∧ form d = b := by
  rw [C.badge?_eq h, Option.map_eq_some_iff] at hb
  exact hb

theorem eq_form_of_id (h : R s t) {b d : Badge} (hb : s.badges.get? id = some b)
    (hd : d ∈ s.badges.values.map form) (hid : d.id = id) : d = form b := by
  obtain ⟨d', hd', rfl⟩ := List.mem_map.1 hd
  obtain ⟨k, hk⟩ := Register.mem_values_iff.1 hd'
  have hkid : k = id := by rw [← hid, C.id_form, ((C.sound h).badge hk).id_eq]
  rw [hkid, hb, Option.some.injEq] at hk
  rw [hk]

end FaithfulCatalog

end Badging
