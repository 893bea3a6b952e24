import Badging.Proofs.Store.Mirror
import Badging.Proofs.Store.Tables.Effect

/-!
# The badges that a store shows

Whatever its rows are, a store has the badges of a ledger, and it changes them as the ledger does.
`Catalog R form` says so of a relation `R` between ledgers and stores: an operation that the store
answers is one that the ledger answers alike, or it leaves the badges alone. The store shows the
badges in the form `form`. A ledger shows its own badges as they are, and tables show them as they
are read back, so what is proved of the badges of a catalog holds of both stores.

Tables need not mirror the rows of the ledger here. So nothing is asked of the operations, which is
more than the refinement of a ledger by tables can do.
-/

namespace Badging

/-- Whether an operation may change badges or their criteria. -/
def Operation.editsBadges : Operation → Bool
  | .insertBadge _ | .setStatus _ _ | .deleteBadge _ => true
  | .addCriterion _ _ | .deleteCriterion _ => true
  | _ => false

theorem Operation.editsBadges_of_isReading {op : Operation} (h : op.isReading = true) :
    op.editsBadges = false := by
  cases op <;> first | rfl | cases h

theorem Store.Idle.editsBadges {op : Operation} {a : op.Answer} (h : Store.Idle op a) :
    op.editsBadges = false := by
  cases op <;> first | rfl | cases h

def Store.badge? {σ : Type} [Store σ] (s : σ) (id : BadgeId) : Option Badge :=
  match perform (.badge id) s with
  | .ok (b, _) => b
  | .error _ => none

/-- Stores that are related by `R` to ledgers whose badges they have. -/
structure Catalog {σ : Type} [Store σ] (R : Ledger → σ → Prop) (form : Badge → Badge) : Prop where
  step : ∀ {s t t'} {op : Operation} {a : op.Answer}, R s t → Store.perform op t = .ok (a, t') →
    R s t' ∧ op.editsBadges = false ∨ ∃ s', Ledger.perform op s = .ok (a, s') ∧ R s' t'
  badge : ∀ {s t} (id : BadgeId), R s t →
    Store.perform (.badge id) t = .ok ((s.badges.get? id).map form, t)
  badges : ∀ {s t}, R s t → Store.perform .badges t = .ok (s.badges.values.map form, t)
  setStatus : ∀ {s t id b} (status : Status), R s t → s.badges.get? id = some b →
    ∃ t', Store.perform (.setStatus id status) t = .ok ((), t')
  insertAward : ∀ {s t t' a}, R s t → Store.perform (.insertAward a) t = .ok (true, t') →
    ∃ b, s.badges.get? a.badge = some b
  form_setStatus : ∀ b status, form { b with status := status } = { form b with status := status }

/-- The store has the badges of a register. -/
def Shows {σ : Type} (R : Ledger → σ → Prop) (B : Register BadgeId Badge) (t : σ) : Prop :=
  ∃ s, R s t ∧ s.badges = B

theorem Ledger.Effect.badges_eq {op : Operation} {a : op.Answer} {s s' : Ledger}
    (h : Ledger.Effect s op a s') (hop : op.editsBadges = false) : s'.badges = s.badges := by
  cases h with
  | insertBadge | setStatus | deleteBadge | addCriterion | deleteCriterion => cases hop
  | _ => rfl

namespace Catalog

variable {σ : Type} [Store σ] {R : Ledger → σ → Prop} {form : Badge → Badge}
  {B : Register BadgeId Badge} {t t' : σ} (C : Catalog R form)

include C

theorem status_form (b : Badge) : (form b).status = b.status := by
  rw [show form b = { form b with status := b.status } from C.form_setStatus b b.status]

theorem form_lock (b : Badge) : form b.lock = (form b).lock := by
  rw [Badge.lock, C.form_setStatus, Badge.lock, C.status_form]

theorem badge?_eq (h : Shows R B t) (id : BadgeId) : Store.badge? t id = (B.get? id).map form := by
  obtain ⟨s, hs, rfl⟩ := h
  rw [Store.badge?, C.badge id hs]

theorem shows_of_perform {op : Operation} {a : op.Answer} (hop : op.editsBadges = false)
    (h : Shows R B t) (hperform : Store.perform op t = .ok (a, t')) : Shows R B t' := by
  obtain ⟨s, hs, rfl⟩ := h
  rcases C.step hs hperform with ⟨hs', -⟩ | ⟨s', hledger, hs'⟩
  · exact ⟨s, hs', rfl⟩
  · exact ⟨s', hs', (Ledger.effect_of_perform hledger).badges_eq hop⟩

theorem shows_setStatus {id : BadgeId} {b : Badge} (status : Status) (h : Shows R B t)
    (hb : B.get? id = some b) : ∃ t', Store.perform (.setStatus id status) t = .ok ((), t') ∧
      Shows R (B.insert id { b with status := status }) t' := by
  obtain ⟨s, hs, rfl⟩ := h
  obtain ⟨t', hperform⟩ := C.setStatus status hs hb
  refine ⟨t', hperform, ?_⟩
  rcases C.step hs hperform with ⟨-, hop⟩ | ⟨s', hledger, hs'⟩
  · cases hop
  · refine ⟨s', hs', ?_⟩
    cases Ledger.effect_of_perform hledger with
    | idle hidle => cases hidle
    | setStatus hb' =>
      rw [hb, Option.some.injEq] at hb'
      rw [hb']

/-- A store that was reached by operations has the badges of some ledger. -/
theorem exists_of_reaches {ok : (op : Operation) → op.Answer → Prop} {s : Ledger} (hs : R s t)
    (h : Store.Reaches ok t t') : ∃ s', R s' t' := by
  refine h.preserves (I := fun t => ∃ s, R s t) (fun {op a t t'} ht hperform _ => ?_) ⟨s, hs⟩
  obtain ⟨s, hs⟩ := ht
  rcases C.step hs hperform with ⟨hs', -⟩ | ⟨s', -, hs'⟩
  · exact ⟨s, hs'⟩
  · exact ⟨s', hs'⟩

end Catalog

theorem Ledger.catalog : Catalog (fun s t : Ledger => s = t) id where
  step := by
    rintro s t t' op a rfl hperform
    exact .inr ⟨t', hperform, rfl⟩
  badge := by
    rintro s t id rfl
    rw [Option.map_id]
    rfl
  badges := by
    rintro s t rfl
    rw [List.map_id]
    rfl
  setStatus := by
    rintro s t id b status rfl hb
    refine ⟨{ s with badges := s.badges.insert id { b with status := status } }, ?_⟩
    simp only [Store.perform, perform, Ledger.setStatus, hb]
    rfl
  insertAward := by
    rintro s t t' a rfl hperform
    exact (perform_insertAward_true_iff.1 hperform).1
  form_setStatus _ _ := rfl

/-- The tables have the badges of the ledger, which is sound. -/
structure Tables.HasBadges (s : Ledger) (t : Tables) : Prop extends MirrorsBadges s t where
  sound : s.Sound

namespace Tables.HasBadges

variable {s : Ledger} {t t' : Tables}

theorem empty : HasBadges .empty .empty := ⟨mirrors_empty.toMirrorsBadges, Ledger.sound_empty⟩

variable (M : HasBadges s t)

include M

theorem exists_badge_iff {id : BadgeId} :
    (∃ r ∈ t.badges, r.id = id) ↔ ∃ b, s.badges.get? id = some b := by
  rw [← Tables.exists_badge_iff, M.any_badges M.sound.toBadgesSound, Register.contains_eq_true_iff]

theorem step {op : Operation} {a : op.Answer} (h : Effect t op a t') :
    HasBadges s t' ∧ op.editsBadges = false ∨
      ∃ s', Ledger.perform op s = .ok (a, s') ∧ HasBadges s' t' := by
  have hbadges := M.sound.toBadgesSound
  cases h with
  | idle h => exact .inl ⟨M, h.editsBadges⟩
  | markMet | recordManual | insertAward => exact .inl ⟨⟨M.of_rows, M.sound⟩, rfl⟩
  | insertBadge new =>
    rw [M.lastBadge]
    exact .inr ⟨_, rfl, M.insertBadge hbadges new, M.sound.insertBadge new⟩
  | @setStatus id status h =>
    obtain ⟨b, hb⟩ := M.exists_badge_iff.1 h
    refine .inr ⟨_, ?_, M.setStatus hbadges hb status, M.sound.setStatus hb status⟩
    simp only [Ledger.perform, Ledger.setStatus, hb]
    rfl
  | @deleteBadge id h =>
    obtain ⟨b, hb⟩ := M.exists_badge_iff.1 h
    refine .inr ⟨_, ?_, (M.deleteBadge hbadges id).of_rows, M.sound.deleteBadge id⟩
    simp only [Ledger.perform, Ledger.deleteBadge, hb]
    rfl
  | @addCriterion id record b' c' h hc =>
    rw [M.badge?_eq hbadges, Except.ok.injEq, Option.map_eq_some_iff] at h
    obtain ⟨b, hb, rfl⟩ := h
    -- The tables prepare the criterion for the badge as it is read back.
    rw [Badge.prepare_rebuilt (M.legible hb) ⟨s.lastCriterion + 1⟩, map_eq_ok_iff] at hc
    obtain ⟨c, hc, rfl⟩ := hc
    obtain ⟨-, hread, -⟩ := Badge.prepare_eq_ok_iff.1 hc
    obtain ⟨hcid, hcbadge⟩ := Criterion.id_of_ofRecord hread
    have hnext := M.addCriterion hbadges hb hc
    have hsound := M.sound.addCriterion hb hc
    have hbid := (hbadges.badge hb).id_eq
    obtain ⟨cid, cbadge, method, description, kind⟩ := c
    obtain ⟨rfl, rfl⟩ : cid = ⟨s.lastCriterion + 1⟩ ∧ cbadge = id := ⟨hcid, hcbadge.trans hbid⟩
    rw [M.lastCriterion]
    refine .inr ⟨_, ?_, hnext, hsound⟩
    simp only [Ledger.perform, Ledger.addCriterion, hb, hc]
  | @deleteCriterion id row b' hrow h hedit =>
    obtain ⟨d, hd, c, hc, rfl⟩ := M.exists_criterion (List.mem_of_find?_eq_some hrow)
    have htest := List.find?_some hrow
    have hcid : c.id = id := beq_iff_eq.1 htest
    rw [M.badge?_eq hbadges, hd, Except.ok.injEq, Option.map_some, Option.some.injEq] at h
    have heditable : d.isEditable = true := by
      rw [← hedit, ← h]
      rfl
    refine .inr ⟨_, ?_, (M.deleteCriterion hbadges hd ⟨c, hc, hcid⟩).of_rows,
      M.sound.deleteCriterion hd⟩
    simp only [Ledger.perform, Ledger.deleteCriterion, hbadges.ownerOf?_eq hd hc hcid, heditable]
    rfl

end Tables.HasBadges

theorem Tables.catalog : Catalog Tables.HasBadges Badge.rebuilt where
  step M hperform := M.step (effect_of_perform hperform)
  badge {s t} id M := by
    show (t.badge? id).map (·, t) = _
    rw [M.badge?_eq M.sound.toBadgesSound]
    rfl
  badges {s t} M := by
    show (t.badges.mapM t.readBadge).map (·, t) = _
    rw [M.mapM_readBadge M.sound.toBadgesSound]
    rfl
  setStatus {s t id b} status M hb := by
    have hany : t.badges.any (·.id == id) = true :=
      Tables.exists_badge_iff.2 (M.exists_badge_iff.2 ⟨b, hb⟩)
    simp only [Store.perform, perform, Tables.setStatus, hany]
    exact ⟨_, rfl⟩
  insertAward M hperform :=
    M.exists_badge_iff.1 (perform_insertAward_true_iff.1 hperform).1
  form_setStatus _ _ := rfl

end Badging
