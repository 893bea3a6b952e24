import Badging.Proofs.Definition.Validity
import Badging.Proofs.Service

/-!
# Creating a badge

Where the store does what it is asked, a badge is created exactly if its definition is valid. While
it is being built, the ledger has what it had, and besides that the badge as it is so far: that is
the invariant `Building`. A definition that turns out not to be valid leaves what was there, since
the badge has no rows yet that its deletion could miss.
-/

namespace Badging

namespace Ledger

structure SameRows (s s' : Ledger) : Prop where
  met : s'.met = s.met
  manual : s'.manual = s.manual
  awards : s'.awards = s.awards

/-- The ledgers have the same badges and the same rows; what identities were given out is not a part
of what a ledger shows. -/
structure SameContents (s s' : Ledger) : Prop extends SameRows s s' where
  badges : s'.badges = s.badges

/-- The ledgers have the same contents, apart from the badges with the given identities. -/
structure SameBut (ids : List BadgeId) (s s' : Ledger) : Prop extends SameRows s s' where
  badges : ∀ {id}, id ∉ ids → s'.badges.get? id = s.badges.get? id

variable {s s' s'' : Ledger} {ids ids' : List BadgeId} {id : BadgeId}

theorem SameRows.refl : SameRows s s := ⟨rfl, rfl, rfl⟩

theorem SameRows.trans (h : SameRows s s') (h' : SameRows s' s'') : SameRows s s'' :=
  ⟨h'.met.trans h.met, h'.manual.trans h.manual, h'.awards.trans h.awards⟩

theorem SameContents.refl : SameContents s s := ⟨.refl, rfl⟩

theorem SameBut.refl : SameBut ids s s := ⟨.refl, fun _ => rfl⟩

theorem SameBut.trans (h : SameBut ids s s') (h' : SameBut ids' s' s'') :
    SameBut (ids ++ ids') s s'' := by
  refine ⟨h.toSameRows.trans h'.toSameRows, fun {j} hj => ?_⟩
  rw [List.mem_append, not_or] at hj
  rw [h'.badges hj.2, h.badges hj.1]

theorem SameBut.insert (h : SameBut ids s s') (hid : id ∈ ids) (b : Badge) (last last' : Int) :
    SameBut ids s { s' with
      lastBadge := last, lastCriterion := last', badges := s'.badges.insert id b } := by
  refine ⟨⟨h.met, h.manual, h.awards⟩, fun {j} hj => ?_⟩
  dsimp only
  rw [s'.badges.get?_insert_of_ne, h.badges hj]
  rintro rfl
  exact hj hid

theorem SameBut.sameContents (h : SameBut [id] s s') (hid : s.badges.get? id = none)
    (hid' : s'.badges.get? id = none) : SameContents s s' := by
  refine ⟨h.toSameRows, Register.ext_get? fun j => ?_⟩
  by_cases hj : j = id
  · rw [hj, hid, hid']
  · exact h.badges (by simpa using hj)

theorem get?_of_deleteBadge_refused {e : StoreError}
    (h : Ledger.perform (.deleteBadge id) s = .error e) : s.badges.get? id = none := by
  cases hb : s.badges.get? id with
  | none => rfl
  | some b =>
    simp only [Ledger.perform, Ledger.deleteBadge, hb] at h
    cases h

theorem SameBut.deleteBadge (hs : s.Sound) (h : SameBut [id] s s')
    (hid : s.badges.get? id = none) {a : Unit}
    (hop : Ledger.perform (.deleteBadge id) s' = .ok (a, s'')) : SameContents s s'' := by
  have hextends : Extends s s' := by
    refine ⟨h.met, h.manual, h.awards, fun {j b} hj => ?_⟩
    rw [h.badges, hj]
    rw [List.mem_singleton]
    rintro rfl
    rw [hid] at hj
    cases hj
  have herased := hextends.erase hs hid
  cases effect_of_perform hop with
  | idle hidle => cases hidle
  | deleteBadge =>
    refine ⟨⟨herased.met, herased.manual, herased.awards⟩, Register.ext_get? fun j => ?_⟩
    dsimp only
    by_cases hj : j = id
    · rw [hj, Register.get?_erase, if_pos Std.ReflCmp.compare_self, hid]
    · rw [Register.get?_erase, if_neg (by simpa using Ne.symm hj), h.badges (by simpa using hj)]

end Ledger

namespace Definition

open Run Ledger

/-- The badge is stored as it is so far, and the rest of the ledger is that of `s₀`. -/
def Building (s₀ : Ledger) (b : Badge) : Assertion Ledger := fun s _ =>
  SameBut [b.id] s₀ s ∧ s.badges.get? b.id = some b

variable {setting : Setting} {s₀ s : Ledger} {n : List Notice} {b : Badge} {d : Definition}

theorem Building.insert (h : Building s₀ b s n) (b' : Badge) (hid : b'.id = b.id) (last : Int) :
    Building s₀ b' { s with
      lastCriterion := last, badges := s.badges.insert b.id b' } n := by
  rw [Building, hid]
  exact ⟨h.1.insert List.mem_cons_self b' _ _, Register.get?_insert_self _ _ _⟩

section Spared

variable (hspared : setting.faults.SparesStore)

include hspared

theorem triple_addCriterion (r : Criterion.Record) :
    Triple setting (Building s₀ b) (Run.perform (.addCriterion b.id r))
      (fun c s n => Building s₀ { b with criteria := b.criteria ++ [c] } s n ∧
        ∃ id, b.prepare id r = .ok c)
      (Unbroken fun s _ => SameBut [b.id] s₀ s ∧ ∃ id e, b.prepare id r = .error e) := by
  refine Triple.perform ?_ ?_
  · rintro e s n ⟨hbut, hb⟩ (⟨h, hfault⟩ | hrefused)
    · rw [hspared h] at hfault
      cases hfault
    · refine ⟨hbut, ⟨s.lastCriterion + 1⟩, ?_⟩
      have hperform : Ledger.addCriterion b.id r s = .error e := hrefused
      simp only [Ledger.addCriterion, hb] at hperform
      cases hprepare : b.prepare ⟨s.lastCriterion + 1⟩ r with
      | error e' => exact ⟨e', rfl⟩
      | ok c =>
        rw [hprepare] at hperform
        cases hperform
  · rintro h c s s' n hbuilding hop
    cases effect_of_perform hop with
    | idle hidle => cases hidle
    | addCriterion hb hc =>
      rw [hbuilding.2, Option.some.injEq] at hb
      subst hb
      exact ⟨hbuilding.insert { b with criteria := b.criteria ++ [c] } rfl _, _, hc⟩

/-- All records are added exactly if the badge takes them. -/
theorem triple_addCriteria_takes (rs : List Criterion.Record) (hedit : b.isEditable = true)
    (hone : b.criteria.countP (·.isOverall) ≤ 1) :
    Triple setting (Building s₀ b) (addCriteria b rs)
      (fun b' s n => Building s₀ b' s n ∧ b.Grown rs b' ∧ b.Takes rs)
      (Unbroken fun s _ => SameBut [b.id] s₀ s ∧ ¬ b.Takes rs) := by
  induction rs generalizing b with
  | nil => exact Triple.pure fun s n h => ⟨h, Badge.grown_nil, Badge.takes_nil hone⟩
  | cons r rs ih =>
    have hadd : Triple setting (Building s₀ b) (call (.addCriterion b.id r))
        (fun c s n => Building s₀ { b with criteria := b.criteria ++ [c] } s n ∧
          ∃ id, b.prepare id r = .ok c)
        (Unbroken fun s _ => SameBut [b.id] s₀ s ∧ ¬ b.Takes (r :: rs)) := by
      refine Triple.mapError (triple_addCriterion hspared r) ?_ fun _ _ _ h => h
      rintro _ s n ⟨hbut, id, e, hprepare⟩
      exact ⟨hbut, Badge.not_takes_cons hedit hprepare⟩
    refine Triple.bind hadd fun c => Triple.assume ?_
    rintro ⟨id, hprepare⟩
    have htakes : b.Takes (r :: rs) ↔ Badge.Takes { b with criteria := b.criteria ++ [c] } rs :=
      Badge.takes_cons_iff hprepare
    refine (ih (b := { b with criteria := b.criteria ++ [c] }) hedit
      (Badge.overall_le_one_append hprepare hone)).weaken (fun _ _ h => h) ?_ ?_
    · rintro b' s n ⟨hbuilding, hgrown, h⟩
      exact ⟨hbuilding, .cons hprepare hgrown, htakes.2 h⟩
    · rintro (_ | _) s n h
      · exact ⟨h.1, fun h' => h.2 (htakes.1 h')⟩
      · exact h

theorem triple_setStatus {E : Cut DefinitionError → Assertion Ledger} (status : Status) :
    Triple setting (Building s₀ b) (call (.setStatus b.id status))
      (fun _ => Building s₀ { b with status := status }) E := by
  refine Triple.mapError (E := fun _ _ _ => False) (Triple.perform_spared hspared fun s n h => ?_)
    (fun _ _ _ h => h.elim) fun _ _ _ h => h.elim
  refine ⟨(), { s with badges := s.badges.insert b.id { b with status := status } }, ?_,
    fun _ => h.insert { b with status := status } rfl _⟩
  simp only [Store.perform, Ledger.perform, Ledger.setStatus, h.2]
  rfl

theorem triple_configure (id : BadgeId) :
    Triple setting (Building s₀ (.ofNew id d.newBadge)) (configure (.ofNew id d.newBadge) d)
      (fun b s n => Building s₀ b s n ∧ b.id = id ∧ d.Describes b ∧ d.Valid)
      (Unbroken fun s _ => SameBut [id] s₀ s ∧ ¬ d.Valid) := by
  have hcriteria : Triple setting (Building s₀ (.ofNew id d.newBadge))
      (addCriteria (.ofNew id d.newBadge) d.criteria) _ _ :=
    triple_addCriteria_takes hspared d.criteria rfl (Nat.zero_le 1)
  refine Triple.bind (hcriteria.weaken (fun _ _ h => h) (fun _ _ _ h => h) ?_)
    fun b => Triple.assume ?_
  · rintro (_ | _) s n h
    · exact ⟨h.1, fun hvalid => h.2 (valid_iff_takes.1 hvalid).1⟩
    · exact h
  · rintro ⟨hgrown, htakes⟩
    have hid : b.id = id := hgrown.id_eq
    have hstatus : b.status = .draft := hgrown.status_eq
    have hdescribes := describes_grown hgrown
    -- The records were taken, so what is left to ask is whether the badge can be made available.
    have hvalid : d.Valid ↔ (d.activate = true → b.Complete) := by
      rw [valid_iff_takes, and_iff_right htakes, complete_grown_iff hgrown]
    cases hactivate : d.activate with
    | false =>
      rw [hactivate] at hdescribes hvalid
      have hb : { b with status := .draft } = b := by rw [← hstatus]
      exact Triple.pure fun s n h => ⟨h, hid, hb ▸ hdescribes, hvalid.2 nofun⟩
    | true =>
      rw [hactivate] at hdescribes hvalid
      cases hb : b.activate with
      | error e =>
        refine Triple.fail fun s n h => ⟨hid ▸ h.1, fun h' => ?_⟩
        rw [Badge.activate_eq_ok_iff_complete.2 ⟨by rw [hstatus]; decide, hvalid.1 h' rfl, rfl⟩]
          at hb
        cases hb
      | ok b' =>
        obtain ⟨-, hcomplete, rfl⟩ := Badge.activate_eq_ok_iff_complete.1 hb
        rw [hstatus]
        refine Triple.bind (triple_setStatus hspared (b := b) .active)
          fun _ => Triple.pure fun s n h => ?_
        exact ⟨h, hid, hdescribes, hvalid.2 fun _ => hcomplete⟩

/-- Nothing of a badge stays that is deleted before it has rows, or that is not there. -/
theorem triple_cleanup (hs₀ : s₀.Sound) {id : BadgeId} (hid : s₀.badges.get? id = none) :
    Triple setting (fun s _ => SameBut [id] s₀ s) (Run.perform (.deleteBadge id))
      (fun _ s _ => SameContents s₀ s) (Unbroken fun s _ => SameContents s₀ s) := by
  refine Triple.perform ?_ ?_
  · rintro e s n hbut (⟨h, hfault⟩ | hrefused)
    · rw [hspared h] at hfault
      cases hfault
    · exact hbut.sameContents hid (get?_of_deleteBadge_refused hrefused)
  · exact fun h a s s' n hbut hop => hbut.deleteBadge hs₀ hid hop

theorem triple_insertBadge (hs₀ : s₀.Sound) {E : Cut DefinitionError → Assertion Ledger} :
    Triple setting (fun s _ => s = s₀) (call (.insertBadge d.newBadge))
      (fun b s n => Building s₀ b s n ∧ ∃ id, s₀.badges.get? id = none ∧ b = .ofNew id d.newBadge)
      E := by
  refine Triple.mapError (E := fun _ _ _ => False) (Triple.perform_spared hspared fun s n h => ?_)
    (fun _ _ _ h => h.elim) fun _ _ _ h => h.elim
  subst h
  refine ⟨_, _, rfl, fun _ => ⟨⟨SameBut.refl.insert List.mem_cons_self _ _ _, ?_⟩,
    _, hs₀.get?_next, rfl⟩⟩
  exact Register.get?_insert_self _ _ _

/-- A badge is created exactly if its definition is valid. Otherwise the contents are what they
were. -/
theorem triple_create_exact (hs₀ : s₀.Sound) :
    Triple setting (fun s _ => s = s₀) d.create
      (fun b s n => Building s₀ b s n ∧ s₀.badges.get? b.id = none ∧ d.Describes b ∧ d.Valid)
      (Unbroken fun s _ => SameContents s₀ s ∧ ¬ d.Valid) := by
  refine Triple.bind (triple_insertBadge hspared hs₀) fun b => Triple.assume ?_
  rintro ⟨id, hfresh, rfl⟩
  refine Triple.bind_attempt (triple_configure hspared id) (fun b => Triple.pure ?_)
    (fun e => Triple.assume fun hinvalid => ?_) fun _ _ _ h => h.elim
  · rintro s n ⟨hbuilding, rfl, h⟩
    exact ⟨hbuilding, hfresh, h⟩
  · exact Triple.bind_attempt (triple_cleanup hspared hs₀ hfresh)
      (fun _ => Triple.fail fun _ _ h => ⟨h, hinvalid⟩)
      (fun _ => Triple.fail fun _ _ h => ⟨h, hinvalid⟩) fun _ _ _ h => h.elim

end Spared

end Definition

end Badging
