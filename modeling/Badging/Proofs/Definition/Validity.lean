import Badging.Definition
import Badging.Proofs.Criterion.RoundTrip
import Badging.Proofs.Store.Faithful

/-!
# Valid definitions

Whether a badge can be made of a definition is decided by its records: each has to be accepted, at
most one may be of the overall type, and the badge is only made available if exactly one is and
there is another. The records are given to the badge one by one, so this is seen along the list: a
badge takes a list of records if it takes the first one, and with it the others.
-/

namespace Badging

namespace Criterion.Record

/-- A criterion can be built from the record. -/
def Accepted (r : Record) : Prop := ∃ id badge c, ofRecord id badge r = .ok c

def isOverall (r : Record) : Bool := decide (Tag.parse r.criterionType = .ok .overall)

variable {r : Record}

/-- Whether a record is accepted depends on neither the criterion nor the badge it is for. -/
theorem Accepted.exists_ofRecord (h : r.Accepted) (id : CriterionId) (badge : BadgeId) :
    ∃ c, ofRecord id badge r = .ok c := by
  obtain ⟨_, _, _, hread⟩ := h
  obtain ⟨tag, kind, htag, hkind, -⟩ := ofRecord_eq_ok_iff.1 hread
  exact ⟨_, ofRecord_eq_ok_iff.2 ⟨tag, kind, htag, hkind, rfl⟩⟩

instance : DecidablePred Accepted := fun r =>
  match h : ofRecord ⟨0⟩ ⟨0⟩ r with
  | .ok c => .isTrue ⟨_, _, c, h⟩
  | .error _ => .isFalse fun haccepted => by
      obtain ⟨c, hc⟩ := haccepted.exists_ofRecord ⟨0⟩ ⟨0⟩
      rw [h] at hc
      cases hc

theorem isOverall_of_ofRecord {id : CriterionId} {badge : BadgeId} {c : Criterion}
    (h : ofRecord id badge r = .ok c) : c.isOverall = r.isOverall := by
  obtain ⟨tag, kind, htag, hkind, rfl⟩ := ofRecord_eq_ok_iff.1 h
  rw [Criterion.isOverall, Criterion.tag, (legible_of_ofParams hkind).1, isOverall, htag,
    Bool.eq_iff_iff]
  simp

end Criterion.Record

namespace Badge

variable {b b' : Badge} {id : CriterionId} {r : Criterion.Record} {rs : List Criterion.Record}
  {c : Criterion}

/-- The records can be added to the badge, one after the other. -/
structure Takes (b : Badge) (rs : List Criterion.Record) : Prop where
  accepted : ∀ r ∈ rs, r.Accepted
  overall_le_one : b.criteria.countP (·.isOverall) + rs.countP (·.isOverall) ≤ 1

/-- The badge `b'` is `b` with the criteria that the records make, in their order. -/
def Grown (b : Badge) (rs : List Criterion.Record) (b' : Badge) : Prop :=
  ∃ cs, b' = { b with criteria := b.criteria ++ cs } ∧
    List.Forall₂ (fun r c => Criterion.ofRecord c.id b.id r = .ok c) rs cs

theorem takes_nil (h : b.criteria.countP (·.isOverall) ≤ 1) : b.Takes [] :=
  ⟨fun _ hr => absurd hr List.not_mem_nil, h⟩

theorem grown_nil : b.Grown [] b := ⟨[], by rw [List.append_nil], .nil⟩

theorem takes_cons_iff (h : b.prepare id r = .ok c) :
    b.Takes (r :: rs) ↔ Takes { b with criteria := b.criteria ++ [c] } rs := by
  obtain ⟨-, hread, -⟩ := prepare_eq_ok_iff.1 h
  have hcount : b.criteria.countP (·.isOverall) + (r :: rs).countP (·.isOverall) =
      (b.criteria ++ [c]).countP (·.isOverall) + rs.countP (·.isOverall) := by
    rw [List.countP_append, List.countP_singleton, List.countP_cons,
      Criterion.Record.isOverall_of_ofRecord hread]
    omega
  constructor
  · rintro ⟨haccepted, hone⟩
    exact ⟨fun r' hr' => haccepted r' (List.mem_cons_of_mem _ hr'), hcount ▸ hone⟩
  · rintro ⟨haccepted, hone⟩
    exact ⟨List.forall_mem_cons.2 ⟨⟨_, _, _, hread⟩, haccepted⟩, hcount.symm ▸ hone⟩

theorem Grown.cons (h : b.prepare id r = .ok c)
    (hgrown : Grown { b with criteria := b.criteria ++ [c] } rs b') : b.Grown (r :: rs) b' := by
  obtain ⟨-, hread, -⟩ := prepare_eq_ok_iff.1 h
  obtain ⟨cs, rfl, hcs⟩ := hgrown
  refine ⟨c :: cs, by rw [← List.append_cons], .cons ?_ hcs⟩
  rwa [(Criterion.id_of_ofRecord hread).1]

theorem Grown.id_eq (h : b.Grown rs b') : b'.id = b.id := by
  obtain ⟨_, rfl, -⟩ := h
  rfl

theorem Grown.status_eq (h : b.Grown rs b') : b'.status = b.status := by
  obtain ⟨_, rfl, -⟩ := h
  rfl

theorem not_takes_cons {e : StoreError} (hedit : b.isEditable = true)
    (h : b.prepare id r = .error e) : ¬ b.Takes (r :: rs) := by
  rintro ⟨haccepted, hone⟩
  obtain ⟨c, hread⟩ := (haccepted r List.mem_cons_self).exists_ofRecord id b.id
  have hsecond : c.isOverall = true ∧ b.overall?.isSome = true := by
    by_contra hfirst
    rw [prepare_eq_ok_iff.2 ⟨hedit, hread, hfirst⟩] at h
    cases h
  have hpos : 0 < b.criteria.countP (·.isOverall) :=
    List.countP_pos_iff.2 (overall?_isSome_iff.1 hsecond.2)
  rw [List.countP_cons, ← Criterion.Record.isOverall_of_ofRecord hread, hsecond.1] at hone
  simp only [if_true] at hone
  omega

end Badge

namespace Definition

/-- The records are those with which a badge can be made available. -/
def Complete (d : Definition) : Prop :=
  d.criteria.countP (·.isOverall) = 1 ∧ ∃ r ∈ d.criteria, r.isOverall = false

instance : DecidablePred Complete := fun _ => inferInstanceAs (Decidable (_ ∧ _))

/-- A badge can be made of the definition. -/
structure Valid (d : Definition) : Prop where
  accepted : ∀ r ∈ d.criteria, r.Accepted
  overall_le_one : d.criteria.countP (·.isOverall) ≤ 1
  complete : d.activate = true → d.Complete

theorem valid_iff {d : Definition} : d.Valid ↔ (∀ r ∈ d.criteria, r.Accepted) ∧
    d.criteria.countP (·.isOverall) ≤ 1 ∧ (d.activate = true → d.Complete) :=
  ⟨fun ⟨h₁, h₂, h₃⟩ => ⟨h₁, h₂, h₃⟩, fun ⟨h₁, h₂, h₃⟩ => ⟨h₁, h₂, h₃⟩⟩

instance : DecidablePred Valid := fun _ => decidable_of_iff _ valid_iff.symm

/-- The badge is the one that the definition describes. -/
structure Describes (d : Definition) (b : Badge) : Prop where
  name : b.name = d.name
  owner : b.owner = d.owner
  expiry : b.expiry = d.expiry
  status : b.status = if d.activate then .active else .draft
  /-- The criteria are those of the records, in their order. -/
  criteria : List.Forall₂ (fun r c => Criterion.ofRecord c.id b.id r = .ok c) d.criteria b.criteria

variable {d : Definition} {id : BadgeId} {b : Badge}

/-- A definition is valid if a new badge takes its records and, where it asks for that, can be made
available with them. -/
theorem valid_iff_takes :
    d.Valid ↔ (Badge.ofNew id d.newBadge).Takes d.criteria ∧ (d.activate = true → d.Complete) := by
  have hcount : (Badge.ofNew id d.newBadge).criteria.countP (·.isOverall) +
      d.criteria.countP (·.isOverall) = d.criteria.countP (·.isOverall) := Nat.zero_add _
  constructor
  · rintro ⟨haccepted, hone, hcomplete⟩
    exact ⟨⟨haccepted, by rwa [hcount]⟩, hcomplete⟩
  · rintro ⟨⟨haccepted, hone⟩, hcomplete⟩
    rw [hcount] at hone
    exact ⟨haccepted, hone, hcomplete⟩

theorem complete_grown_iff (h : (Badge.ofNew id d.newBadge).Grown d.criteria b) :
    b.Complete ↔ d.Complete := by
  obtain ⟨cs, rfl, hcs⟩ := h
  have hroles : cs.map (·.isOverall) = d.criteria.map (·.isOverall) := by
    rw [← List.forall₂_eq_eq_eq, List.forall₂_map_left_iff, List.forall₂_map_right_iff]
    exact hcs.flip.imp fun _ _ => Criterion.Record.isOverall_of_ofRecord
  have hcount : cs.countP (·.isOverall) = d.criteria.countP (·.isOverall) := by
    have hmap := congrArg (List.countP fun o => o) hroles
    rwa [List.countP_map, List.countP_map] at hmap
  have hothers : (cs.filter (!·.isOverall)) ≠ [] ↔ false ∈ cs.map (·.isOverall) := by
    simp [List.filter_eq_nil_iff]
  have hothers' : (∃ r ∈ d.criteria, r.isOverall = false) ↔ false ∈ d.criteria.map (·.isOverall) :=
    List.mem_map.symm
  rw [Complete, hothers', ← hroles, ← hothers, ← hcount]
  rfl

/-- A badge that was made of the records of a definition, with the status that it asks for, is the
one that it describes. -/
theorem describes_grown (h : (Badge.ofNew id d.newBadge).Grown d.criteria b) :
    d.Describes { b with status := if d.activate then .active else .draft } := by
  obtain ⟨cs, rfl, hcs⟩ := h
  exact ⟨rfl, rfl, rfl, rfl, hcs⟩

end Definition

end Badging
