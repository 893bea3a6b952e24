import Badging.Proofs.Store.Ledger.Sound

/-!
# Identities are given out once

A store gives out an identity with each badge and with each criterion that it answers was added.
`Store.given` lists what is given out along a run. For each sort of identity a ledger has a counter
that no operation turns back, and an identity that is given out lies beyond the counter before and
not beyond the counter after. So identities ascend along a run, whatever is refused or removed in
between.

With this, all is said of the ledgers that a run leads to: they are sound, no two of their criteria
have the same identity, and no identity comes back after a removal.
-/

namespace Badging

def Operation.newBadge? : (op : Operation) → Except StoreError op.Answer → Option BadgeId
  | .insertBadge _, .ok b => some b.id
  | _, _ => none

def Operation.newCriterion? : (op : Operation) → Except StoreError op.Answer → Option CriterionId
  | .addCriterion _ _, .ok c => some c.id
  | _, _ => none

namespace Store

variable {σ : Type} [Store σ] {k : Entity}
  {new? : (op : Operation) → Except StoreError op.Answer → Option (Ident k)} {last : σ → Int}

/-- The identities that are given out along a run. -/
def given (new? : (op : Operation) → Except StoreError op.Answer → Option (Ident k)) :
    σ → List Operation → List (Ident k)
  | _, [] => []
  | s, op :: ops => (new? op (step op s).1).toList ++ given new? (step op s).2 ops

/-- No operation turns the counter back, and what is given out is what it has passed. -/
def Counts (new? : (op : Operation) → Except StoreError op.Answer → Option (Ident k))
    (last : σ → Int) : Prop :=
  ∀ op s, last s ≤ last (step op s).2 ∧
    ∀ id, new? op (step op s).1 = some id → last s < id.val ∧ id.val ≤ last (step op s).2

theorem Counts.lt_of_mem_given (h : Counts new? last) {s : σ} {ops : List Operation} {id : Ident k}
    (hid : id ∈ given new? s ops) : last s < id.val := by
  induction ops generalizing s with
  | nil => cases hid
  | cons op ops ih =>
    obtain ⟨hle, hnew⟩ := h op s
    rcases List.mem_append.1 hid with hid | hid
    · exact (hnew id (Option.mem_toList.1 hid)).1
    · exact Int.lt_of_le_of_lt hle (ih hid)

theorem Counts.ascending_given (h : Counts new? last) (s : σ) (ops : List Operation) :
    (given new? s ops).Pairwise (·.val < ·.val) := by
  induction ops generalizing s with
  | nil => exact .nil
  | cons op ops ih =>
    obtain ⟨-, hnew⟩ := h op s
    have hfirst : (new? op (step op s).1).toList.Pairwise (·.val < ·.val) := by
      cases new? op (step op s).1 with
      | none => exact .nil
      | some id => exact List.pairwise_singleton _ id
    refine List.pairwise_append.2 ⟨hfirst, ih _, fun id hid id' hid' => ?_⟩
    exact Int.lt_of_le_of_lt (hnew id (Option.mem_toList.1 hid)).2 (h.lt_of_mem_given hid')

end Store

namespace Ledger

/-- A counter is one of a store if it counts whatever the effect of an operation is. -/
theorem counts_of_effect {k : Entity}
    {new? : (op : Operation) → Except StoreError op.Answer → Option (Ident k)} {last : Ledger → Int}
    (hrefused : ∀ op e, new? op (.error e) = none)
    (h : ∀ {s op a s'}, Effect s op a s' → last s ≤ last s' ∧
      ∀ id, new? op (.ok a) = some id → last s < id.val ∧ id.val ≤ last s') :
    Store.Counts new? last := by
  intro op s
  unfold Store.step
  cases hop : Store.perform op s with
  | error e =>
    refine ⟨Int.le_refl _, fun id hid => ?_⟩
    rw [hrefused] at hid
    cases hid
  | ok p => exact h (effect_of_perform hop)

theorem counts_badges : Store.Counts Operation.newBadge? lastBadge := by
  refine counts_of_effect (fun op _ => by cases op <;> rfl) fun {s op a s'} h => ?_
  cases h with
  | idle h =>
    refine ⟨Int.le_refl _, fun id hid => ?_⟩
    cases op with
    | insertBadge => cases h
    | _ => cases hid
  | insertBadge new =>
    refine ⟨Int.le_of_lt (Int.lt_succ _), fun id hid => ?_⟩
    cases hid
    exact ⟨Int.lt_succ _, Int.le_refl _⟩
  | _ => exact ⟨Int.le_refl _, fun id hid => by cases hid⟩

theorem counts_criteria : Store.Counts Operation.newCriterion? lastCriterion := by
  refine counts_of_effect (fun op _ => by cases op <;> rfl) fun {s op a s'} h => ?_
  cases h with
  | idle h =>
    refine ⟨Int.le_refl _, fun id hid => ?_⟩
    cases op with
    | addCriterion => cases h
    | _ => cases hid
  | addCriterion hb hc =>
    refine ⟨Int.le_of_lt (Int.lt_succ _), fun id hid => ?_⟩
    cases hid
    obtain ⟨-, hread, -⟩ := Badge.prepare_eq_ok_iff.1 hc
    rw [(Criterion.id_of_ofRecord hread).1]
    exact ⟨Int.lt_succ _, Int.le_refl _⟩
  | _ => exact ⟨Int.le_refl _, fun id hid => by cases hid⟩

def criteria (s : Ledger) : List CriterionId :=
  s.badges.values.flatMap fun b => b.criteria.map (·.id)

theorem BadgesSound.nodup_criteria {s : Ledger} (hs : s.BadgesSound) : s.criteria.Nodup := by
  refine List.nodup_flatMap.2 ⟨fun b hb => ?_, ?_⟩
  · obtain ⟨id, hid⟩ := Register.mem_values_iff.1 hb
    refine List.pairwise_map.2 ((hs.badge hid).ascending.imp fun {c d} hlt heq => ?_)
    rw [heq] at hlt
    exact Int.lt_irrefl _ hlt
  · refine List.pairwise_map.2 (s.badges.ascending.imp_of_mem fun {e e'} he he' hlt => ?_)
    intro id hid hid'
    obtain ⟨c, hc, rfl⟩ := List.mem_map.1 hid
    obtain ⟨c', hc', heq⟩ := List.mem_map.1 hid'
    have hkey : e.1 = e'.1 := hs.owner_unique (Register.mem_entries_iff.1 he)
      (Register.mem_entries_iff.1 he') hc hc' heq.symm
    have hself : compare e'.1 e'.1 = .eq := Std.ReflCmp.compare_self
    rw [hkey, hself] at hlt
    cases hlt

/-- Whatever is done to a new ledger, it is sound afterwards, its criteria have identities of their
own, and no identity of a badge or of a criterion was given out twice on the way. -/
theorem sound_and_identities_once (ops : List Operation) :
    (Store.run Ledger.empty ops).Sound ∧ (Store.run Ledger.empty ops).criteria.Nodup ∧
      (Store.given Operation.newBadge? Ledger.empty ops).Pairwise (·.val < ·.val) ∧
      (Store.given Operation.newCriterion? Ledger.empty ops).Pairwise (·.val < ·.val) := by
  have hsound := sound_run ops
  exact ⟨hsound, hsound.nodup_criteria, counts_badges.ascending_given _ ops,
    counts_criteria.ascending_given _ ops⟩

end Ledger

end Badging
