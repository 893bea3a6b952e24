import Badging.Proofs.Register
import Badging.Store.Tables
import Mathlib.Data.List.Nodup

/-!
# Tables that hold the values of a register

A table lists its rows in the order in which they came, a register by its keys. `Holds row r rows`
says that a table holds one row for each value of a register and no others, in whatever order. What
a register answers for a key is then found among the rows by a test that picks out the key, and rows
that are ordered by a number are the rows of the values in that order.
-/

namespace Badging

namespace Tables

variable {ρ : Type} {key : ρ → Int}

theorem filter_filter_of_imp {p q : ρ → Bool} {rs : List ρ}
    (h : ∀ r ∈ rs, p r = true → q r = true) : (rs.filter q).filter p = rs.filter p := by
  rw [List.filter_filter]
  refine List.filter_congr fun r hr => ?_
  cases hp : p r with
  | false => rw [Bool.false_and]
  | true => rw [h r hr hp, Bool.and_self]

theorem filter_filter_of_iff {p q : ρ → Bool} {rs : List ρ} {gone : Prop} [Decidable gone]
    (h : ∀ r ∈ rs, p r = true → (q r = true ↔ ¬ gone)) :
    (rs.filter q).filter p = if gone then [] else rs.filter p := by
  split
  · next hgone =>
    apply List.filter_eq_nil_iff.2
    intro r hr hp
    obtain ⟨hr, hq⟩ := List.mem_filter.1 hr
    exact (h r hr hp).1 hq hgone
  · next hkept => exact filter_filter_of_imp fun r hr hp => (h r hr hp).2 hkept

theorem insertBy_perm (r : ρ) (rs : List ρ) : (insertBy key r rs).Perm (r :: rs) := by
  induction rs with
  | nil => exact .refl _
  | cons x xs ih =>
    rw [insertBy]
    split
    · exact .refl _
    · exact (ih.cons x).trans (.swap _ _ _)

theorem orderBy_perm (rs : List ρ) : (orderBy key rs).Perm rs := by
  induction rs with
  | nil => exact .refl _
  | cons r rs ih => exact (insertBy_perm r _).trans (ih.cons r)

theorem ascending_insertBy {r : ρ} {rs : List ρ} (h : rs.Pairwise fun x y => key x ≤ key y) :
    (insertBy key r rs).Pairwise fun x y => key x ≤ key y := by
  induction rs with
  | nil => exact List.pairwise_singleton _ r
  | cons x xs ih =>
    obtain ⟨hx, hxs⟩ := List.pairwise_cons.1 h
    rw [insertBy]
    split
    · next hle =>
      refine List.pairwise_cons.2 ⟨fun y hy => ?_, h⟩
      rcases List.mem_cons.1 hy with rfl | hy
      · exact hle
      · exact Int.le_trans hle (hx y hy)
    · next hgt =>
      refine List.pairwise_cons.2 ⟨fun y hy => ?_, ih hxs⟩
      rcases List.mem_cons.1 ((insertBy_perm r xs).mem_iff.1 hy) with rfl | hy
      · omega
      · exact hx y hy

theorem ascending_orderBy (rs : List ρ) :
    (orderBy key rs).Pairwise fun x y => key x ≤ key y := by
  induction rs with
  | nil => exact .nil
  | cons r rs ih => exact ascending_insertBy ih

/-- Rows whose numbers differ have only one order. -/
theorem orderBy_eq_of_perm {rs rs' : List ρ} (h : rs.Perm rs')
    (hrs' : rs'.Pairwise fun x y => key x < key y) : orderBy key rs = rs' := by
  have hperm : (orderBy key rs).Perm rs' := (orderBy_perm rs).trans h
  refine hperm.eq_of_pairwise (fun x y hx hy hxy hyx => ?_) (ascending_orderBy rs)
    (hrs'.imp Int.le_of_lt)
  have hinj : (rs'.map key).Nodup := List.pairwise_map.2 (hrs'.imp Int.ne_of_lt)
  exact List.inj_on_of_nodup_map hinj (hperm.mem_iff.1 hx) hy (Int.le_antisymm hxy hyx)

end Tables

namespace Register

variable {κ α ρ : Type} [Ord κ]

/-- The table holds one row for each value of the register, and no others. -/
def Holds (row : α → ρ) (r : Register κ α) (rows : List ρ) : Prop := rows.Perm (r.values.map row)

namespace Holds

variable {row : α → ρ} {r : Register κ α} {rows : List ρ}

theorem empty : Holds row (.empty : Register κ α) [] := .refl _

variable [Std.LawfulEqOrd κ] (h : Holds row r rows)

include h

theorem mem_iff {x : ρ} : x ∈ rows ↔ ∃ k a, r.get? k = some a ∧ row a = x := by
  rw [List.Perm.mem_iff h, List.mem_map]
  constructor
  · rintro ⟨a, ha, rfl⟩
    obtain ⟨k, hk⟩ := mem_values_iff.1 ha
    exact ⟨k, a, hk, rfl⟩
  · rintro ⟨k, a, hk, rfl⟩
    exact ⟨a, mem_values_iff.2 ⟨k, hk⟩, rfl⟩

omit [Std.LawfulEqOrd κ] in
theorem insert [Std.TransOrd κ] {k : κ} (hk : r.get? k = none) (a : α) :
    Holds row (r.insert k a) (rows ++ [row a]) := by
  have hvalues : ((r.insert k a).values.map row).Perm (row a :: r.values.map row) :=
    (values_insert_perm hk a).map row
  refine List.Perm.trans ?_ hvalues.symm
  exact (List.perm_append_singleton _ _).trans (List.Perm.cons _ h)

theorem filter {p : κ → α → Bool} {q : ρ → Bool}
    (hpq : ∀ k a, r.get? k = some a → p k a = q (row a)) :
    Holds row (r.filter p) (rows.filter q) := by
  have hvalues : ((r.filter p).values.map row) = (r.values.map row).filter q := by
    have hentries : r.entries.filter (fun e => p e.1 e.2) =
        r.entries.filter fun e => q (row e.2) :=
      List.filter_congr fun e he => hpq e.1 e.2 (mem_entries_iff.1 he)
    simp only [values, Register.filter, hentries, List.filter_map, List.map_map]
    rfl
  show (rows.filter q).Perm _
  rw [hvalues]
  exact List.Perm.filter q h

theorem find?_eq {k : κ} {q : ρ → Bool}
    (hq : ∀ k' a, r.get? k' = some a → (q (row a) = true ↔ k' = k)) :
    rows.find? q = (r.get? k).map row := by
  cases hk : r.get? k with
  | none =>
    rw [Option.map_none, List.find?_eq_none]
    intro x hx hqx
    obtain ⟨k', a, ha, rfl⟩ := h.mem_iff.1 hx
    rw [(hq k' a ha).1 hqx, hk] at ha
    cases ha
  | some a =>
    have hmem : row a ∈ rows := h.mem_iff.2 ⟨k, a, hk, rfl⟩
    cases hfound : rows.find? q with
    | none => exact absurd ((hq k a hk).2 rfl) (List.find?_eq_none.1 hfound _ hmem)
    | some x =>
      obtain ⟨k', a', ha', rfl⟩ := h.mem_iff.1 (List.mem_of_find?_eq_some hfound)
      have hfound' := List.find?_some hfound
      rw [(hq k' a' ha').1 hfound', hk, Option.some.injEq] at ha'
      rw [ha']
      rfl

theorem any_eq {k : κ} {q : ρ → Bool}
    (hq : ∀ k' a, r.get? k' = some a → (q (row a) = true ↔ k' = k)) :
    rows.any q = r.contains k := by
  rw [Bool.eq_iff_iff, List.any_eq_true, ← List.find?_isSome, h.find?_eq hq, Option.isSome_map]
  rfl

/-- Rows that pass a test, ordered by a number in which the values ascend. -/
theorem orderBy_eq (key : ρ → Int) (p : α → Bool) (q : ρ → Bool) (hpq : ∀ a, q (row a) = p a)
    (hkey : (r.values.filter p).Pairwise fun a b => key (row a) < key (row b)) :
    Tables.orderBy key (rows.filter q) = (r.values.filter p).map row := by
  refine Tables.orderBy_eq_of_perm ?_ (List.pairwise_map.2 hkey)
  have hfilter := h.filter (p := fun _ a => p a) (q := q) fun _ a _ => (hpq a).symm
  rwa [Holds, values_filter] at hfilter

end Holds

end Register

end Badging
