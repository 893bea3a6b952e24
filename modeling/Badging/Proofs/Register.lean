import Badging.Register
import Mathlib.Data.List.Basic
import Mathlib.Data.List.Induction

/-!
# Views of a register

Two views of a register are used by what is proved of stores. The first is the answer to a key:
each operation is an equation about the answers, and a register is determined by all of them. The
second is the list of entries: an entry under a new key is one more entry somewhere, the last
one if the key is the largest, and an entry under an old key replaces one in its place.
-/

namespace Badging

namespace Register

variable {κ α : Type} [Ord κ]

theorem contains_eq_true_iff {r : Register κ α} {k : κ} :
    r.contains k = true ↔ ∃ a, r.get? k = some a := by
  rw [contains, Option.isSome_iff_exists]

theorem contains_eq_false_iff {r : Register κ α} {k : κ} :
    r.contains k = false ↔ r.get? k = none := by
  rw [contains, Option.isSome_eq_false_iff, Option.isNone_iff_eq_none]

section Answers

variable [Std.LawfulEqOrd κ]

@[simp] theorem get?_filter (r : Register κ α) (p : κ → α → Bool) (k : κ) :
    (r.filter p).get? k = (r.get? k).filter (p k) := by
  apply Option.ext
  intro a
  have hmem : (k, a) ∈ (r.filter p).entries ↔ (k, a) ∈ r.entries ∧ p k a = true := by
    simp [filter]
  rw [← mem_entries_iff, hmem, mem_entries_iff, Option.filter_eq_some_iff]

theorem filter_eq_self {r : Register κ α} {p : κ → α → Bool}
    (h : ∀ k a, r.get? k = some a → p k a = true) : r.filter p = r := by
  refine ext_entries (List.filter_eq_self.2 fun e he => ?_)
  exact h e.1 e.2 (mem_entries_iff.1 he)

theorem filter_congr {r : Register κ α} {p q : κ → α → Bool}
    (h : ∀ k a, r.get? k = some a → p k a = q k a) : r.filter p = r.filter q :=
  ext_entries (List.filter_congr fun e he => h e.1 e.2 (mem_entries_iff.1 he))

@[simp] theorem get?_erase (r : Register κ α) (k k' : κ) :
    (r.erase k).get? k' = if compare k k' = .eq then none else r.get? k' := by
  rw [erase, get?_filter]
  cases hr : r.get? k' with
  | none => simp
  | some a => by_cases h : compare k k' = .eq <;> simp [Option.filter, h]

theorem get?_filter_eq_some_iff {r : Register κ α} {p : κ → α → Bool} {k : κ} {a : α} :
    (r.filter p).get? k = some a ↔ r.get? k = some a ∧ p k a = true := by
  rw [get?_filter, Option.filter_eq_some_iff]

theorem get?_erase_eq_some_iff {r : Register κ α} {k k' : κ} {a : α} :
    (r.erase k).get? k' = some a ↔ k' ≠ k ∧ r.get? k' = some a := by
  rw [get?_erase]
  by_cases h : k = k'
  · subst h
    simp
  · simp [h, Ne.symm h]

/-- When the key decides whether its entry passes, a filter leaves the answer or takes it away. -/
theorem get?_filter_of_iff {r : Register κ α} {p : κ → α → Bool} {k : κ} {gone : Prop}
    [Decidable gone] (h : ∀ a, r.get? k = some a → (p k a = true ↔ ¬ gone)) :
    (r.filter p).get? k = if gone then none else r.get? k := by
  rw [get?_filter]
  cases hr : r.get? k with
  | none => simp
  | some a => by_cases hgone : gone <;> simp [Option.filter, h a hr, hgone]

/-- No entry comes before itself, so no entry is listed twice. -/
theorem nodup_entries (r : Register κ α) : r.entries.Nodup := by
  refine r.ascending.imp fun {a b} hab => ?_
  rintro rfl
  have hself : compare a.1 a.1 = .eq := Std.ReflCmp.compare_self
  rw [hself] at hab
  cases hab

@[simp] theorem get?_mapValues (r : Register κ α) (f : κ → α → α) (k : κ) :
    (r.mapValues f).get? k = (r.get? k).map (f k) := by
  apply Option.ext
  intro a
  rw [← mem_entries_iff]
  simp only [mapValues, List.mem_map, Prod.mk.injEq, Option.map_eq_some_iff, ← mem_entries_iff]
  constructor
  · rintro ⟨⟨k', a'⟩, hmem, rfl, rfl⟩
    exact ⟨a', hmem, rfl⟩
  · rintro ⟨a', hmem, rfl⟩
    exact ⟨(k, a'), hmem, rfl, rfl⟩

theorem mem_keys_iff {r : Register κ α} {k : κ} : k ∈ r.keys ↔ ∃ a, r.get? k = some a := by
  simp only [keys, List.mem_map, Prod.exists, exists_and_right, exists_eq_right, mem_entries_iff]

theorem nodup_keys (r : Register κ α) : r.keys.Nodup := by
  refine List.pairwise_map.2 (r.ascending.imp fun {a b} hab heq => ?_)
  have hself : compare a.1 a.1 = .eq := Std.ReflCmp.compare_self
  rw [heq] at hab
  rw [← heq, hself] at hab
  cases hab

variable [Std.TransOrd κ]

theorem get?_insert_self (r : Register κ α) (k : κ) (a : α) : (r.insert k a).get? k = some a := by
  simp

theorem get?_insert_of_ne (r : Register κ α) {k k' : κ} (h : k' ≠ k) (a : α) :
    (r.insert k a).get? k' = r.get? k' := by
  rw [get?_insert, if_neg]
  rwa [Std.LawfulEqCmp.compare_eq_iff_eq]

theorem get?_insert_eq_some_iff {r : Register κ α} {k k' : κ} {a a' : α} :
    (r.insert k a).get? k' = some a' ↔ (k' = k ∧ a' = a) ∨ (k' ≠ k ∧ r.get? k' = some a') := by
  by_cases h : k' = k
  · subst h
    simpa using eq_comm
  · simp [h]

theorem ext_get? {r s : Register κ α} (h : ∀ k, r.get? k = s.get? k) : r = s := by
  have hmem : ∀ e, e ∈ r.entries ↔ e ∈ s.entries := fun ⟨k, a⟩ => by
    rw [mem_entries_iff, mem_entries_iff, h]
  have hperm : r.entries.Perm s.entries :=
    (List.perm_ext_iff_of_nodup r.nodup_entries s.nodup_entries).2 hmem
  refine ext_entries (hperm.eq_of_pairwise (fun a b _ _ hab hba => ?_) r.ascending s.ascending)
  have hswap : compare a.1 b.1 = (compare b.1 a.1).swap := Std.OrientedCmp.eq_swap
  rw [hswap, hba] at hab
  cases hab

theorem insert_of_get? {r : Register κ α} {k : κ} {a : α} (h : r.get? k = some a) :
    r.insert k a = r := by
  refine ext_get? fun k' => ?_
  by_cases hk : k' = k
  · rw [hk, get?_insert_self, h]
  · rw [get?_insert_of_ne r hk]

omit [Std.LawfulEqOrd κ] in
theorem ofList_concat (es : List (κ × α)) (e : κ × α) :
    ofList (es ++ [e]) = (ofList es).insert e.1 e.2 :=
  List.foldl_append

theorem mem_of_get?_ofList {es : List (κ × α)} {k : κ} {a : α}
    (h : (ofList es).get? k = some a) : (k, a) ∈ es := by
  induction es using List.reverseRecOn with
  | nil => cases h
  | append_singleton es e ih =>
    rw [ofList_concat] at h
    rcases get?_insert_eq_some_iff.1 h with ⟨rfl, rfl⟩ | ⟨-, h⟩
    · exact List.mem_append_right _ List.mem_cons_self
    · exact List.mem_append_left _ (ih h)

theorem exists_get?_ofList {es : List (κ × α)} {k : κ} {a : α} (h : (k, a) ∈ es) :
    ∃ a', (ofList es).get? k = some a' := by
  induction es using List.reverseRecOn with
  | nil => cases h
  | append_singleton es e ih =>
    rw [ofList_concat]
    by_cases hk : k = e.1
    · exact ⟨e.2, get?_insert_eq_some_iff.2 (.inl ⟨hk, rfl⟩)⟩
    · rcases List.mem_append.1 h with h | h
      · obtain ⟨a', ha'⟩ := ih h
        exact ⟨a', get?_insert_eq_some_iff.2 (.inr ⟨hk, ha'⟩)⟩
      · cases List.mem_singleton.1 h
        exact absurd rfl hk

theorem ofList_eq_of_mem_iff {es : List (κ × α)} {r : Register κ α}
    (h : ∀ e, e ∈ es ↔ e ∈ r.entries) : ofList es = r := by
  refine ext_get? fun k => ?_
  cases hk : r.get? k with
  | none =>
    rw [Option.eq_none_iff_forall_ne_some]
    intro a ha
    rw [mem_entries_iff.1 ((h _).1 (mem_of_get?_ofList ha))] at hk
    cases hk
  | some a =>
    obtain ⟨a', ha'⟩ := exists_get?_ofList ((h _).2 (mem_entries_iff.2 hk))
    rw [ha', ← mem_entries_iff.1 ((h _).1 (mem_of_get?_ofList ha')), hk]

@[simp] theorem ofList_entries (r : Register κ α) : ofList r.entries = r :=
  ofList_eq_of_mem_iff fun _ => Iff.rfl

omit [Std.LawfulEqOrd κ] in
theorem entries_insert_last {r : Register κ α} {k : κ}
    (h : ∀ e ∈ r.entries, compare e.1 k = .lt) (a : α) :
    (r.insert k a).entries = r.entries ++ [(k, a)] := by
  show insertEntry k a r.entries = _
  generalize r.entries = es at h
  induction es with
  | nil => rfl
  | cons e es ih =>
    have hgt : compare k e.1 = .gt := Std.OrientedCmp.gt_of_lt (h e List.mem_cons_self)
    simp only [insertEntry, hgt, List.cons_append]
    rw [ih fun e' he' => h e' (List.mem_cons_of_mem _ he')]

theorem insert_eq_mapValues {r : Register κ α} {k : κ} {a : α} (h : r.get? k = some a) (a' : α) :
    r.insert k a' = r.mapValues fun k' x => if compare k' k = .eq then a' else x := by
  refine ext_get? fun k' => ?_
  rw [get?_mapValues, get?_insert]
  by_cases hk : compare k' k = .eq
  · rw [Std.LawfulEqCmp.eq_of_compare hk, h]
    simp
  · simp [hk]

theorem contains_insert [DecidableEq κ] (r : Register κ α) (k k' : κ) (a : α) :
    (r.insert k a).contains k' = (r.contains k' || decide (k' = k)) := by
  by_cases h : k' = k
  · subst h
    simp [contains]
  · rw [contains, contains, get?_insert_of_ne r h, decide_eq_false h, Bool.or_false]

theorem insert_eq_modify {r : Register κ α} {k : κ} {a : α} (h : r.get? k = some a) (f : α → α) :
    r.insert k (f a) = r.modify k f := by
  refine ext_get? fun k' => ?_
  rw [modify, get?_mapValues]
  by_cases hk : k' = k
  · subst hk
    simp [h]
  · simp [get?_insert_of_ne r hk, Ne.symm hk]

end Answers

theorem values_filter (r : Register κ α) (p : α → Bool) :
    (r.filter fun _ a => p a).values = r.values.filter p := by
  simp only [values, filter, List.filter_map]
  rfl

theorem values_mapValues (r : Register κ α) (f : α → α) :
    (r.mapValues fun _ a => f a).values = r.values.map f := by
  simp only [values, mapValues, List.map_map]
  rfl

theorem pairwise_values_filter [Std.LawfulEqOrd κ] {r : Register κ α} {p : α → Bool}
    {R : α → α → Prop} (h : ∀ {k a k' a'}, r.get? k = some a → r.get? k' = some a' →
      compare k k' = .lt → p a = true → p a' = true → R a a') :
    (r.values.filter p).Pairwise R := by
  rw [List.pairwise_filter, values, List.pairwise_map]
  exact r.ascending.imp_of_mem fun {e e'} he he' hlt hp hp' =>
    h (mem_entries_iff.1 he) (mem_entries_iff.1 he') hlt hp hp'

def size (r : Register κ α) : Nat := r.entries.length

theorem insertEntry_perm {k : κ} {es : List (κ × α)} (h : lookup k es = none) (a : α) :
    (insertEntry k a es).Perm ((k, a) :: es) := by
  induction es with
  | nil => exact .refl _
  | cons e es ih =>
    rw [lookup_cons] at h
    simp only [insertEntry]
    split
    · exact .refl _
    · next heq =>
      rw [if_pos heq] at h
      cases h
    · next hgt =>
      rw [if_neg (by rw [hgt]; exact Ordering.noConfusion)] at h
      exact ((ih h).cons e).trans (.swap _ _ _)

theorem values_insert_perm [Std.TransOrd κ] {r : Register κ α} {k : κ} (h : r.get? k = none)
    (a : α) : (r.insert k a).values.Perm (a :: r.values) := by
  have hperm : (r.insert k a).entries.Perm ((k, a) :: r.entries) := insertEntry_perm h a
  exact hperm.map (·.2)

theorem size_insert [Std.TransOrd κ] {r : Register κ α} {k : κ} (h : r.get? k = none) (a : α) :
    (r.insert k a).size = r.size + 1 :=
  (insertEntry_perm h a).length_eq

theorem length_added_keys [Std.LawfulEqOrd κ] {r s : Register κ α}
    (h : ∀ k, r.contains k = true → s.contains k = true) :
    (s.keys.filter fun k => !r.contains k).length + r.size = s.size := by
  have hkept : (s.keys.filter fun k => r.contains k).Perm r.keys := by
    refine (List.perm_ext_iff_of_nodup (s.nodup_keys.filter _) r.nodup_keys).2 fun k => ?_
    rw [List.mem_filter, mem_keys_iff, mem_keys_iff, ← contains_eq_true_iff, ← contains_eq_true_iff]
    exact and_iff_right_of_imp (h k)
  have hsize : ∀ t : Register κ α, t.size = t.keys.length := fun t => (List.length_map _).symm
  rw [hsize, hsize, ← hkept.length_eq, Nat.add_comm]
  exact (List.length_eq_length_filter_add _).symm

end Register

end Badging
