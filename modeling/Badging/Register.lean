/-!
# Registers

A register holds at most one entry for each key and lists its entries in ascending order of
the keys. The order is a field of the type, so two registers that answer every question
alike are equal, and listing a register needs no sorting.

`get?` is the view of a register: each operation below has a lemma that says what it does to
the answer for an arbitrary key.
-/

namespace Badging

/-- Entries with distinct keys in ascending order of the keys. -/
structure Register (κ α : Type) [Ord κ] where
  entries : List (κ × α)
  ascending : entries.Pairwise fun a b => compare a.1 b.1 = .lt

namespace Register

variable {κ α : Type} [Ord κ]

theorem ext_entries {r s : Register κ α} (h : r.entries = s.entries) : r = s := by
  cases r; cases s; simp_all

instance [DecidableEq κ] [DecidableEq α] : DecidableEq (Register κ α) := fun r s =>
  if h : r.entries = s.entries then .isTrue (ext_entries h)
  else .isFalse fun e => h (e ▸ rfl)

def empty : Register κ α := ⟨[], .nil⟩

instance : EmptyCollection (Register κ α) := ⟨empty⟩

instance : Inhabited (Register κ α) := ⟨empty⟩

def lookup (k : κ) : List (κ × α) → Option α
  | [] => none
  | (k', a) :: rest => if compare k k' = .eq then some a else lookup k rest

def get? (r : Register κ α) (k : κ) : Option α := lookup k r.entries

def contains (r : Register κ α) (k : κ) : Bool := (r.get? k).isSome

def keys (r : Register κ α) : List κ := r.entries.map (·.1)

def values (r : Register κ α) : List α := r.entries.map (·.2)

/-- Puts an entry into an ascending list, in place of one with the same key. -/
def insertEntry (k : κ) (a : α) : List (κ × α) → List (κ × α)
  | [] => [(k, a)]
  | (k', a') :: rest =>
    match compare k k' with
    | .lt => (k, a) :: (k', a') :: rest
    | .eq => (k, a) :: rest
    | .gt => (k', a') :: insertEntry k a rest

theorem mem_insertEntry {k : κ} {a : α} {es : List (κ × α)} {e : κ × α}
    (h : e ∈ insertEntry k a es) : e = (k, a) ∨ e ∈ es := by
  induction es with
  | nil => simpa [insertEntry] using h
  | cons head rest ih =>
    obtain ⟨k', a'⟩ := head
    simp only [insertEntry] at h
    split at h
    · simpa using h
    · rcases List.mem_cons.1 h with h | h
      · exact .inl h
      · exact .inr (List.mem_cons_of_mem _ h)
    · rcases List.mem_cons.1 h with h | h
      · exact .inr (h ▸ List.mem_cons_self)
      · exact (ih h).imp_right (List.mem_cons_of_mem _)

section Ordered

variable [Std.TransOrd κ]

theorem ascending_insertEntry {k : κ} {a : α} {es : List (κ × α)}
    (h : es.Pairwise fun a b => compare a.1 b.1 = .lt) :
    (insertEntry k a es).Pairwise fun a b => compare a.1 b.1 = .lt := by
  induction es with
  | nil => simp [insertEntry]
  | cons head rest ih =>
    obtain ⟨k', a'⟩ := head
    obtain ⟨hhead, hrest⟩ := List.pairwise_cons.1 h
    simp only [insertEntry]
    split
    · rename_i hlt
      refine List.pairwise_cons.2 ⟨fun e he => ?_, h⟩
      rcases List.mem_cons.1 he with rfl | he
      · exact hlt
      · exact Std.TransCmp.lt_trans hlt (hhead e he)
    · rename_i heq
      exact List.pairwise_cons.2
        ⟨fun e he => Std.TransCmp.lt_of_eq_of_lt heq (hhead e he), hrest⟩
    · rename_i hgt
      refine List.pairwise_cons.2 ⟨fun e he => ?_, ih hrest⟩
      rcases mem_insertEntry he with rfl | he
      · exact Std.OrientedCmp.lt_of_gt hgt
      · exact hhead e he

def insert (r : Register κ α) (k : κ) (a : α) : Register κ α :=
  ⟨insertEntry k a r.entries, ascending_insertEntry r.ascending⟩

/-- The register of a list of entries, of which a later one replaces an earlier one with the same
key. -/
def ofList (es : List (κ × α)) : Register κ α :=
  es.foldl (fun r e => r.insert e.1 e.2) empty

end Ordered

def filter (r : Register κ α) (p : κ → α → Bool) : Register κ α :=
  ⟨r.entries.filter fun e => p e.1 e.2, r.ascending.filter _⟩

def erase (r : Register κ α) (k : κ) : Register κ α :=
  r.filter fun k' _ => decide (compare k k' ≠ .eq)

def mapValues (r : Register κ α) (f : κ → α → α) : Register κ α :=
  ⟨r.entries.map fun e => (e.1, f e.1 e.2), List.pairwise_map.2 r.ascending⟩

/-- The register with the value of one key replaced; without that key it stays as it is. -/
def modify (r : Register κ α) (k : κ) (f : α → α) : Register κ α :=
  r.mapValues fun k' a => if compare k k' = .eq then f a else a

@[simp] theorem get?_empty (k : κ) : (empty : Register κ α).get? k = none := rfl

theorem lookup_cons (k : κ) (e : κ × α) (es : List (κ × α)) :
    lookup k (e :: es) = if compare k e.1 = .eq then some e.2 else lookup k es := rfl

section Lawful

variable [Std.TransOrd κ]

theorem lookup_insertEntry (k k' : κ) (a : α) (es : List (κ × α)) :
    lookup k' (insertEntry k a es) =
      if compare k' k = .eq then some a else lookup k' es := by
  induction es with
  | nil => rfl
  | cons head rest ih =>
    obtain ⟨k₂, a₂⟩ := head
    simp only [insertEntry]
    split
    · simp [lookup_cons]
    · rename_i heq
      simp only [lookup_cons]
      by_cases h : compare k' k = .eq
      · simp [h]
      · have : compare k' k₂ ≠ .eq := fun h' =>
          h (Std.TransCmp.eq_trans h' (Std.OrientedCmp.eq_symm heq))
        simp [h, this]
    · rename_i hgt
      simp only [lookup_cons, ih]
      by_cases h : compare k' k₂ = .eq
      · have : compare k' k ≠ .eq := fun h' => by
          have := Std.TransCmp.eq_trans (Std.OrientedCmp.eq_symm h') h
          rw [this] at hgt
          cases hgt
        simp [h, this]
      · simp [h]

@[simp] theorem get?_insert (r : Register κ α) (k k' : κ) (a : α) :
    (r.insert k a).get? k' = if compare k' k = .eq then some a else r.get? k' :=
  lookup_insertEntry k k' a r.entries

end Lawful

variable [Std.LawfulEqOrd κ]

theorem mem_entries_iff {r : Register κ α} {k : κ} {a : α} :
    (k, a) ∈ r.entries ↔ r.get? k = some a := by
  obtain ⟨es, hes⟩ := r
  show (k, a) ∈ es ↔ lookup k es = some a
  induction es with
  | nil => simp [lookup]
  | cons head rest ih =>
    obtain ⟨hhead, hrest⟩ := List.pairwise_cons.1 hes
    rw [lookup_cons]
    by_cases h : compare k head.1 = .eq
    · have hk : k = head.1 := Std.LawfulEqCmp.eq_of_compare h
      simp only [h, if_true, Option.some.injEq, List.mem_cons]
      constructor
      · rintro (h' | h')
        · rw [← h']
        · have := hhead _ h'
          simp only [hk, Std.ReflCmp.compare_self] at this
          cases this
      · intro h'
        exact .inl (by rw [← h', hk])
    · simp only [h, if_false, List.mem_cons]
      rw [← ih hrest]
      constructor
      · rintro (h' | h')
        · exact absurd (by rw [← h']; exact Std.ReflCmp.compare_self) h
        · exact h'
      · exact .inr

theorem mem_values_iff {r : Register κ α} {a : α} :
    a ∈ r.values ↔ ∃ k, r.get? k = some a := by
  simp only [values, List.mem_map, Prod.exists, exists_eq_right, mem_entries_iff]

end Register

end Badging
