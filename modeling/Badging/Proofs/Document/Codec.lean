import Badging.Json.Decoding
import Badging.Proofs.Json.ReadBack

/-!
# Writers and readers that belong together

A codec is a writer of JSON values and a reader that takes them apart again. It is stated for the
values in range, since identities have no bound of their own, and for those of which the writer
keeps all, since a grade is written as its text. What is read is always in range. A record is
written by name, and its reader finds the value of each field, so codecs of the fields make one of
the record.

The texts of a value come after that: what is printed from a codec's value, in either layout, is
read as the value.
-/

namespace Badging

-- Powers of natural numbers are those of `Nat`, whatever else is in sight.
attribute [local instance (2000)] instPowNat

namespace Json

variable {α β : Type}

theorem mapM_eq_some_map {f : α → Option β} {g : α → β} {as : List α}
    (h : ∀ a ∈ as, f a = some (g a)) : as.mapM f = some (as.map g) := by
  induction as with
  | nil => rfl
  | cons a as ih =>
    rw [List.mapM_cons, h a List.mem_cons_self, ih fun b hb => h b (List.mem_cons_of_mem a hb)]
    rfl

theorem exists_of_mapM_eq_some {f : α → Option β} {as : List α} {bs : List β}
    (h : as.mapM f = some bs) {b : β} (hb : b ∈ bs) : ∃ a ∈ as, f a = some b := by
  induction as generalizing bs with
  | nil =>
    cases h
    cases hb
  | cons a as ih =>
    rw [List.mapM_cons] at h
    obtain ⟨b', hb', h⟩ := Option.bind_eq_some_iff.1 h
    obtain ⟨bs', hbs', h⟩ := Option.bind_eq_some_iff.1 h
    cases h
    rcases List.mem_cons.1 hb with rfl | hb
    · exact ⟨a, List.mem_cons_self, hb'⟩
    · obtain ⟨a', ha', hread⟩ := ih hbs' hb
      exact ⟨a', List.mem_cons_of_mem a ha', hread⟩

/-! ### Records by name -/

theorem filter_fields {fields : List (String × Json)} (hnodup : (fields.map Prod.fst).Nodup)
    {f : String × Json} (hf : f ∈ fields) :
    (fields.map fun f => (some f.1, f.2)).filter (·.1 == some f.1) = [(some f.1, f.2)] := by
  induction fields with
  | nil => cases hf
  | cons g gs ih =>
    obtain ⟨hg, hgs⟩ := List.nodup_cons.1 hnodup
    rw [List.map_cons, List.filter_cons]
    rcases List.mem_cons.1 hf with rfl | hf
    · have hrest : (gs.map fun f => (some f.1, f.2)).filter (·.1 == some f.1) = [] := by
        refine List.filter_eq_nil_iff.2 (List.forall_mem_map.2 fun k hk hkey => hg ?_)
        rw [← Option.some.inj (eq_of_beq hkey)]
        exact List.mem_map_of_mem hk
      rw [if_pos (beq_self_eq_true _), hrest]
    · have hne : ¬(some g.1 == some f.1) = true := by
        intro hkey
        rw [Option.some.inj (eq_of_beq hkey)] at hg
        exact hg (List.mem_map_of_mem hf)
      rw [if_neg hne, ih hgs hf]

/-- A record that is written by name is taken apart into the values of its fields. -/
theorem members?_record {members : List Member} {fields : List (String × Json)}
    (hnames : fields.map Prod.fst = members.map Member.name)
    (hnodup : (members.map Member.name).Nodup) :
    members? members (.record fields) = some (fields.map fun f => some f.2) := by
  have hkeys : (fields.map fun f => (some f.1, f.2)).all (·.1.isSome) = true := by
    simp
  have hmembers := congrArg (List.mapM (member? (fields.map fun f => (some f.1, f.2)))) hnames
  rw [List.mapM_map, List.mapM_map] at hmembers
  rw [← hnames] at hnodup
  rw [record, members?, if_pos hkeys]
  refine hmembers.symm.trans (mapM_eq_some_map fun f hf => ?_)
  rw [Function.comp, member?, filter_fields hnodup hf]

def PlainFields (fields : List (String × Json)) : Prop := ∀ f ∈ fields, Plain f.2

theorem PlainFields.nil : PlainFields [] := nofun

theorem PlainFields.cons {name : String} {v : Json} {fields : List (String × Json)} (hv : Plain v)
    (hfields : PlainFields fields) : PlainFields ((name, v) :: fields) :=
  List.forall_mem_cons.2 ⟨hv, hfields⟩

@[simp] theorem required_some (f : Json → Option α) (v : Json) : required f (some v) = f v := rfl

@[simp] theorem optional_some (f : Json → Option α) (v : Json) :
    optional f (some v) = nullable f v := rfl

@[simp] theorem defaulted_some (d : α) (f : Json → Option α) (v : Json) :
    defaulted d f (some v) = f v := rfl

/-! ### Codecs -/

/-- A writer and a reader, for the values in range and those of which the writer keeps all. -/
structure Codec (toJson : α → Json) (ofJson? : Json → Option α) (InRange Kept : α → Prop) :
    Prop where
  /-- What is written is spelled without loss. -/
  plain : ∀ a, Plain (toJson a)
  /-- What is written is read. -/
  reads : ∀ a, InRange a → Kept a → ofJson? (toJson a) = some a
  /-- What is read is in range. -/
  inRange : ∀ v a, ofJson? v = some a → InRange a

/-- The range of a type whose values all have a form. -/
def Any (_ : α) : Prop := True

namespace Codec

theorem text : Codec .text text? Any Any where
  plain := .text
  reads _ _ _ := rfl
  inRange _ _ _ := trivial

theorem bool : Codec .bool bool? Any Any where
  plain := .bool
  reads _ _ _ := rfl
  inRange _ _ _ := trivial

theorem int : Codec .int int64? Number.InInt64 Any where
  plain := .int
  reads n hn _ := by
    have hsign : (if decide (n < 0) = true then -(n.natAbs : Int) else n.natAbs) = n := by
      by_cases h : n < 0
      · rw [if_pos (decide_eq_true h)]
        omega
      · rw [if_neg (by simpa using h)]
        omega
    have hzero : ¬(decide (n < 0) = true ∧ n.natAbs = 0) := by
      rintro ⟨hneg, hzero⟩
      have hneg := of_decide_eq_true hneg
      omega
    show (Numeral.ofInt n).int64? = some n
    simp only [Numeral.int64?, Numeral.ofInt, Number.digitsValue_digits, hsign]
    rw [if_pos ⟨rfl, hzero⟩, Option.filter_some, if_pos (decide_eq_true hn)]
  inRange v n h := by
    unfold int64? at h
    split at h
    · unfold Numeral.int64? at h
      dsimp only at h
      split at h
      · obtain ⟨-, hn⟩ := Option.filter_eq_some_iff.1 h
        exact of_decide_eq_true hn
      · cases h
    · cases h

theorem label {name : α → String} {ofName? : String → Option α}
    (h : ∀ a, ofName? (name a) = some a) :
    Codec (fun a => .text (name a)) (fun v => (plainVariant? v).bind ofName?) Any Any where
  plain a := .text (name a)
  reads a _ _ := h a
  inRange _ _ _ := trivial

variable {toJson : α → Json} {ofJson? : Json → Option α} {InRange Kept : α → Prop}

theorem list (C : Codec toJson ofJson? InRange Kept) :
    Codec (.list toJson) (list? ofJson?) (fun as => ∀ a ∈ as, InRange a)
      (fun as => ∀ a ∈ as, Kept a) where
  plain as := .array (List.forall_mem_map.2 fun a _ => C.plain a)
  reads as hrange hkept := by
    rw [Json.list, list?, List.mapM_map, mapM_eq_some_map (g := id), List.map_id]
    exact fun a ha => C.reads a (hrange a ha) (hkept a ha)
  inRange v as h a ha := by
    unfold list? at h
    split at h
    · obtain ⟨w, -, hw⟩ := exists_of_mapM_eq_some h ha
      exact C.inRange w a hw
    · cases h

/-- A value that may be missing; it is not itself written as `null`. -/
theorem option (C : Codec toJson ofJson? InRange Kept) (hnull : ofJson? .null = none) :
    Codec (.option toJson) (nullable ofJson?) (fun x => ∀ a ∈ x, InRange a)
      (fun x => ∀ a ∈ x, Kept a) where
  plain x := by
    cases x with
    | none => exact .null
    | some a => exact C.plain a
  reads x hrange hkept := by
    cases x with
    | none => rfl
    | some a =>
      have hread := C.reads a (hrange a rfl) (hkept a rfl)
      rw [Json.option]
      unfold nullable
      split
      · next hwritten =>
        rw [hwritten, hnull] at hread
        cases hread
      · rw [hread, Option.map_some]
  inRange v x h := by
    unfold nullable at h
    split at h
    · cases h
      exact nofun
    · obtain ⟨a, ha, rfl⟩ := Option.map_eq_some_iff.1 h
      rintro _ ⟨⟩
      exact C.inRange v a ha

theorem any (C : Codec toJson ofJson? InRange Kept) (hrange : ∀ a, InRange a)
    (hkept : ∀ a, Kept a) : Codec toJson ofJson? Any Any :=
  ⟨C.plain, fun a _ _ => C.reads a (hrange a) (hkept a), fun _ _ _ => trivial⟩

theorem textOption : Codec (.option .text) (nullable text?) Any Any :=
  (text.option rfl).any (fun _ _ _ => trivial) fun _ _ _ => trivial

/-! ### Fields -/

theorem required (C : Codec toJson ofJson? InRange Kept) {v : Option Json} {a : α}
    (h : required ofJson? v = some a) : InRange a := by
  obtain ⟨w, -, hw⟩ := Option.bind_eq_some_iff.1 h
  exact C.inRange w a hw

theorem defaulted (C : Codec toJson ofJson? InRange Kept) {d : α} {v : Option Json} {a : α}
    (h : defaulted d ofJson? v = some a) (hd : InRange d) : InRange a := by
  cases v with
  | none =>
    cases h
    exact hd
  | some w => exact C.inRange w a h

end Codec

/-! ### Texts -/

/-- What a text is read as. -/
def fromText? (ofJson? : Json → Option α) (s : String) : Option α := (parse? s).bind ofJson?

/-- The texts of a type read back. -/
structure ReadsBack (toJson : α → Json) (ofJson? : Json → Option α) (InRange Kept : α → Prop) :
    Prop where
  /-- A value is read from its text on one line and from its text on several. -/
  written : ∀ a, InRange a → Kept a → fromText? ofJson? (compact (toJson a)) = some a ∧
    fromText? ofJson? (pretty (toJson a)) = some a
  /-- Whatever is read from a text is in range. -/
  accepted : ∀ s a, fromText? ofJson? s = some a → InRange a
  /-- So it is read again from its own texts. -/
  again : ∀ s a, fromText? ofJson? s = some a → Kept a →
    fromText? ofJson? (compact (toJson a)) = some a ∧
      fromText? ofJson? (pretty (toJson a)) = some a

theorem Codec.readsBack {toJson : α → Json} {ofJson? : Json → Option α} {InRange Kept : α → Prop}
    (C : Codec toJson ofJson? InRange Kept) : ReadsBack toJson ofJson? InRange Kept := by
  have hwritten (a : α) (hrange : InRange a) (hkept : Kept a) :
      fromText? ofJson? (compact (toJson a)) = some a ∧
        fromText? ofJson? (pretty (toJson a)) = some a := by
    rw [fromText?, fromText?, parse?_compact (C.plain a), parse?_pretty (C.plain a)]
    exact ⟨C.reads a hrange hkept, C.reads a hrange hkept⟩
  have haccepted (s : String) (a : α) (h : fromText? ofJson? s = some a) : InRange a := by
    obtain ⟨v, -, hv⟩ := Option.bind_eq_some_iff.1 h
    exact C.inRange v a hv
  exact ⟨hwritten, haccepted, fun s a h => hwritten a (haccepted s a h)⟩

end Json

end Badging
