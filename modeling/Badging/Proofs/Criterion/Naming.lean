import Badging.Criterion.Reading
import Badging.Proofs.Except
import Badging.Proofs.Register

/-!
# Names of parameters

`paramName stem target` is the name of a parameter. A stem is made of characters other than the
underscore, so the first underscore of a name is the one that was put there, and the stem and the
target are found again. When every name in a register is of this form and every target has its
required parameter, the conditions are read from the required parameters alone, and the optional
parameter with a stem and a target is the entry under their name.
-/

namespace Badging

namespace Criterion

/-- The name of the parameter with a stem about a target. -/
def paramName (stem target : String) : String := stem ++ "_" ++ target

/-- What stands in front of the underscore. -/
def IsStem (stem : String) : Prop := stem ≠ "" ∧ '_' ∉ stem.toList

instance (stem : String) : Decidable (IsStem stem) := by
  unfold IsStem; infer_instance

def Tag.Allows (tag : Tag) (stem : String) : Prop :=
  tag.requiredStem = some stem ∨ stem ∈ tag.optionalStems

instance (tag : Tag) (stem : String) : Decidable (tag.Allows stem) := by
  unfold Tag.Allows; infer_instance

theorem Tag.Allows.isStem {tag : Tag} {stem : String} (h : tag.Allows stem) : IsStem stem := by
  have hall : ∀ s, s ∈ tag.requiredStem.toList ++ tag.optionalStems → IsStem s := by
    cases tag <;> decide
  apply hall
  rcases h with h | h
  · simp [h]
  · exact List.mem_append_right _ h

theorem Tag.requiredStem_ne {tag : Tag} {stem : String} (h : stem ∈ tag.optionalStems) :
    tag.requiredStem ≠ some stem := by
  have hall : ∀ s ∈ tag.optionalStems, tag.requiredStem ≠ some s := by
    cases tag <;> decide
  exact hall stem h

theorem toList_paramName (stem target : String) :
    (paramName stem target).toList = stem.toList ++ '_' :: target.toList := by
  simp [paramName]

theorem splitName?_paramName {stem target : String} (hstem : IsStem stem) (htarget : target ≠ "") :
    splitName? (paramName stem target) = some (stem, target) := by
  have hpass : ∀ c ∈ stem.toList, decide (c ≠ '_') = true := by
    intro c hc
    rw [decide_eq_true_eq]
    rintro rfl
    exact hstem.2 hc
  have htake : (stem.toList ++ '_' :: target.toList).takeWhile (· ≠ '_') = stem.toList := by
    rw [List.takeWhile_append_of_pos hpass, List.takeWhile_cons_of_neg (by simp), List.append_nil]
  have hdrop : (stem.toList ++ '_' :: target.toList).dropWhile (· ≠ '_') =
      '_' :: target.toList := by
    rw [List.dropWhile_append_of_pos hpass, List.dropWhile_cons_of_neg (by simp)]
  have hne : stem.toList ≠ [] := fun h => hstem.1 (String.toList_eq_nil_iff.1 h)
  have hne' : target.toList ≠ [] := fun h => htarget (String.toList_eq_nil_iff.1 h)
  rw [splitName?, toList_paramName]
  simp only [htake, hdrop, List.drop_succ_cons, List.drop_zero, hne, hne', or_self, if_false,
    String.ofList_toList]

theorem paramName_inj {stem stem' target target' : String} (hstem : IsStem stem)
    (hstem' : IsStem stem') (htarget : target ≠ "") (htarget' : target' ≠ "")
    (h : paramName stem target = paramName stem' target') : stem = stem' ∧ target = target' := by
  have hsplit := splitName?_paramName hstem htarget
  rw [h, splitName?_paramName hstem' htarget', Option.some.injEq, Prod.mk.injEq] at hsplit
  exact ⟨hsplit.1.symm, hsplit.2.symm⟩

theorem target_lt_of_paramName_lt {stem s t : String} (h : paramName stem s < paramName stem t) :
    s < t := by
  have hchars : stem.toList ++ '_' :: s.toList < stem.toList ++ '_' :: t.toList := by
    have hlt : (paramName stem s).toList < (paramName stem t).toList := h
    simpa [paramName] using hlt
  show s.toList < t.toList
  generalize stem.toList = cs at hchars
  induction cs with
  | nil => simpa using hchars
  | cons c cs ih => exact ih (by simpa using hchars)

def Parameter.ofEntry (e : String × String) : Parameter :=
  let parts := (splitName? e.1).getD ("", "")
  ⟨e.1, parts.1, parts.2, e.2⟩

theorem Parameter.ofEntry_paramName {stem target : String} (hstem : IsStem stem)
    (htarget : target ≠ "") (value : String) :
    ofEntry (paramName stem target, value) = ⟨paramName stem target, stem, target, value⟩ := by
  simp [ofEntry, splitName?_paramName hstem htarget]

/-- Every name in a register is one that a parameter of the type may have. -/
def Named (tag : Tag) (r : Register String String) : Prop :=
  ∀ e ∈ r.entries, ∃ stem target, tag.Allows stem ∧ target ≠ "" ∧ e.1 = paramName stem target

def Matched (tag : Tag) (r : Register String String) : Prop :=
  ∀ e ∈ r.entries, ∀ p, p = Parameter.ofEntry e → p.stem ∈ tag.optionalStems →
    ∃ stem, tag.requiredStem = some stem ∧ ∃ v, r.get? (paramName stem p.target) = some v

/-- The required parameters in a register, in the order of their names. -/
def requireds (tag : Tag) (r : Register String String) : List Parameter :=
  (r.entries.map Parameter.ofEntry).filter fun p => tag.requiredStem = some p.stem

def optionals (tag : Tag) (r : Register String String) : List Parameter :=
  (r.entries.map Parameter.ofEntry).filter fun p => !decide (tag.requiredStem = some p.stem)

section

variable {tag : Tag} {r : Register String String}

theorem Named.of_mem (h : Named tag r) {p : Parameter} (hp : p ∈ r.entries.map Parameter.ofEntry) :
    tag.Allows p.stem ∧ p.target ≠ "" ∧ p.name = paramName p.stem p.target ∧
      r.get? p.name = some p.value := by
  obtain ⟨⟨name, value⟩, he, rfl⟩ := List.mem_map.1 hp
  obtain ⟨stem, target, hallows, htarget, hname⟩ := h _ he
  dsimp only at hname
  subst hname
  rw [Parameter.ofEntry_paramName hallows.isStem htarget]
  exact ⟨hallows, htarget, rfl, Register.mem_entries_iff.1 he⟩

theorem mem_parameters {stem target value : String} (hstem : IsStem stem) (htarget : target ≠ "")
    (h : r.get? (paramName stem target) = some value) :
    (⟨paramName stem target, stem, target, value⟩ : Parameter) ∈
      r.entries.map Parameter.ofEntry := by
  rw [← Parameter.ofEntry_paramName hstem htarget value]
  exact List.mem_map_of_mem (Register.mem_entries_iff.2 h)

theorem Named.mem_requireds_iff (h : Named tag r) {p : Parameter} :
    p ∈ requireds tag r ↔ tag.requiredStem = some p.stem ∧ p.target ≠ "" ∧
      p.name = paramName p.stem p.target ∧ r.get? p.name = some p.value := by
  simp only [requireds, List.mem_filter, decide_eq_true_eq]
  constructor
  · rintro ⟨hp, hstem⟩
    exact ⟨hstem, (h.of_mem hp).2⟩
  · rintro ⟨hstem, htarget, hname, hvalue⟩
    refine ⟨?_, hstem⟩
    have hallows : tag.Allows p.stem := .inl hstem
    rw [hname] at hvalue
    have hmem := mem_parameters hallows.isStem htarget hvalue
    rwa [← hname] at hmem

/-- The required parameters come in the order of their targets, since they have one stem. -/
theorem Named.ascending_requireds (h : Named tag r) :
    ((requireds tag r).map (·.target)).Pairwise (· < ·) := by
  have hnames : (r.entries.map Parameter.ofEntry).Pairwise fun p q => p.name < q.name :=
    List.pairwise_map.2 (r.ascending.imp compareOfLessAndEq_eq_lt.1)
  refine List.pairwise_map.2 ((hnames.filter _).imp_of_mem fun {p q} hp hq hlt => ?_)
  obtain ⟨hstem, -, hname, -⟩ := h.mem_requireds_iff.1 hp
  obtain ⟨hstem', -, hname', -⟩ := h.mem_requireds_iff.1 hq
  rw [hstem, Option.some.injEq] at hstem'
  rw [hname, hname', ← hstem'] at hlt
  exact target_lt_of_paramName_lt hlt

theorem Named.option?_optionals (h : Named tag r) {stem target : String}
    (hstem : stem ∈ tag.optionalStems) (htarget : target ≠ "") :
    option? (optionals tag r) stem target = (r.get? (paramName stem target)).map fun value =>
      ⟨paramName stem target, stem, target, value⟩ := by
  have hallows : tag.Allows stem := .inr hstem
  cases hfound : option? (optionals tag r) stem target with
  | some p =>
    have htest := List.find?_some hfound
    have hmem := (List.mem_filter.1 (List.mem_of_find?_eq_some hfound)).1
    obtain ⟨-, -, hname, hvalue⟩ := h.of_mem hmem
    simp only [Bool.and_eq_true, beq_iff_eq] at htest
    obtain ⟨rfl, rfl⟩ := htest
    rw [← hname, hvalue]
    rfl
  | none =>
    cases hget : r.get? (paramName stem target) with
    | none => rfl
    | some value =>
      have hmem := mem_parameters hallows.isStem htarget hget
      have hopt : (⟨paramName stem target, stem, target, value⟩ : Parameter) ∈ optionals tag r :=
        List.mem_filter.2 ⟨hmem, by simpa using Tag.requiredStem_ne hstem⟩
      have hnone := List.find?_eq_none.1 hfound _ hopt
      simp at hnone

theorem Named.ofParams_eq (h : Named tag r) : Kind.ofParams tag r =
    match (optionals tag r).find? fun p => (requireds tag r).all fun q => q.target ≠ p.target with
    | some p => .error (.invalidParameter tag p.name (.unmatched p.target))
    | none => readConditions tag (requireds tag r) (optionals tag r) := by
  have hread : r.entries.mapM (fun e => Parameter.read tag e.1 e.2) =
      .ok (r.entries.map Parameter.ofEntry) := by
    refine mapM_eq_ok_map fun e he => ?_
    obtain ⟨stem, target, hallows, htarget, hname⟩ := h e he
    obtain ⟨name, value⟩ := e
    dsimp only at hname
    subst hname
    simp only [Parameter.read, splitName?_paramName hallows.isStem htarget,
      Parameter.ofEntry_paramName hallows.isStem htarget]
    exact if_pos hallows
  unfold Kind.ofParams
  rw [hread]
  dsimp only [bind, Except.bind]
  rw [List.partition_eq_filter_filter]
  rfl

/-- With names in order and every target matched, what is left is to read the conditions. -/
theorem ofParams_eq (hnamed : Named tag r) (hmatched : Matched tag r) :
    Kind.ofParams tag r = readConditions tag (requireds tag r) (optionals tag r) := by
  have hunmatched : (optionals tag r).find?
      (fun p => (requireds tag r).all fun q => q.target ≠ p.target) = none := by
    rw [List.find?_eq_none]
    intro p hp hall
    obtain ⟨hp, hnot⟩ := List.mem_filter.1 hp
    obtain ⟨hallows, htarget, -, -⟩ := hnamed.of_mem hp
    have hstem : p.stem ∈ tag.optionalStems := hallows.resolve_left (by simpa using hnot)
    obtain ⟨e, he, heq⟩ := List.mem_map.1 hp
    obtain ⟨stem, hrequired, v, hv⟩ := hmatched e he p heq.symm hstem
    have hq : (⟨paramName stem p.target, stem, p.target, v⟩ : Parameter) ∈ requireds tag r :=
      hnamed.mem_requireds_iff.2 ⟨hrequired, htarget, rfl, hv⟩
    have hne := List.all_eq_true.1 hall _ hq
    simp at hne
  rw [hnamed.ofParams_eq, hunmatched]

end

end Criterion

end Badging
