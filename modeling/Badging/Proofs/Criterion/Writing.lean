import Badging.Proofs.Criterion.Naming
import Mathlib.Data.List.Nodup

/-!
# Conditions written as parameters

All types of criteria write their conditions alike: a condition has a target, and it is written as
the required parameter about the target and one optional parameter for each thing that it adds. A
`Form` says what the target is and what is added. Conditions that are written in a form are read
back from the register of their parameters up to repetitions, and what was read is written as the
same register.
-/

namespace Badging

namespace Criterion

variable {γ : Type}

/-- How a condition is written. -/
structure Form (γ : Type) where
  stem : String
  target : γ → String
  options : γ → List (String × String)

namespace Form

/-- The parameters of a condition: the required one, then the optional ones. -/
def params (F : Form γ) (c : γ) : List (String × String) :=
  (paramName F.stem (F.target c), F.target c) ::
    (F.options c).map fun o => (paramName o.1 (F.target c), o.2)

def register (F : Form γ) (cs : List γ) : Register String String := .ofList (cs.flatMap F.params)

/-- A form writes the parameters that a type may have. -/
structure Fits (F : Form γ) (tag : Tag) (legible : γ → Prop) : Prop where
  stem_eq : tag.requiredStem = some F.stem
  target_ne : ∀ {c}, legible c → F.target c ≠ ""
  option_mem : ∀ {c o}, legible c → o ∈ F.options c → o.1 ∈ tag.optionalStems

/-- What was written of legible conditions is read as conditions that are written alike. -/
def ReadBy (F : Form γ) (tag : Tag) (legible : γ → Prop)
    (read : List Parameter → Parameter → Except Error γ) : Prop :=
  ∀ (c : γ) (os : List Parameter) (p : Parameter), legible c → p.target = F.target c →
    (∀ s q, option? os s p.target = some q → ∃ d, legible d ∧ (s, q.value) ∈ F.options d) →
    ∃ c', read os p = .ok c' ∧ F.target c' = p.target ∧ ∀ s v, (s, v) ∈ F.options c' ↔
      s ∈ tag.optionalStems ∧ ∃ q, option? os s p.target = some q ∧ q.value = v

def Consistent (F : Form γ) (cs : List γ) : Prop :=
  ∀ c ∈ cs, ∀ d ∈ cs, F.target c = F.target d → c = d

/-- The targets of conditions come in order, and none of them twice. -/
def Ascending (F : Form γ) (cs : List γ) : Prop := (cs.map F.target).Pairwise (· < ·)

section

variable {F : Form γ} {tag : Tag} {legible : γ → Prop} {cs : List γ}

theorem Ascending.consistent (h : F.Ascending cs) : F.Consistent cs := by
  have hnodup : (cs.map F.target).Nodup := List.Pairwise.nodup h
  exact fun c hc d hd => List.inj_on_of_nodup_map hnodup hc hd

theorem mem_params {c : γ} {e : String × String} : e ∈ F.params c ↔
    e = (paramName F.stem (F.target c), F.target c) ∨
      ∃ s v, (s, v) ∈ F.options c ∧ e = (paramName s (F.target c), v) := by
  simp only [params, List.mem_cons, List.mem_map, Prod.exists]
  constructor
  · rintro (h | ⟨s, v, h, rfl⟩)
    · exact .inl h
    · exact .inr ⟨s, v, h, rfl⟩
  · rintro (h | ⟨s, v, h, rfl⟩)
    · exact .inl h
    · exact .inr ⟨s, v, h, rfl⟩

theorem mem_register {e : String × String} (h : e ∈ (F.register cs).entries) :
    ∃ c ∈ cs, e ∈ F.params c :=
  List.mem_flatMap.1 (Register.mem_of_get?_ofList (Register.mem_entries_iff.1 h))

theorem exists_get?_register {c : γ} (hc : c ∈ cs) :
    ∃ v, (F.register cs).get? (paramName F.stem (F.target c)) = some v :=
  Register.exists_get?_ofList (List.mem_flatMap.2 ⟨c, hc, List.mem_cons_self⟩)

variable (hF : F.Fits tag legible) (hcs : ∀ c ∈ cs, legible c)

include hF

theorem Fits.allows_stem : tag.Allows F.stem := .inl hF.stem_eq

theorem Fits.allows_option {c : γ} {o : String × String} (hc : legible c) (ho : o ∈ F.options c) :
    tag.Allows o.1 :=
  .inr (hF.option_mem hc ho)

include hcs

theorem Fits.named : Named tag (F.register cs) := by
  intro e he
  obtain ⟨c, hc, hmem⟩ := mem_register he
  rcases mem_params.1 hmem with rfl | ⟨s, v, ho, rfl⟩
  · exact ⟨F.stem, F.target c, hF.allows_stem, hF.target_ne (hcs c hc), rfl⟩
  · exact ⟨s, F.target c, hF.allows_option (hcs c hc) ho, hF.target_ne (hcs c hc), rfl⟩

theorem Fits.get?_required {t v : String} (ht : t ≠ "")
    (h : (F.register cs).get? (paramName F.stem t) = some v) :
    v = t ∧ ∃ c ∈ cs, F.target c = t := by
  obtain ⟨c, hc, hmem⟩ := mem_register (Register.mem_entries_iff.2 h)
  have hne := hF.target_ne (hcs c hc)
  rcases mem_params.1 hmem with heq | ⟨s, w, ho, heq⟩
  · obtain ⟨hname, rfl⟩ := Prod.mk.inj heq
    have htarget := (paramName_inj hF.allows_stem.isStem hF.allows_stem.isStem ht hne hname).2
    exact ⟨htarget.symm, c, hc, htarget.symm⟩
  · obtain ⟨hname, -⟩ := Prod.mk.inj heq
    have hallows := hF.allows_option (hcs c hc) ho
    have hstem := (paramName_inj hF.allows_stem.isStem hallows.isStem ht hne hname).1
    exact absurd (hstem ▸ hF.stem_eq) (Tag.requiredStem_ne (hF.option_mem (hcs c hc) ho))

theorem Fits.get?_optional {s t v : String} (hs : s ∈ tag.optionalStems) (ht : t ≠ "")
    (h : (F.register cs).get? (paramName s t) = some v) :
    ∃ c ∈ cs, F.target c = t ∧ (s, v) ∈ F.options c := by
  have hallows : tag.Allows s := .inr hs
  obtain ⟨c, hc, hmem⟩ := mem_register (Register.mem_entries_iff.2 h)
  have hne := hF.target_ne (hcs c hc)
  rcases mem_params.1 hmem with heq | ⟨s', w, ho, heq⟩
  · obtain ⟨hname, -⟩ := Prod.mk.inj heq
    have hstem := (paramName_inj hallows.isStem hF.allows_stem.isStem ht hne hname).1
    exact absurd (hstem ▸ hF.stem_eq) (Tag.requiredStem_ne hs)
  · obtain ⟨hname, rfl⟩ := Prod.mk.inj heq
    have hallows' := hF.allows_option (hcs c hc) ho
    obtain ⟨rfl, rfl⟩ := paramName_inj hallows.isStem hallows'.isStem ht hne hname
    exact ⟨c, hc, rfl, ho⟩

theorem Fits.matched : Matched tag (F.register cs) := by
  rintro e he p rfl hstem
  have hmem := List.mem_map_of_mem (f := Parameter.ofEntry) he
  obtain ⟨-, htarget, hname, hvalue⟩ := (hF.named hcs).of_mem hmem
  rw [hname] at hvalue
  obtain ⟨c, hc, hct, -⟩ := hF.get?_optional hcs hstem htarget hvalue
  rw [← hct]
  exact ⟨F.stem, hF.stem_eq, exists_get?_register hc⟩

theorem Fits.exists_required {c : γ} (hc : c ∈ cs) :
    ∃ p ∈ requireds tag (F.register cs), p.target = F.target c := by
  obtain ⟨v, hv⟩ := exists_get?_register (F := F) hc
  refine ⟨⟨paramName F.stem (F.target c), F.stem, F.target c, v⟩, ?_, rfl⟩
  exact (hF.named hcs).mem_requireds_iff.2 ⟨hF.stem_eq, hF.target_ne (hcs c hc), rfl, hv⟩

theorem Fits.of_mem_requireds {p : Parameter} (hp : p ∈ requireds tag (F.register cs)) :
    p.target ≠ "" ∧ p.name = paramName F.stem p.target ∧
      (paramName F.stem p.target, p.target) ∈ (F.register cs).entries ∧
      ∃ c ∈ cs, F.target c = p.target := by
  obtain ⟨hstem, htarget, hname, hvalue⟩ := (hF.named hcs).mem_requireds_iff.1 hp
  have hstem' : F.stem = p.stem := by
    rw [hF.stem_eq, Option.some.injEq] at hstem
    exact hstem
  rw [← hstem'] at hname
  rw [hname] at hvalue
  obtain ⟨hv, hc⟩ := hF.get?_required hcs htarget hvalue
  rw [hv] at hvalue
  exact ⟨htarget, hname, Register.mem_entries_iff.2 hvalue, hc⟩

theorem Fits.of_option? {s t : String} {q : Parameter} (ht : t ≠ "")
    (h : option? (optionals tag (F.register cs)) s t = some q) :
    ∃ c ∈ cs, (s, q.value) ∈ F.options c := by
  have hmem := List.mem_filter.1 (List.mem_of_find?_eq_some h)
  have htest := List.find?_some h
  simp only [Bool.and_eq_true, beq_iff_eq] at htest
  obtain ⟨rfl, rfl⟩ := htest
  obtain ⟨hallows, -, hname, hvalue⟩ := (hF.named hcs).of_mem hmem.1
  have hs : q.stem ∈ tag.optionalStems := hallows.resolve_left (by simpa using hmem.2)
  rw [hname] at hvalue
  obtain ⟨c, hc, -, ho⟩ := hF.get?_optional hcs hs ht hvalue
  exact ⟨c, hc, ho⟩

theorem Fits.read_required {read : List Parameter → Parameter → Except Error γ}
    (hread : F.ReadBy tag legible read) {p : Parameter} (hp : p ∈ requireds tag (F.register cs)) :
    ∃ c', read (optionals tag (F.register cs)) p = .ok c' ∧ F.target c' = p.target ∧
      ∀ s v, (s, v) ∈ F.options c' ↔ s ∈ tag.optionalStems ∧
        (F.register cs).get? (paramName s p.target) = some v := by
  obtain ⟨htarget, -, -, c, hc, hct⟩ := hF.of_mem_requireds hcs hp
  obtain ⟨c', hc', hct', hoptions⟩ := hread c _ p (hcs c hc) hct.symm fun s q hq => by
    obtain ⟨d, hd, ho⟩ := hF.of_option? hcs htarget hq
    exact ⟨d, hcs d hd, ho⟩
  refine ⟨c', hc', hct', fun s v => (hoptions s v).trans (and_congr_right fun hs => ?_)⟩
  rw [(hF.named hcs).option?_optionals hs htarget]
  simp [and_comm]

/-- Written conditions are read, and what is read is written as the same register. -/
theorem Fits.mapM_read {read : List Parameter → Parameter → Except Error γ}
    (hread : F.ReadBy tag legible read) :
    ∃ cs', (requireds tag (F.register cs)).mapM (read (optionals tag (F.register cs))) = .ok cs' ∧
      cs'.length = (requireds tag (F.register cs)).length ∧ F.register cs' = F.register cs := by
  obtain ⟨cs', hcs', hrel⟩ := exists_mapM_eq_ok fun _ hp => hF.read_required hcs hread hp
  refine ⟨cs', hcs', hrel.length_eq.symm, Register.ofList_eq_of_mem_iff fun e => ?_⟩
  rw [List.mem_flatMap]
  constructor
  · rintro ⟨c', hc', he⟩
    obtain ⟨p, hp, hct', hoptions⟩ := forall₂_mem_right hrel hc'
    obtain ⟨-, -, hentry, -⟩ := hF.of_mem_requireds hcs hp
    rcases mem_params.1 he with rfl | ⟨s, v, ho, rfl⟩
    · rw [hct']
      exact hentry
    · rw [hct']
      exact Register.mem_entries_iff.2 ((hoptions s v).1 ho).2
  · intro he
    obtain ⟨c, hc, hmem⟩ := mem_register he
    obtain ⟨p, hp, hpt⟩ := hF.exists_required hcs hc
    obtain ⟨c', hc', hct', hoptions⟩ := forall₂_mem_left hrel hp
    refine ⟨c', hc', mem_params.2 ?_⟩
    rw [hct', hpt]
    rcases mem_params.1 hmem with rfl | ⟨s, v, ho, rfl⟩
    · exact .inl rfl
    · refine .inr ⟨s, v, (hoptions s v).2 ⟨hF.option_mem (hcs c hc) ho, ?_⟩, rfl⟩
      rw [hpt]
      exact Register.mem_entries_iff.1 he

theorem Fits.ascending_of_mapM_read {read : List Parameter → Parameter → Except Error γ}
    (hread : F.ReadBy tag legible read) {cs' : List γ}
    (h : (requireds tag (F.register cs)).mapM (read (optionals tag (F.register cs))) = .ok cs') :
    F.Ascending cs' := by
  have htargets : List.Forall₂ (fun p c' => p.target = F.target c')
      (requireds tag (F.register cs)) cs' := by
    refine ((List.forall₂_and_left (p := (· ∈ requireds tag (F.register cs))) _ _).2
      ⟨fun p hp => hp, mapM_eq_ok_iff.1 h⟩).imp fun p c' ⟨hp, hpc⟩ => ?_
    obtain ⟨d', hpd, htarget, -⟩ := hF.read_required hcs hread hp
    rw [hpc, Except.ok.injEq] at hpd
    rw [hpd, htarget]
  have hmap : (requireds tag (F.register cs)).map (·.target) = cs'.map F.target := by
    rw [← List.forall₂_eq_eq_eq, List.forall₂_map_left_iff, List.forall₂_map_right_iff]
    exact htargets
  rw [Form.Ascending, ← hmap]
  exact (hF.named hcs).ascending_requireds

omit hcs in
theorem Fits.length_requireds {c : γ} (hc : legible c) :
    (requireds tag (F.register [c])).length = 1 := by
  have hcs : ∀ d ∈ [c], legible d := fun d hd => List.mem_singleton.1 hd ▸ hc
  have hname : ∀ p ∈ requireds tag (F.register [c]), p.name = paramName F.stem (F.target c) := by
    intro p hp
    obtain ⟨-, hname, -, d, hd, hdt⟩ := hF.of_mem_requireds hcs hp
    rw [hname, ← hdt, List.mem_singleton.1 hd]
  have hnodup : ((requireds tag (F.register [c])).map (·.name)).Nodup := by
    have hkeys : ((F.register [c]).entries.map Parameter.ofEntry).map (·.name) =
        (F.register [c]).keys := by
      rw [List.map_map]
      rfl
    exact (hkeys ▸ (F.register [c]).nodup_keys).sublist (List.filter_sublist.map _)
  obtain ⟨p, hp, -⟩ := hF.exists_required hcs (List.mem_singleton.2 rfl)
  match hlist : requireds tag (F.register [c]) with
  | [] =>
    rw [hlist] at hp
    cases hp
  | [q] => rfl
  | q :: q' :: qs =>
    rw [hlist] at hname hnodup
    have heq : q.name = q'.name :=
      (hname q (by simp)).trans (hname q' (by simp)).symm
    simp [heq] at hnodup

end

end Form

end Criterion

end Badging
