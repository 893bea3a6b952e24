import Badging.Proofs.Criterion.Grammar

/-!
# What is to blame

Reading goes through the parameters in three passes: it takes the names apart, it looks for optional
parameters without a condition, and it reads the conditions one by one. Each pass either goes
through, and then what it has found is known, or it is refused, and then the refusal is `Blamed` on
a parameter of the record of which what the fault says is so.
-/

namespace Badging

namespace Criterion

theorem splitName?_eq_some_iff {name stem target : String} :
    splitName? name = some (stem, target) ↔
      IsStem stem ∧ target ≠ "" ∧ name = paramName stem target := by
  constructor
  · intro h
    unfold splitName? at h
    dsimp only at h
    split at h
    · cases h
    · next hne =>
      cases h
      push Not at hne
      have hjoin : name.toList.takeWhile (· ≠ '_') ++ name.toList.dropWhile (· ≠ '_') =
          name.toList := List.takeWhile_append_dropWhile
      have hhead := List.head?_dropWhile_not (fun c => decide (c ≠ '_')) name.toList
      cases hdrop : name.toList.dropWhile (· ≠ '_') with
      | nil =>
        rw [hdrop] at hne
        exact absurd rfl hne.2
      | cons c rest =>
        rw [hdrop] at hne hjoin hhead
        obtain rfl : c = '_' := by simpa using hhead
        refine ⟨⟨fun hempty => hne.1 ?_, fun hmem => ?_⟩, fun hempty => hne.2 ?_, ?_⟩
        · rw [← String.toList_ofList (l := name.toList.takeWhile _), hempty]
          rfl
        · rw [String.toList_ofList] at hmem
          simpa using List.all_eq_true.1 List.all_takeWhile _ hmem
        · rw [← String.toList_ofList (l := List.drop 1 _), hempty]
          rfl
        · rw [← String.toList_inj, toList_paramName, String.toList_ofList, String.toList_ofList]
          exact hjoin.symm
  · rintro ⟨hstem, htarget, rfl⟩
    exact splitName?_paramName hstem htarget

section

variable {tag : Tag} {r : Register String String}

/-- The refusal names the type and a parameter, and what it says of the parameter is so. -/
def Blamed (tag : Tag) (r : Register String String) (e : Error) : Prop :=
  ∃ name fault, e = .invalidParameter tag name fault ∧ fault.Describes tag r name

theorem name_of_parameter_read {name value : String} {p : Parameter}
    (h : Parameter.read tag name value = .ok p) : ∃ stem target, tag.Allows stem ∧ target ≠ "" ∧
      name = paramName stem target := by
  unfold Parameter.read at h
  split at h
  · cases h
  · next stem target hsplit =>
    obtain ⟨-, htarget, hname⟩ := splitName?_eq_some_iff.1 hsplit
    exact ⟨stem, target, (ite_eq_ok_iff.1 h).1, htarget, hname⟩

theorem blamed_of_parameter_read {name value : String} {e : Error}
    (hmem : (name, value) ∈ r.entries) (h : Parameter.read tag name value = .error e) :
    Blamed tag r e := by
  have hvalue : ∃ value, r.get? name = some value := ⟨value, Register.mem_entries_iff.1 hmem⟩
  unfold Parameter.read at h
  split at h
  · next hsplit =>
    cases h
    refine ⟨name, _, rfl, hvalue, fun stem target hstem htarget hname => ?_⟩
    rw [hname, splitName?_paramName hstem htarget] at hsplit
    cases hsplit
  · next stem target hsplit =>
    split at h
    · cases h
    · next hnot =>
      cases h
      obtain ⟨hstem, htarget, hname⟩ := splitName?_eq_some_iff.1 hsplit
      exact ⟨name, _, rfl, hvalue, stem, target, hstem, htarget, hname, hnot⟩

def targets (tag : Tag) (r : Register String String) : List String :=
  (requireds tag r).map (·.target)

theorem Named.mem_targets_iff (h : Named tag r) {t : String} :
    t ∈ targets tag r ↔ ∃ stem value, tag.requiredStem = some stem ∧ Given r stem t value := by
  rw [targets, List.mem_map]
  constructor
  · rintro ⟨p, hp, rfl⟩
    obtain ⟨hstem, htarget, hname, hvalue⟩ := h.mem_requireds_iff.1 hp
    exact ⟨p.stem, p.value, hstem, htarget, hname ▸ hvalue⟩
  · rintro ⟨stem, value, hstem, htarget, hvalue⟩
    exact ⟨⟨paramName stem t, stem, t, value⟩, h.mem_requireds_iff.2 ⟨hstem, htarget, rfl, hvalue⟩,
      rfl⟩

theorem Named.of_mem_optionals (h : Named tag r) {p : Parameter} (hp : p ∈ optionals tag r) :
    p.stem ∈ tag.optionalStems ∧ p.name = paramName p.stem p.target ∧
      Given r p.stem p.target p.value := by
  obtain ⟨hp, hnot⟩ := List.mem_filter.1 hp
  obtain ⟨hallows, htarget, hname, hvalue⟩ := h.of_mem hp
  exact ⟨hallows.resolve_left (by simpa using hnot), hname, htarget, hname ▸ hvalue⟩

theorem mem_optionals {stem target value : String} (hstem : stem ∈ tag.optionalStems)
    (h : Given r stem target value) :
    (⟨paramName stem target, stem, target, value⟩ : Parameter) ∈ optionals tag r := by
  have hallows : tag.Allows stem := .inr hstem
  exact List.mem_filter.2 ⟨mem_parameters hallows.isStem h.1 h.2,
    by simpa using Tag.requiredStem_ne hstem⟩

/-- Either a name or an unmatched parameter is to blame, or what is left is to read the
conditions. -/
theorem ofParams_cases (tag : Tag) (r : Register String String) :
    (∃ e, Kind.ofParams tag r = .error e ∧ Blamed tag r e) ∨
      Named tag r ∧ (∀ p ∈ optionals tag r, p.target ∈ targets tag r) ∧
        Kind.ofParams tag r = readConditions tag (requireds tag r) (optionals tag r) := by
  cases hps : r.entries.mapM fun e => Parameter.read tag e.1 e.2 with
  | error e =>
    obtain ⟨⟨name, value⟩, hmem, he⟩ := exists_of_mapM_eq_error hps
    refine .inl ⟨e, ?_, blamed_of_parameter_read hmem he⟩
    unfold Kind.ofParams
    rw [hps]
    rfl
  | ok ps =>
    have hnamed : Named tag r := fun e he => by
      obtain ⟨p, -, hp⟩ := forall₂_mem_left (mapM_eq_ok_iff.1 hps) he
      exact name_of_parameter_read hp
    have hunmatched : ∀ p : Parameter, ((requireds tag r).all fun q => q.target ≠ p.target) = true ↔
        p.target ∉ targets tag r := fun p => by
      simp [targets, List.mem_map]
    rw [hnamed.ofParams_eq]
    cases hfind : (optionals tag r).find? fun p =>
        (requireds tag r).all fun q => q.target ≠ p.target with
    | none =>
      refine .inr ⟨hnamed, fun p hp => ?_, rfl⟩
      have htest := List.find?_eq_none.1 hfind p hp
      rwa [hunmatched, not_not] at htest
    | some p =>
      obtain ⟨hstem, hname, hgiven⟩ := hnamed.of_mem_optionals (List.mem_of_find?_eq_some hfind)
      have hall := List.find?_some hfind
      have htest : p.target ∉ targets tag r := (hunmatched p).1 hall
      exact .inl ⟨_, rfl, p.name, _, rfl, p.stem, hstem, hname, ⟨p.value, hgiven⟩,
        fun required v hrequired hv =>
          htest (hnamed.mem_targets_iff.2 ⟨required, v, hrequired, hv⟩)⟩

section

variable {α : Type} {read : Parameter → Except Error α} {stem target : String} {e : Error}

theorem Named.readOption_eq_ok_iff (h : Named tag r) (hstem : stem ∈ tag.optionalStems)
    (htarget : target ≠ "") {R : String → α → Prop} (hread : ∀ p a, read p = .ok a ↔ R p.value a)
    {x : Option α} : readOption read (optionals tag r) stem target = .ok x ↔
      Option.Rel R (r.get? (paramName stem target)) x := by
  rw [readOption, h.option?_optionals hstem htarget]
  cases r.get? (paramName stem target) with
  | none =>
    simp only [Option.map_none, Except.ok.injEq]
    constructor
    · rintro rfl
      exact .none
    · rintro ⟨⟩
      rfl
  | some value =>
    simp only [Option.map_some, map_eq_ok_iff, hread]
    constructor
    · rintro ⟨a, ha, rfl⟩
      exact .some ha
    · rintro ⟨ha⟩
      exact ⟨_, ha, rfl⟩

theorem Named.given_of_readOption (h : Named tag r) (hstem : stem ∈ tag.optionalStems)
    (htarget : target ≠ "") (hfails : readOption read (optionals tag r) stem target = .error e) :
    ∃ value, Given r stem target value ∧
      read ⟨paramName stem target, stem, target, value⟩ = .error e := by
  rw [readOption, h.option?_optionals hstem htarget] at hfails
  cases hvalue : r.get? (paramName stem target) with
  | none =>
    rw [hvalue] at hfails
    cases hfails
  | some value =>
    rw [hvalue] at hfails
    exact ⟨value, ⟨htarget, hvalue⟩, map_eq_error_iff.1 hfails⟩

theorem Named.blamed_of_readIdentity (h : Named tag r) (hsocial : tag ≠ .social)
    (hprofile : tag ≠ .profile) {p : Parameter} (hp : p ∈ requireds tag r)
    (hfails : readIdentity tag p = .error e) : Blamed tag r e := by
  obtain ⟨hstem, htarget, hname, hvalue⟩ := h.mem_requireds_iff.1 hp
  refine ⟨p.name, _, error_of_readIdentity hfails, hsocial, hprofile, p.stem, hstem, hname,
    ⟨p.value, htarget, hname ▸ hvalue⟩, fun n hn => ?_⟩
  rw [readIdentity_eq_ok_iff.2 hn] at hfails
  cases hfails

theorem Named.blamed_of_readField (h : Named .profile r) {p : Parameter}
    (hp : p ∈ requireds .profile r) (hfails : readField .profile p = .error e) :
    Blamed .profile r e := by
  obtain ⟨hstem, htarget, hname, hvalue⟩ := h.mem_requireds_iff.1 hp
  obtain hstem : "field" = p.stem := Option.some.inj hstem
  rw [hname, ← hstem] at hvalue
  rcases error_of_readField hfails with ⟨rfl, hn⟩ | ⟨rfl, hnone⟩
  · exact ⟨p.name, _, rfl, rfl, hstem ▸ hname, ⟨p.value, htarget, hvalue⟩, hn⟩
  · exact ⟨p.name, _, rfl, rfl, hstem ▸ hname, ⟨p.value, htarget, hvalue⟩, hnone⟩

theorem Named.blamed_of_cutoff (h : Named tag r) (hstem : "bydate" ∈ tag.optionalStems)
    (htarget : target ≠ "")
    (hfails : readOption (readInstant tag) (optionals tag r) "bydate" target = .error e) :
    Blamed tag r e := by
  obtain ⟨value, hgiven, hread⟩ := h.given_of_readOption hstem htarget hfails
  refine ⟨_, _, error_of_readInstant hread, target, rfl, hgiven, fun t ht => ?_⟩
  rw [readInstant_eq_ok_iff.2 ht] at hread
  cases hread

theorem Named.blamed_of_grade (h : Named tag r) (hstem : "grade" ∈ tag.optionalStems)
    (htarget : target ≠ "")
    (hfails : readOption (readGrade tag) (optionals tag r) "grade" target = .error e) :
    Blamed tag r e := by
  obtain ⟨value, hgiven, hread⟩ := h.given_of_readOption hstem htarget hfails
  refine ⟨_, _, error_of_readGrade hread, target, rfl, hgiven, fun g hg => ?_⟩
  rw [readGrade_eq_ok_iff.2 hg] at hread
  cases hread

end

section

variable {p : Parameter} {e : Error}

theorem Named.readActivity_eq_ok_iff (h : Named tag r) (hstem : "bydate" ∈ tag.optionalStems)
    (htarget : p.target ≠ "") {c : ActivityCondition} :
    readActivity tag (optionals tag r) p = .ok c ↔ c.Of r p.target := by
  unfold readActivity
  simp only [bind_eq_ok_iff, readIdentity_eq_ok_iff,
    h.readOption_eq_ok_iff hstem htarget fun _ _ => readInstant_eq_ok_iff]
  constructor
  · rintro ⟨n, hn, byDate, hbyDate, ⟨⟩⟩
    exact ⟨hn, hbyDate⟩
  · rintro ⟨hn, hbyDate⟩
    exact ⟨_, hn, _, hbyDate, rfl⟩

theorem Named.readCourse_eq_ok_iff (h : Named tag r) (hbydate : "bydate" ∈ tag.optionalStems)
    (hgrade : "grade" ∈ tag.optionalStems) (htarget : p.target ≠ "") {c : CourseCondition} :
    readCourse tag (optionals tag r) p = .ok c ↔ c.Of r p.target := by
  unfold readCourse
  simp only [bind_eq_ok_iff, readIdentity_eq_ok_iff,
    h.readOption_eq_ok_iff hbydate htarget fun _ _ => readInstant_eq_ok_iff,
    h.readOption_eq_ok_iff hgrade htarget fun _ _ => readGrade_eq_ok_iff]
  constructor
  · rintro ⟨n, hn, minGrade, hminGrade, byDate, hbyDate, ⟨⟩⟩
    exact ⟨hn, hminGrade, hbyDate⟩
  · rintro ⟨hn, hminGrade, hbyDate⟩
    exact ⟨_, hn, _, hminGrade, _, hbyDate, rfl⟩

theorem Named.blamed_of_readActivity (h : Named tag r) (hstem : "bydate" ∈ tag.optionalStems)
    (hsocial : tag ≠ .social) (hprofile : tag ≠ .profile) (hp : p ∈ requireds tag r)
    (hfails : readActivity tag (optionals tag r) p = .error e) : Blamed tag r e := by
  have htarget := (h.mem_requireds_iff.1 hp).2.1
  rcases bind_eq_error_iff.1 hfails with hid | ⟨n, -, hrest⟩
  · exact h.blamed_of_readIdentity hsocial hprofile hp hid
  · rcases bind_eq_error_iff.1 hrest with hbyDate | ⟨_, -, ⟨⟩⟩
    exact h.blamed_of_cutoff hstem htarget hbyDate

theorem Named.blamed_of_readCourse (h : Named tag r) (hbydate : "bydate" ∈ tag.optionalStems)
    (hgrade : "grade" ∈ tag.optionalStems) (hsocial : tag ≠ .social) (hprofile : tag ≠ .profile)
    (hp : p ∈ requireds tag r) (hfails : readCourse tag (optionals tag r) p = .error e) :
    Blamed tag r e := by
  have htarget := (h.mem_requireds_iff.1 hp).2.1
  rcases bind_eq_error_iff.1 hfails with hid | ⟨n, -, hrest⟩
  · exact h.blamed_of_readIdentity hsocial hprofile hp hid
  · rcases bind_eq_error_iff.1 hrest with hminGrade | ⟨_, -, hrest⟩
    · exact h.blamed_of_grade hgrade htarget hminGrade
    · rcases bind_eq_error_iff.1 hrest with hbyDate | ⟨_, -, ⟨⟩⟩
      exact h.blamed_of_cutoff hbydate htarget hbyDate

end

end

end Criterion

end Badging
