import Badging.Proofs.Criterion.Blame
import Badging.Proofs.Criterion.Reading
import Badging.Proofs.Criterion.RoundTrip

/-!
# What is accepted

A record of a known type is read if its parameters keep to the grammar of the type. The two halves
are proved of reading and not of the grammar: what is read is made of the targets of the required
parameters, and parameters that anything is made of keep to the grammar; what is refused is to
blame, and what is to blame breaks the grammar.
-/

namespace Badging

namespace Criterion

/-- The texts by which a type is known. -/
def Tag.WrittenAs (tag : Tag) (text : String) : Prop :=
  Text.trim text = tag.name ∨ Text.trim text = tag.codeText

theorem Tag.parse_eq_ok_iff {tag : Tag} {s : String} :
    Tag.parse s = .ok tag ↔ tag.WrittenAs s := by
  unfold Tag.parse Tag.WrittenAs
  generalize Text.trim s = text
  constructor
  · intro h
    split at h
    · next t ht =>
      cases h
      have hfound := List.find?_some ht
      simp only [Bool.or_eq_true, beq_iff_eq] at hfound
      exact hfound.imp Eq.symm Eq.symm
    · cases h
  · rintro (rfl | rfl)
    · cases tag <;> decide
    · cases tag <;> decide

theorem Tag.parse_eq_error_iff {s : String} {e : Error} :
    Tag.parse s = .error e ↔ (∀ tag : Tag, ¬ tag.WrittenAs s) ∧ e = .unknownType (Text.trim s) := by
  simp only [← Tag.parse_eq_ok_iff]
  constructor
  · intro h
    refine ⟨fun tag htag => ?_, ?_⟩
    · rw [h] at htag
      cases htag
    · unfold Tag.parse at h
      split at h
      · cases h
      · cases h
        rfl
  · rintro ⟨hnone, rfl⟩
    unfold Tag.parse at hnone ⊢
    split
    · next t ht => exact absurd (by rw [ht]) (hnone t)
    · rfl

section

variable {tag : Tag} {r : Register String String} {k : Kind} {ts : List String} {t : String}

theorem forall₂_targets {α : Type} {read : Parameter → Except Error α} {R : String → α → Prop}
    {ys : List α} (h : (requireds tag r).mapM read = .ok ys)
    (hread : ∀ p ∈ requireds tag r, ∀ y, read p = .ok y → R p.target y) :
    List.Forall₂ R (targets tag r) ys := by
  rw [targets, List.forall₂_map_left_iff]
  exact forall₂_imp_of_mem (mapM_eq_ok_iff.1 h) hread

theorem Named.madeOf_of_readConditions (h : Named tag r)
    (hk : readConditions tag (requireds tag r) (optionals tag r) = .ok k) :
    k.MadeOf r (targets tag r) := by
  have htarget : ∀ p ∈ requireds tag r, p.target ≠ "" := fun p hp => (h.mem_requireds_iff.1 hp).2.1
  have hcourse : ∀ {cs}, (tag = .course ∨ tag = .courseSet) →
      (requireds tag r).mapM (readCourse tag (optionals tag r)) = .ok cs →
      List.Forall₂ (CourseCondition.Of r) (targets tag r) cs := fun htag hcs => by
    have hgrade : "grade" ∈ tag.optionalStems := by rcases htag with rfl | rfl <;> decide
    have hbydate : "bydate" ∈ tag.optionalStems := by rcases htag with rfl | rfl <;> decide
    exact forall₂_targets hcs fun p hp c => (h.readCourse_eq_ok_iff hbydate hgrade (htarget p hp)).1
  cases tag with
  | overall =>
    cases hk
    show targets .overall r = []
    simp [targets, requireds, Tag.requiredStem]
  | activity =>
    obtain ⟨cs, hcs, rfl⟩ := map_eq_ok_iff.1 hk
    exact forall₂_targets hcs fun p hp c =>
      (h.readActivity_eq_ok_iff (List.mem_singleton.2 rfl) (htarget p hp)).1
  | manual =>
    obtain ⟨ns, hns, rfl⟩ := map_eq_ok_iff.1 hk
    exact List.forall₂_map_right_iff.2 (forall₂_targets hns fun p _ n => readIdentity_eq_ok_iff.1)
  | social =>
    cases hk
    show _ = (targets .social r).map Text.lower
    rw [targets, List.map_map]
    rfl
  | courseSet =>
    obtain ⟨cs, hcs, rfl⟩ := map_eq_ok_iff.1 hk
    exact hcourse (.inr rfl) hcs
  | profile =>
    obtain ⟨fs, hfs, rfl⟩ := map_eq_ok_iff.1 hk
    exact forall₂_targets hfs fun p _ f => readField_eq_ok_iff.1
  | course =>
    simp only [readConditions] at hk
    split at hk
    · cases hk
    · next c hcs =>
      cases hk
      exact hcourse (.inl rfl) hcs
    · cases hk

theorem Named.blamed_of_readConditions (h : Named tag r) {e : Error}
    (hfails : readConditions tag (requireds tag r) (optionals tag r) = .error e) :
    Blamed tag r e := by
  have hcourse : ∀ e, (tag = .course ∨ tag = .courseSet) →
      (requireds tag r).mapM (readCourse tag (optionals tag r)) = .error e → Blamed tag r e :=
    fun e htag hcs => by
      obtain ⟨p, hp, hread⟩ := exists_of_mapM_eq_error hcs
      refine h.blamed_of_readCourse ?_ ?_ ?_ ?_ hp hread
      all_goals rcases htag with rfl | rfl <;> decide
  cases tag with
  | overall => cases hfails
  | activity =>
    obtain ⟨p, hp, hread⟩ := exists_of_mapM_eq_error (map_eq_error_iff.1 hfails)
    exact h.blamed_of_readActivity (List.mem_singleton.2 rfl) (by decide) (by decide) hp hread
  | manual =>
    obtain ⟨p, hp, hread⟩ := exists_of_mapM_eq_error (map_eq_error_iff.1 hfails)
    exact h.blamed_of_readIdentity (by decide) (by decide) hp hread
  | social => cases hfails
  | courseSet => exact hcourse e (.inr rfl) (map_eq_error_iff.1 hfails)
  | profile =>
    obtain ⟨p, hp, hread⟩ := exists_of_mapM_eq_error (map_eq_error_iff.1 hfails)
    exact h.blamed_of_readField hp hread
  | course =>
    simp only [readConditions] at hfails
    split at hfails
    · next e' he' =>
      cases hfails
      exact hcourse e (.inl rfl) he'
    · cases hfails
    · next cs hnot hcs =>
      cases hfails
      -- Every course could be read, so what is wrong is how many there are.
      refine ⟨"course", _, rfl, rfl, rfl, fun hone => ?_, targets .course r,
        h.ascending_requireds.imp fun {a b} hlt => ?_, ?_, fun t => ?_⟩
      · obtain ⟨c, rfl⟩ := List.length_eq_one_iff.1 hone
        exact hnot c rfl
      · rintro rfl
        exact String.lt_irrefl a hlt
      · rw [targets, List.length_map]
        exact (mapM_eq_ok_iff.1 hcs).length_eq
      · rw [h.mem_targets_iff]
        constructor
        · rintro ⟨_, value, ⟨⟩, hgiven⟩
          exact ⟨value, hgiven⟩
        · rintro ⟨value, hgiven⟩
          exact ⟨"course", value, rfl, hgiven⟩

theorem Kind.MadeOf.identity (h : k.MadeOf r ts) (ht : t ∈ ts) (hsocial : k.tag ≠ .social)
    (hprofile : k.tag ≠ .profile) : ∃ n, NamesIdentity t n := by
  cases k with
  | overall =>
    obtain rfl : ts = [] := h
    cases ht
  | activity cs =>
    obtain ⟨c, -, hc⟩ := forall₂_mem_left h ht
    exact ⟨_, hc.activity⟩
  | manual rs =>
    obtain ⟨role, -, hrole⟩ := forall₂_mem_left h ht
    exact ⟨_, hrole⟩
  | social ns => exact absurd rfl hsocial
  | course c =>
    obtain ⟨c, -, hc⟩ := forall₂_mem_left h ht
    exact ⟨_, hc.course⟩
  | courseSet cs =>
    obtain ⟨c, -, hc⟩ := forall₂_mem_left h ht
    exact ⟨_, hc.course⟩
  | profile fs => exact absurd rfl hprofile

theorem exists_of_rel {α : Type} {R : String → α → Prop} {value : String} {x : Option α}
    {o : Option String} (h : Option.Rel R o x) (ho : o = some value) : ∃ a, R value a := by
  subst ho
  cases h with
  | some ha => exact ⟨_, ha⟩

theorem Kind.MadeOf.cutoff (h : k.MadeOf r ts) (ht : t ∈ ts)
    (hstem : "bydate" ∈ k.tag.optionalStems) {value : String}
    (hvalue : r.get? (paramName "bydate" t) = some value) :
    ∃ i, SaysCutoff value i := by
  cases k with
  | activity cs =>
    obtain ⟨c, -, hc⟩ := forall₂_mem_left h ht
    exact exists_of_rel hc.byDate hvalue
  | course c =>
    obtain ⟨c, -, hc⟩ := forall₂_mem_left h ht
    exact exists_of_rel hc.byDate hvalue
  | courseSet cs =>
    obtain ⟨c, -, hc⟩ := forall₂_mem_left h ht
    exact exists_of_rel hc.byDate hvalue
  | _ => cases hstem

theorem Kind.MadeOf.grade (h : k.MadeOf r ts) (ht : t ∈ ts) (hstem : "grade" ∈ k.tag.optionalStems)
    {value : String} (hvalue : r.get? (paramName "grade" t) = some value) :
    ∃ g, SaysGrade value g := by
  cases k with
  | activity cs => simp [Kind.tag, Tag.optionalStems] at hstem
  | course c =>
    obtain ⟨c, -, hc⟩ := forall₂_mem_left h ht
    exact exists_of_rel hc.minGrade hvalue
  | courseSet cs =>
    obtain ⟨c, -, hc⟩ := forall₂_mem_left h ht
    exact exists_of_rel hc.minGrade hvalue
  | _ => cases hstem

theorem Named.grammar (h : Named tag r) (hmatched : ∀ p ∈ optionals tag r, p.target ∈ targets tag r)
    (htag : k.tag = tag) (hk : k.MadeOf r (targets tag r)) : Grammar tag r := by
  have hallows : ∀ {stem target value}, IsStem stem → Given r stem target value →
      tag.Allows stem := fun {stem target value} hstem hgiven => by
    obtain ⟨stem', target', hallows, htarget', hname⟩ := h _ (Register.mem_entries_iff.2 hgiven.2)
    obtain ⟨rfl, -⟩ := paramName_inj hstem hallows.isStem hgiven.1 htarget' hname
    exact hallows
  -- What is about a target is about one that has its required parameter.
  have hoptional : ∀ {stem target value}, stem ∈ tag.optionalStems → Given r stem target value →
      target ∈ targets tag r := fun hstem hgiven => hmatched _ (mem_optionals hstem hgiven)
  refine ⟨fun name value hvalue => h _ (Register.mem_entries_iff.2 hvalue), ?_, ?_, ?_, ?_, ?_, ?_⟩
  · intro stem target value hstem hgiven
    exact h.mem_targets_iff.1 (hoptional hstem hgiven)
  · intro hsocial hprofile stem target value hstem hgiven
    exact hk.identity (h.mem_targets_iff.2 ⟨stem, value, hstem, hgiven⟩) (htag ▸ hsocial)
      (htag ▸ hprofile)
  · intro hprofile target value hgiven
    have ht := h.mem_targets_iff.2 ⟨"field", value, hprofile ▸ rfl, hgiven⟩
    rw [← exists_namesField_iff]
    cases k with
    | profile fs =>
      obtain ⟨f, -, hf⟩ := forall₂_mem_left hk ht
      exact ⟨f, hf⟩
    | _ =>
      rw [hprofile] at htag
      cases htag
  · intro target value hgiven
    have hstem : "bydate" ∈ tag.optionalStems :=
      (hallows (by decide) hgiven).resolve_left (by cases tag <;> decide)
    exact exists_saysCutoff_iff.1 (hk.cutoff (hoptional hstem hgiven) (htag ▸ hstem) hgiven.2)
  · intro target value hgiven
    have hstem : "grade" ∈ tag.optionalStems :=
      (hallows (by decide) hgiven).resolve_left (by cases tag <;> decide)
    exact hk.grade (hoptional hstem hgiven) (htag ▸ hstem) hgiven.2
  · rintro rfl
    cases k with
    | course c =>
      obtain ⟨target, htargets⟩ : ∃ target, targets .course r = [target] :=
        List.length_eq_one_iff.1 hk.length_eq
      refine ⟨target, fun t => ?_⟩
      rw [← List.mem_singleton, ← htargets, h.mem_targets_iff]
      simp [Tag.requiredStem]
    | _ => cases htag

/-- Parameters are refused with someone to blame, or they keep to the grammar and a kind is made of
their targets. -/
theorem ofParams_outcome (tag : Tag) (r : Register String String) :
    (∃ e, Kind.ofParams tag r = .error e ∧ Blamed tag r e) ∨
      ∃ k, Kind.ofParams tag r = .ok k ∧ Grammar tag r ∧ k.tag = tag ∧ Named tag r ∧
        k.MadeOf r (targets tag r) := by
  rcases ofParams_cases tag r with hfails | ⟨hnamed, hmatched, hread⟩
  · exact .inl hfails
  · rw [hread]
    cases hk : readConditions tag (requireds tag r) (optionals tag r) with
    | error e => exact .inl ⟨e, rfl, hnamed.blamed_of_readConditions hk⟩
    | ok k =>
      have htag := tag_of_readConditions hk
      have hmade := hnamed.madeOf_of_readConditions hk
      exact .inr ⟨k, rfl, hnamed.grammar hmatched htag hmade, htag, hnamed, hmade⟩

end

/-- How a record is read: its type by name or by code, and its parameters by the grammar of the
type. -/
structure ReadByGrammar (id : CriterionId) (badge : BadgeId) (r : Record) : Prop where
  unknown : ∀ text, ofRecord id badge r = .error (.unknownType text) ↔
    (∀ tag : Tag, ¬ tag.WrittenAs r.criterionType) ∧ text = Text.trim r.criterionType
  accepted : ∀ tag : Tag, tag.WrittenAs r.criterionType →
    ((∃ c, ofRecord id badge r = .ok c) ↔ Grammar tag r.params)
  made : ∀ tag : Tag, tag.WrittenAs r.criterionType → ∀ c, ofRecord id badge r = .ok c →
    c.id = id ∧ c.badge = badge ∧ c.method = r.method ∧ c.description = r.description ∧
      c.kind.tag = tag ∧ ∃ ts, RequiredTargets tag r.params ts ∧ c.kind.MadeOf r.params ts
  refused : ∀ tag : Tag, tag.WrittenAs r.criterionType → ¬ Grammar tag r.params →
    ∃ name fault, ofRecord id badge r = .error (.invalidParameter tag name fault) ∧
      fault.Describes tag r.params name

theorem ofRecord_eq_of_writtenAs {id : CriterionId} {badge : BadgeId} {r : Record} {tag : Tag}
    (h : tag.WrittenAs r.criterionType) : ofRecord id badge r =
      (Kind.ofParams tag r.params).map fun k => ⟨id, badge, r.method, r.description, k⟩ := by
  unfold ofRecord
  rw [Tag.parse_eq_ok_iff.2 h]
  dsimp only [bind, Except.bind]
  cases Kind.ofParams tag r.params <;> rfl

/-- Every record is read by the grammar. -/
theorem ofRecord_reads_by_grammar (id : CriterionId) (badge : BadgeId) (r : Record) :
    ReadByGrammar id badge r := by
  -- Each part is one reading of `ofParams_outcome`, by which parameters are blamed or accepted.
  refine ⟨fun text => ⟨fun h => ?_, ?_⟩, fun tag htag => ?_, fun tag htag c hc => ?_,
    fun tag htag hnot => ?_⟩
  · rcases bind_eq_error_iff.1 h with h | ⟨tag, htag, h⟩
    · obtain ⟨hnone, heq⟩ := Tag.parse_eq_error_iff.1 h
      cases heq
      exact ⟨hnone, rfl⟩
    · rcases bind_eq_error_iff.1 h with h | ⟨_, -, ⟨⟩⟩
      rcases ofParams_outcome tag r.params with ⟨e, he, name, fault, rfl, -⟩ | ⟨k, hk, -⟩
      · rw [he] at h
        cases h
      · rw [hk] at h
        cases h
  · rintro ⟨hnone, rfl⟩
    exact bind_eq_error_iff.2 (.inl (Tag.parse_eq_error_iff.2 ⟨hnone, rfl⟩))
  · rw [ofRecord_eq_of_writtenAs htag]
    rcases ofParams_outcome tag r.params with ⟨e, he, name, fault, -, hfault⟩ | ⟨k, hk, hgrammar, -⟩
    · rw [he]
      exact ⟨fun ⟨_, hc⟩ => (nomatch hc), fun hgrammar => absurd hgrammar hfault.not_grammar⟩
    · rw [hk]
      exact ⟨fun _ => hgrammar, fun _ => ⟨_, rfl⟩⟩
  · rw [ofRecord_eq_of_writtenAs htag] at hc
    rcases ofParams_outcome tag r.params with ⟨e, he, -⟩ | ⟨k, hk, -, hkind, hnamed, hmade⟩
    · rw [he] at hc
      cases hc
    · rw [hk] at hc
      cases hc
      exact ⟨rfl, rfl, rfl, rfl, hkind, _, ⟨hnamed.ascending_requireds,
        fun t => hnamed.mem_targets_iff⟩, hmade⟩
  · rw [ofRecord_eq_of_writtenAs htag]
    rcases ofParams_outcome tag r.params with ⟨e, he, hblamed⟩ | ⟨k, -, hgrammar, -⟩
    · obtain ⟨name, fault, rfl, hfault⟩ := hblamed
      rw [he]
      exact ⟨name, fault, rfl, hfault⟩
    · exact absurd hgrammar hnot

end Criterion

end Badging
