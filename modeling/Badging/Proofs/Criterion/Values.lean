import Badging.Proofs.Criterion.Acceptance

/-!
# Which values count

The value of a required parameter is not looked at: the entity is read from the name, and whatever
the value says is lost. `Parameter.blank` takes such values out, and reading does not tell the
difference at any of its passes. All else that a record says is in the criterion that it builds: two
records that build the same criterion say the same, in whatever spelling, about the same targets.
-/

namespace Badging

namespace Criterion

/-- The name is one of a required parameter. -/
def Tag.Requires (tag : Tag) (name : String) : Prop :=
  ∃ stem target, tag.requiredStem = some stem ∧ target ≠ "" ∧ name = paramName stem target

/-- The parameters are the same but for the values of the required ones. -/
structure SameButRequired (tag : Tag) (r r' : Register String String) : Prop where
  names : ∀ name, r.contains name = r'.contains name
  values : ∀ name, ¬ tag.Requires name → r.get? name = r'.get? name

/-- Two targets that stand for the same entity. -/
def Tag.SameEntity (tag : Tag) (t t' : String) : Prop :=
  match tag with
  | .social => Text.lower t = Text.lower t'
  | .profile => ∃ f, NamesField t f ∧ NamesField t' f
  | _ => ∃ n, NamesIdentity t n ∧ NamesIdentity t' n

/-- The parameters of two registers about two targets ask for the same. -/
structure SameCondition (tag : Tag) (r r' : Register String String) (t t' : String) : Prop where
  entity : tag.SameEntity t t'
  cutoff : Option.Rel (fun v v' => ∃ i, SaysCutoff v i ∧ SaysCutoff v' i)
    (r.get? (paramName "bydate" t)) (r'.get? (paramName "bydate" t'))
  grade : Option.Rel (fun v v' => ∃ g, SaysGrade v g ∧ SaysGrade v' g)
    (r.get? (paramName "grade" t)) (r'.get? (paramName "grade" t'))

/-- A value that stands for the entity of a target, with or without blanks around it. -/
def Tag.Denotes (tag : Tag) (value target : String) : Prop :=
  tag.SameEntity target value ∨ tag.SameEntity target (Text.trim value)

/-- Every value of a required parameter stands for the entity of its name. -/
def Tag.Truthful (tag : Tag) (r : Register String String) : Prop :=
  ∀ stem target value, tag.requiredStem = some stem → Given r stem target value →
    tag.Denotes value target

/-- The values of the required parameters about two targets stand for the same entity. -/
def SameValue (tag : Tag) (r r' : Register String String) (t t' : String) : Prop :=
  ∃ stem value value', tag.requiredStem = some stem ∧ Given r stem t value ∧
    Given r' stem t' value' ∧ ∃ entity, tag.Denotes value entity ∧ tag.Denotes value' entity

/-- Takes the value of a required parameter out. -/
def Parameter.blank (tag : Tag) (p : Parameter) : Parameter :=
  if tag.requiredStem = some p.stem then { p with value := "" } else p

def blankValue (tag : Tag) (name value : String) : String :=
  match splitName? name with
  | some (stem, _) => if tag.requiredStem = some stem then "" else value
  | none => value

section

variable {tag : Tag} {r r' : Register String String} {name value : String} {p : Parameter}

theorem blankValue_of_requires (h : tag.Requires name) : blankValue tag name value = "" := by
  obtain ⟨stem, target, hstem, htarget, rfl⟩ := h
  have hallows : tag.Allows stem := .inl hstem
  rw [blankValue, splitName?_paramName hallows.isStem htarget]
  exact if_pos hstem

@[simp] theorem Parameter.name_blank : (p.blank tag).name = p.name := by
  unfold blank
  split <;> rfl

@[simp] theorem Parameter.stem_blank : (p.blank tag).stem = p.stem := by
  unfold blank
  split <;> rfl

@[simp] theorem Parameter.target_blank : (p.blank tag).target = p.target := by
  unfold blank
  split <;> rfl

theorem Parameter.read_blankValue (tag : Tag) (name value : String) :
    Parameter.read tag name (blankValue tag name value) =
      (Parameter.read tag name value).map (Parameter.blank tag) := by
  unfold Parameter.read blankValue
  cases splitName? name with
  | none => rfl
  | some parts =>
    obtain ⟨stem, target⟩ := parts
    dsimp only
    split
    · by_cases hstem : tag.requiredStem = some stem <;> simp [Except.map, Parameter.blank, hstem]
    · rfl

theorem mapM_read_blankValue (tag : Tag) (es : List (String × String)) :
    (es.map fun e => (e.1, blankValue tag e.1 e.2)).mapM (fun e => Parameter.read tag e.1 e.2) =
      (es.mapM fun e => Parameter.read tag e.1 e.2).map (List.map (Parameter.blank tag)) := by
  induction es with
  | nil => rfl
  | cons e es ih =>
    rw [List.map_cons, List.mapM_cons, List.mapM_cons, ih, Parameter.read_blankValue]
    cases Parameter.read tag e.1 e.2 with
    | error _ => rfl
    | ok p => cases es.mapM fun e => Parameter.read tag e.1 e.2 <;> rfl

theorem readConditions_map_blank (tag : Tag) (ps os : List Parameter) :
    readConditions tag (ps.map (Parameter.blank tag)) os = readConditions tag ps os := by
  have hid : ∀ p : Parameter, readIdentity tag (p.blank tag) = readIdentity tag p := fun p => by
    simp [readIdentity]
  have hactivity : readActivity tag os ∘ Parameter.blank tag = readActivity tag os := by
    funext p
    simp [readActivity, hid]
  have hcourse : readCourse tag os ∘ Parameter.blank tag = readCourse tag os := by
    funext p
    simp [readCourse, hid]
  have hidentity : readIdentity tag ∘ Parameter.blank tag = readIdentity tag := funext hid
  have hfield : readField tag ∘ Parameter.blank tag = readField tag := by
    funext p
    simp [readField]
  cases tag <;> simp only [readConditions, List.mapM_map, hactivity, hcourse, hidentity, hfield]
  simp

theorem filter_map_blank (tag : Tag) (ps : List Parameter) :
    ((ps.map (Parameter.blank tag)).filter fun p => tag.requiredStem = some p.stem) =
        (ps.filter fun p => tag.requiredStem = some p.stem).map (Parameter.blank tag) ∧
      ((ps.map (Parameter.blank tag)).filter fun p => !decide (tag.requiredStem = some p.stem)) =
        ps.filter fun p => !decide (tag.requiredStem = some p.stem) := by
  constructor
  · rw [List.filter_map]
    simp only [Function.comp_def, Parameter.stem_blank]
  · rw [List.filter_map]
    simp only [Function.comp_def, Parameter.stem_blank]
    refine (List.map_congr_left fun p hp => ?_).trans (List.map_id _)
    have hstem : tag.requiredStem ≠ some p.stem := by simpa using (List.mem_filter.1 hp).2
    exact if_neg hstem

/-- Reading does not look at the values of required parameters. -/
theorem ofParams_mapValues_blankValue (tag : Tag) (r : Register String String) :
    Kind.ofParams tag (r.mapValues (blankValue tag)) = Kind.ofParams tag r := by
  have hentries : (r.mapValues (blankValue tag)).entries =
      r.entries.map fun e => (e.1, blankValue tag e.1 e.2) := rfl
  unfold Kind.ofParams
  rw [hentries, mapM_read_blankValue]
  cases r.entries.mapM fun e => Parameter.read tag e.1 e.2 with
  | error e => rfl
  | ok ps =>
    obtain ⟨hrequireds, hoptionals⟩ := filter_map_blank tag ps
    dsimp only [Except.map, bind, Except.bind]
    simp only [List.partition_eq_filter_filter, Function.comp_def, hrequireds, hoptionals,
      List.all_map, Parameter.target_blank, readConditions_map_blank]

theorem SameButRequired.mapValues_eq (h : SameButRequired tag r r') :
    r.mapValues (blankValue tag) = r'.mapValues (blankValue tag) := by
  refine Register.ext_get? fun name => ?_
  rw [Register.get?_mapValues, Register.get?_mapValues]
  by_cases hname : tag.Requires name
  · cases hr : r.get? name with
    | none =>
      have hr' : r'.contains name = false := by
        rw [← h.names, Register.contains_eq_false_iff, hr]
      rw [Register.contains_eq_false_iff.1 hr']
    | some v =>
      have hr' : r'.contains name = true := by
        rw [← h.names, Register.contains_eq_true_iff]
        exact ⟨v, hr⟩
      obtain ⟨v', hv'⟩ := Register.contains_eq_true_iff.1 hr'
      rw [hv', Option.map_some, Option.map_some, blankValue_of_requires hname,
        blankValue_of_requires hname]
  · rw [h.values name hname]

theorem SameButRequired.ofParams_eq (h : SameButRequired tag r r') :
    Kind.ofParams tag r = Kind.ofParams tag r' := by
  rw [← ofParams_mapValues_blankValue, h.mapValues_eq, ofParams_mapValues_blankValue]

end

section

variable {tag : Tag} {r r' : Register String String} {k : Kind} {ts ts' : List String}

theorem forall₂_exists_between {α β γ : Type} {R : α → γ → Prop} {S : β → γ → Prop} {xs : List α}
    {ys : List β} {zs : List γ} (hR : List.Forall₂ R xs zs) (hS : List.Forall₂ S ys zs) :
    List.Forall₂ (fun x y => ∃ z, R x z ∧ S y z) xs ys := by
  induction hR generalizing ys with
  | nil =>
    cases hS
    exact .nil
  | cons hR _ ih =>
    cases hS with
    | cons hS hrest => exact .cons ⟨_, hR, hS⟩ (ih hrest)

theorem rel_exists_between {α β γ : Type} {R : α → γ → Prop} {S : β → γ → Prop} {x : Option α}
    {y : Option β} {z : Option γ} (hR : Option.Rel R x z) (hS : Option.Rel S y z) :
    Option.Rel (fun x y => ∃ z, R x z ∧ S y z) x y := by
  cases hR with
  | none =>
    cases hS
    exact .none
  | some hR =>
    cases hS with
    | some hS => exact .some ⟨_, hR, hS⟩

theorem Grammar.get?_eq_none (h : Grammar tag r) {stem target : String} (hstem : IsStem stem)
    (htarget : target ≠ "") (hnot : ¬ tag.Allows stem) : r.get? (paramName stem target) = none := by
  refine Option.eq_none_iff_forall_ne_some.2 fun value hvalue => ?_
  obtain ⟨stem', target', hallows, htarget', hname⟩ := h.named _ value hvalue
  obtain ⟨rfl, -⟩ := paramName_inj hstem hallows.isStem htarget htarget' hname
  exact hnot hallows

theorem rel_of_not_allows {R : String → String → Prop} (hr : Grammar tag r) (hr' : Grammar tag r')
    {stem t t' : String} (hstem : IsStem stem) (hnot : ¬ tag.Allows stem) (ht : t ≠ "")
    (ht' : t' ≠ "") : Option.Rel R (r.get? (paramName stem t)) (r'.get? (paramName stem t')) := by
  rw [hr.get?_eq_none hstem ht hnot, hr'.get?_eq_none hstem ht' hnot]
  exact .none

/-- Targets of which the same kind is made ask for the same. -/
theorem Kind.MadeOf.sameCondition (h : k.MadeOf r ts) (h' : k.MadeOf r' ts') (hr : Grammar k.tag r)
    (hr' : Grammar k.tag r') (hts : ∀ t ∈ ts, t ≠ "") (hts' : ∀ t ∈ ts', t ≠ "") :
    List.Forall₂ (SameCondition k.tag r r') ts ts' := by
  -- Targets are compared through the entry that is made of both.
  have hbetween : ∀ {γ : Type} {R S : String → γ → Prop} {zs : List γ}, List.Forall₂ R ts zs →
      List.Forall₂ S ts' zs → (∀ t t' z, t ≠ "" → t' ≠ "" → R t z → S t' z →
        SameCondition k.tag r r' t t') → List.Forall₂ (SameCondition k.tag r r') ts ts' :=
    fun hR hS himp => (forall₂_exists_between ((List.forall₂_and_left _ _).2 ⟨hts, hR⟩)
      ((List.forall₂_and_left _ _).2 ⟨hts', hS⟩)).imp
        fun t t' ⟨z, ⟨ht, hz⟩, ht', hz'⟩ => himp t t' z ht ht' hz hz'
  -- Under a stem that the type does not have nothing is given on either side.
  have hnone : ∀ tag {R : String → String → Prop} {stem t t' : String}, k.tag = tag → IsStem stem →
      ¬ tag.Allows stem → t ≠ "" → t' ≠ "" →
      Option.Rel R (r.get? (paramName stem t)) (r'.get? (paramName stem t')) := by
    rintro _ _ _ _ _ rfl
    exact rel_of_not_allows hr hr'
  cases k with
  | overall =>
    obtain rfl : ts = [] := h
    obtain rfl : ts' = [] := h'
    exact .nil
  | activity cs =>
    exact hbetween h h' fun t t' c ht ht' hc hc' => ⟨⟨_, hc.activity, hc'.activity⟩,
      rel_exists_between hc.byDate hc'.byDate,
      hnone .activity rfl (by decide) (by decide) ht ht'⟩
  | manual rs =>
    exact hbetween h h' fun t t' role ht ht' hrole hrole' => ⟨⟨_, hrole, hrole'⟩,
      hnone .manual rfl (by decide) (by decide) ht ht',
      hnone .manual rfl (by decide) (by decide) ht ht'⟩
  | social ns =>
    have hlower : ∀ {ts : List String}, ns = ts.map Text.lower →
        List.Forall₂ (fun t n => Text.lower t = n) ts ns := fun hns => by
      rw [hns, List.forall₂_map_right_iff]
      exact List.forall₂_same.2 fun _ _ => rfl
    exact hbetween (hlower h) (hlower h') fun t t' n ht ht' hn hn' => ⟨hn.trans hn'.symm,
      hnone .social rfl (by decide) (by decide) ht ht',
      hnone .social rfl (by decide) (by decide) ht ht'⟩
  | course c =>
    exact hbetween h h' fun t t' c ht ht' hc hc' => ⟨⟨_, hc.course, hc'.course⟩,
      rel_exists_between hc.byDate hc'.byDate, rel_exists_between hc.minGrade hc'.minGrade⟩
  | courseSet cs =>
    exact hbetween h h' fun t t' c ht ht' hc hc' => ⟨⟨_, hc.course, hc'.course⟩,
      rel_exists_between hc.byDate hc'.byDate, rel_exists_between hc.minGrade hc'.minGrade⟩
  | profile fs =>
    exact hbetween h h' fun t t' f ht ht' hf hf' => ⟨⟨f, hf, hf'⟩,
      hnone .profile rfl (by decide) (by decide) ht ht',
      hnone .profile rfl (by decide) (by decide) ht ht'⟩

theorem RequiredTargets.ne_empty (h : RequiredTargets tag r ts) : ∀ t ∈ ts, t ≠ "" := fun t ht => by
  obtain ⟨_, _, -, hgiven⟩ := (h.2 t).1 ht
  exact hgiven.1

theorem NamesIdentity.unique {t : String} {m n : Int} (hm : NamesIdentity t m)
    (hn : NamesIdentity t n) : m = n :=
  Option.some.inj (hm.1.symm.trans hn.1)

theorem NamesField.unique {t : String} {f g : ProfileField} (hf : NamesField t f)
    (hg : NamesField t g) : f = g := by
  cases f with
  | core name =>
    cases g with
    | core name' => rw [hf.1, hg.1]
    | custom n => exact absurd (hf.2.1.symm.trans hg.1) nofun
  | custom n =>
    cases g with
    | core name => exact absurd (hg.2.1.symm.trans hf.1) nofun
    | custom m => rw [NamesIdentity.unique hf hg]

theorem Tag.SameEntity.trans {t₁ t₂ t₃ : String} (h : tag.SameEntity t₁ t₂)
    (h' : tag.SameEntity t₂ t₃) : tag.SameEntity t₁ t₃ := by
  have hidentity : (∃ n, NamesIdentity t₁ n ∧ NamesIdentity t₂ n) →
      (∃ n, NamesIdentity t₂ n ∧ NamesIdentity t₃ n) →
      ∃ n, NamesIdentity t₁ n ∧ NamesIdentity t₃ n := by
    rintro ⟨n, hn₁, hn₂⟩ ⟨m, hm₂, hm₃⟩
    obtain rfl := hn₂.unique hm₂
    exact ⟨n, hn₁, hm₃⟩
  cases tag with
  | social => exact Eq.trans h h'
  | profile =>
    obtain ⟨f, hf₁, hf₂⟩ := h
    obtain ⟨g, hg₂, hg₃⟩ := h'
    obtain rfl := hf₂.unique hg₂
    exact ⟨f, hf₁, hg₃⟩
  | overall => exact hidentity h h'
  | activity => exact hidentity h h'
  | manual => exact hidentity h h'
  | course => exact hidentity h h'
  | courseSet => exact hidentity h h'

theorem Tag.truthful_ofList {es : List (String × String)} (h : ∀ e ∈ es, ∃ stem target,
    splitName? e.1 = some (stem, target) ∧
      (tag.requiredStem = some stem → tag.Denotes e.2 target)) : tag.Truthful (.ofList es) := by
  rintro stem target value hstem ⟨htarget, hvalue⟩
  have hallows : tag.Allows stem := .inl hstem
  obtain ⟨stem', target', hsplit, hdenotes⟩ := h _ (Register.mem_of_get?_ofList hvalue)
  rw [splitName?_paramName hallows.isStem htarget, Option.some.injEq, Prod.mk.injEq] at hsplit
  obtain ⟨rfl, rfl⟩ := hsplit
  exact hdenotes hstem

/-- Where values stand for the entities of their names they agree as the names do. -/
theorem SameCondition.sameValues (h : List.Forall₂ (SameCondition tag r r') ts ts')
    (hts : RequiredTargets tag r ts) (hts' : RequiredTargets tag r' ts') (hr : tag.Truthful r)
    (hr' : tag.Truthful r') : List.Forall₂ (SameValue tag r r') ts ts' := by
  obtain ⟨hlength, hsame⟩ := List.forall₂_iff_zip.1 h
  refine List.forall₂_iff_zip.2 ⟨hlength, fun {t t'} hmem => ?_⟩
  have hentity := (hsame hmem).entity
  obtain ⟨ht, ht'⟩ := List.of_mem_zip hmem
  obtain ⟨stem, value, hstem, hvalue⟩ := (hts.2 t).1 ht
  obtain ⟨stem', value', hstem', hvalue'⟩ := (hts'.2 t').1 ht'
  obtain rfl := Option.some.inj (hstem.symm.trans hstem')
  exact ⟨stem, value, value', hstem, hvalue, hvalue', t, hr stem t value hstem hvalue,
    (hr' stem t' value' hstem hvalue').imp hentity.trans hentity.trans⟩

end

/-- The values of the required parameters are ignored. All else counts: two records that build the
same criterion have its type and say the same but for them, target by target, up to the spelling of
numbers and networks. So where the values stand for the entities of their names, the records say
the same altogether. -/
theorem all_but_required_values_count (id : CriterionId) (badge : BadgeId) (r : Record) {tag : Tag}
    (htag : tag.WrittenAs r.criterionType) :
    (∀ params, SameButRequired tag r.params params →
      ofRecord id badge { r with params := params } = ofRecord id badge r) ∧
    ∀ r' c, ofRecord id badge r = .ok c → ofRecord id badge r' = .ok c →
      (c.tag = tag ∧ tag.WrittenAs r'.criterionType) ∧
        r.method = r'.method ∧ r.description = r'.description ∧
        ∃ ts ts', RequiredTargets tag r.params ts ∧ RequiredTargets tag r'.params ts' ∧
          List.Forall₂ (SameCondition tag r.params r'.params) ts ts' ∧
          (tag.Truthful r.params → tag.Truthful r'.params →
            List.Forall₂ (SameValue tag r.params r'.params) ts ts') := by
  have hparse := Tag.parse_eq_ok_iff.2 htag
  refine ⟨fun params hsame => ?_, fun r' c hc hc' => ?_⟩
  · unfold ofRecord
    rw [hparse]
    dsimp only [bind, Except.bind]
    rw [hsame.ofParams_eq]
  · have hread : ∀ r, ofRecord id badge r = .ok c → c.tag.WrittenAs r.criterionType ∧
        c.method = r.method ∧ c.description = r.description ∧ Grammar c.tag r.params ∧
        ∃ ts, RequiredTargets c.tag r.params ts ∧ c.kind.MadeOf r.params ts := fun r hc => by
      obtain ⟨tag, _, htag, -, -⟩ := ofRecord_eq_ok_iff.1 hc
      have hwritten := Tag.parse_eq_ok_iff.1 htag
      have hgrammar := ((ofRecord_reads_by_grammar id badge r).accepted tag hwritten).1 ⟨c, hc⟩
      obtain ⟨-, -, hmethod, hdescription, rfl, ts, hts, hmade⟩ :=
        (ofRecord_reads_by_grammar id badge r).made tag hwritten c hc
      exact ⟨hwritten, hmethod, hdescription, hgrammar, ts, hts, hmade⟩
    obtain ⟨hwritten, hmethod, hdescription, hr, ts, hts, hmade⟩ := hread r hc
    obtain ⟨hwritten', hmethod', hdescription', hr', ts', hts', hmade'⟩ := hread r' hc'
    obtain rfl : tag = c.tag :=
      Except.ok.inj (hparse.symm.trans (Tag.parse_eq_ok_iff.2 hwritten))
    have hsame := hmade.sameCondition hmade' hr hr' hts.ne_empty hts'.ne_empty
    exact ⟨⟨rfl, hwritten'⟩, hmethod.symm.trans hmethod', hdescription.symm.trans hdescription',
      ts, ts', hts, hts', hsame, SameCondition.sameValues hsame hts hts'⟩

/-- The value of a module is changed to something that is no value at all, and both parameters of
the module are spelled otherwise. -/
theorem all_but_required_values_count_seven :
    let record : Record := ⟨"activity", .all, none, .ofList [("bydate_7", "10"), ("module_7", "7")]⟩
    let params := Register.ofList [("bydate_7", "10"), ("module_7", "x")]
    let other : Record :=
      ⟨" 1 ", .all, none, .ofList [("bydate_07", " +10 "), ("module_07", " 7 ")]⟩
    let c : Criterion := ⟨⟨1⟩, ⟨1⟩, .all, none, .activity
      [⟨⟨7⟩, some ⟨10, 0, by decide, by decide, by decide, by decide⟩⟩]⟩
    Tag.activity.WrittenAs record.criterionType ∧
    (SameButRequired .activity record.params params ∧
      ofRecord ⟨1⟩ ⟨1⟩ { record with params := params } = ofRecord ⟨1⟩ ⟨1⟩ record) ∧
    (ofRecord ⟨1⟩ ⟨1⟩ record = .ok c ∧ ofRecord ⟨1⟩ ⟨1⟩ other = .ok c) ∧
    (Tag.activity.Truthful record.params ∧ Tag.activity.Truthful other.params) ∧
      ∃ ts ts', RequiredTargets .activity record.params ts ∧
        RequiredTargets .activity other.params ts' ∧
        List.Forall₂ (SameCondition .activity record.params other.params) ts ts' ∧
        List.Forall₂ (SameValue .activity record.params other.params) ts ts' := by
  intro record params other c
  have htag : Tag.activity.WrittenAs record.criterionType := Tag.parse_eq_ok_iff.1 (by decide)
  have hsame : SameButRequired .activity record.params params := by
    refine ⟨fun name => ?_, fun name hname => ?_⟩
    · simp [record, params, Register.ofList, Register.contains_insert]
    · have hne : name ≠ "module_7" := by
        rintro rfl
        exact hname ⟨"module", "7", rfl, by decide, by decide⟩
      simp [record, params, Register.ofList, hne]
  have hrecord : ofRecord ⟨1⟩ ⟨1⟩ record = .ok c := by decide +kernel
  have hother : ofRecord ⟨1⟩ ⟨1⟩ other = .ok c := by decide +kernel
  have hbyDate : Tag.activity.requiredStem ≠ some "bydate" := by decide
  have hr : Tag.activity.Truthful record.params := Tag.truthful_ofList <| by
    rw [List.forall_mem_cons, List.forall_mem_singleton]
    exact ⟨⟨"bydate", "7", by decide, fun h => absurd h hbyDate⟩, "module", "7", by decide,
      fun _ => .inl ⟨7, ⟨by decide, by decide⟩, by decide, by decide⟩⟩
  have hr' : Tag.activity.Truthful other.params := Tag.truthful_ofList <| by
    rw [List.forall_mem_cons, List.forall_mem_singleton]
    exact ⟨⟨"bydate", "07", by decide, fun h => absurd h hbyDate⟩, "module", "07", by decide,
      fun _ => .inr ⟨7, ⟨by decide, by decide⟩, by decide, by decide⟩⟩
  obtain ⟨hparams, hcount⟩ := all_but_required_values_count ⟨1⟩ ⟨1⟩ record htag
  obtain ⟨-, -, -, ts, ts', hts, hts', hsames, hvalues⟩ := hcount other c hrecord hother
  exact ⟨htag, ⟨hsame, hparams params hsame⟩, ⟨hrecord, hother⟩, ⟨hr, hr'⟩, ts, ts', hts, hts',
    hsames, hvalues hr hr'⟩

/-- Module 7 with the value of module 8 is accepted as module 7, so a value need not stand for the
entity of its name. -/
theorem value_of_other_module_accepted :
    let record : Record := ⟨"activity", .all, none, .ofList [("module_7", "8")]⟩
    ofRecord ⟨1⟩ ⟨1⟩ record = .ok ⟨⟨1⟩, ⟨1⟩, .all, none, .activity [⟨⟨7⟩, none⟩]⟩ ∧
      ¬ ∀ id badge r c, ofRecord id badge r = .ok c → ∀ target value,
        Given r.params "module" target value →
          ∃ n, NamesIdentity target n ∧ NamesIdentity value n := by
  intro record
  have hrecord : ofRecord ⟨1⟩ ⟨1⟩ record =
      .ok ⟨⟨1⟩, ⟨1⟩, .all, none, .activity [⟨⟨7⟩, none⟩]⟩ := by decide +kernel
  refine ⟨hrecord, fun h => ?_⟩
  obtain ⟨n, ⟨hseven, -⟩, height, -⟩ := h _ _ record _ hrecord "7" "8" ⟨by decide, by decide⟩
  have hseven' : Number.readInt64? "7".toList = some 7 := by decide
  have height' : Number.readInt64? "8".toList = some 8 := by decide
  rw [hseven', Option.some.injEq] at hseven
  rw [height', Option.some.injEq] at height
  omega

end Criterion

end Badging
