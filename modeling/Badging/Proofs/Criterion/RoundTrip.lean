import Badging.Criterion.Rendering
import Badging.Proofs.Criterion.Reading
import Badging.Proofs.Criterion.Writing
import Badging.Proofs.Number.ReadBack

/-!
# Criteria read back from their records

A criterion that was read from a record is legible: its identities are positive and of 64 bits, its
grades are grades, its networks are in small letters and its fields are named as fields are. What is
legible is read back from the record that it is written as. Reading back keeps the type and the
parameters, so it is done once and for all: reading back a second time changes nothing.
-/

namespace Badging

namespace Criterion

open Number

/-- The numbers that serve as identities in the text of a parameter. -/
def IsIdentity (n : Int) : Prop := 0 < n ∧ InInt64 n

/-- The conditions on a course that a record can state. -/
def CourseCondition.Legible (c : CourseCondition) : Prop :=
  IsIdentity c.course.val ∧ ∀ g, c.minGrade = some g → g.isGrade = true

/-- The profile fields that a record can name. -/
def ProfileField.Legible : ProfileField → Prop
  | .core name => name ≠ "" ∧ readInt64? name.toList = none ∧ name.toList.all isFieldChar = true
  | .custom id => IsIdentity id

/-- The conditions that a record can state. -/
def Kind.Legible : Kind → Prop
  | .overall => True
  | .activity cs => ∀ c ∈ cs, IsIdentity c.activity.val
  | .manual rs => ∀ r ∈ rs, IsIdentity r.val
  | .social ns => ∀ n ∈ ns, n ≠ "" ∧ Text.lower n = n
  | .course c => c.Legible
  | .courseSet cs => ∀ c ∈ cs, c.Legible
  | .profile fs => ∀ f ∈ fs, f.Legible

/-- Conditions about the same activity or the same course are the same. -/
def Kind.Consistent : Kind → Prop
  | .activity cs => ∀ c ∈ cs, ∀ d ∈ cs, c.activity = d.activity → c = d
  | .courseSet cs => ∀ c ∈ cs, ∀ d ∈ cs, c.course = d.course → c = d
  | _ => True

instance (k : Kind) : Decidable k.Consistent := by
  cases k <;> unfold Kind.Consistent <;> infer_instance

/-- What the conditions are about, in the words that are the targets of their parameters. -/
def Kind.targets : Kind → List String
  | .overall => []
  | .activity cs => cs.map fun c => c.activity.text
  | .manual rs => rs.map fun r => r.text
  | .social ns => ns
  | .course c => [c.course.text]
  | .courseSet cs => cs.map fun c => c.course.text
  | .profile fs => fs.map fun f => f.key

/-- The conditions come in the order of their targets, and no two of them are about the same thing.
Texts are compared by code points, which is the order of their bytes in UTF-8. -/
def Kind.Ascending (k : Kind) : Prop := k.targets.Pairwise (· < ·)

instance (k : Kind) : Decidable k.Ascending := by
  unfold Kind.Ascending; infer_instance

section Reading

variable {tag : Tag} {p : Parameter}

theorem isIdentity_of_readIdentity {n : Int} (h : readIdentity tag p = .ok n) : IsIdentity n := by
  unfold readIdentity at h
  split at h
  · next m hm =>
    split at h
    · next hpos =>
      cases h
      have hrange := (Option.filter_eq_some_iff.1 hm).2
      exact ⟨hpos, of_decide_eq_true hrange⟩
    · cases h
  · cases h

theorem readIdentity_of_target {n : Int} (hn : IsIdentity n) (hp : p.target = integerText n) :
    readIdentity tag p = .ok n := by
  have hread : readInt64? p.target.toList = some n := by
    rw [hp, integerText, String.toList_ofList, readInt64?_integerChars hn.2]
  simp only [readIdentity, hread, hn.1, if_true]

theorem isGrade_of_readGrade {g : Binary64} (h : readGrade tag p = .ok g) : g.isGrade = true := by
  unfold readGrade at h
  split at h
  · next g' hg =>
    cases h
    exact (Option.filter_eq_some_iff.1 hg).2
  · cases h

theorem readGrade_of_value {g : Binary64} (hg : g.isGrade = true) (hp : p.value = g.text) :
    readGrade tag p = .ok g := by
  have hfinite : g.isFinite = true := (Bool.and_eq_true_iff.1 hg).1
  have hread : Binary64.read? (Text.trimChars p.value.toList) = some g := by
    rw [hp, Binary64.text, String.toList_ofList,
      Text.trimChars_of_forall (Binary64.isBlank_of_mem_chars hfinite), Binary64.read?_chars]
  simp only [readGrade, hread, Option.filter, hg, if_true]

theorem inInt64_seconds (t : Instant) : InInt64 t.seconds := by
  have hfirst := t.first_le
  have hlast := t.le_last
  unfold Instant.firstSecond at hfirst
  unfold Instant.lastSecond at hlast
  unfold InInt64
  omega

theorem isBlank_of_mem_integerChars {n : Int} : ∀ c ∈ integerChars n, Text.isBlank c = false := by
  intro c hc
  cases n with
  | ofNat n => exact Text.isBlank_of_isDigit (isDigit_of_mem_digits hc)
  | negSucc n =>
    rcases List.mem_cons.1 hc with rfl | hc
    · decide
    · exact Text.isBlank_of_isDigit (isDigit_of_mem_digits hc)

/-- An instant is read back from the text of its seconds, without the part below a second. -/
theorem readInstant_of_value {t : Instant} (hp : p.value = integerText t.seconds) :
    readInstant tag p = .ok t.wholeSeconds := by
  have hread : readInt64? (Text.trimChars p.value.toList) = some t.seconds := by
    rw [hp, integerText, String.toList_ofList, Text.trimChars_of_forall isBlank_of_mem_integerChars,
      readInt64?_integerChars (inInt64_seconds t)]
  simp only [readInstant, hread, Option.bind_some, Instant.ofSeconds?_seconds]

theorem legible_of_readField {f : ProfileField} (hne : p.target ≠ "")
    (h : readField tag p = .ok f) : f.Legible := by
  unfold readField at h
  split at h
  · next m hm =>
    split at h
    · next hpos =>
      cases h
      have hrange := (Option.filter_eq_some_iff.1 hm).2
      exact ⟨hpos, of_decide_eq_true hrange⟩
    · cases h
  · next hm =>
    split at h
    · next hall =>
      cases h
      exact ⟨hne, hm, hall⟩
    · cases h

theorem readField_of_target {f : ProfileField} (hf : f.Legible) (hp : p.target = f.key) :
    readField tag p = .ok f := by
  cases f with
  | core name =>
    obtain ⟨-, hread, hall⟩ := hf
    have hp' : p.target = name := hp
    simp [readField, hp', hread, hall]
  | custom id =>
    have hread : readInt64? p.target.toList = some id := by
      rw [hp]
      show readInt64? (integerText id).toList = _
      rw [integerText, String.toList_ofList, readInt64?_integerChars hf.2]
    simp only [readField, hread, hf.1, if_true]

end Reading

def added {α : Type} (stem : String) (write : α → String) : Option α → List (String × String)
  | none => []
  | some a => [(stem, write a)]

theorem mem_added_iff {α : Type} {stem s v : String} {write : α → String} {x : Option α} :
    (s, v) ∈ added stem write x ↔ s = stem ∧ ∃ a, x = some a ∧ write a = v := by
  cases x with
  | none => simp [added]
  | some a =>
    simp only [added, List.mem_singleton, Prod.mk.injEq, Option.some.injEq, exists_eq_left']
    exact and_congr_right fun _ => eq_comm

theorem exists_readOption {α : Type} (read : Parameter → Except Error α) (write : α → String)
    (os : List Parameter) (stem target : String)
    (h : ∀ q, option? os stem target = some q → ∃ a, read q = .ok a ∧ write a = q.value) :
    ∃ x, readOption read os stem target = .ok x ∧ ∀ s v, (s, v) ∈ added stem write x ↔
      s = stem ∧ ∃ q, option? os s target = some q ∧ q.value = v := by
  unfold readOption
  cases hq : option? os stem target with
  | none =>
    refine ⟨none, rfl, fun s v => ?_⟩
    rw [mem_added_iff]
    refine and_congr_right fun hs => ?_
    rw [hs, hq]
    simp
  | some q =>
    obtain ⟨a, ha, hwrite⟩ := h q hq
    dsimp only
    rw [ha]
    refine ⟨some a, rfl, fun s v => ?_⟩
    rw [mem_added_iff]
    refine and_congr_right fun hs => ?_
    rw [hs, hq]
    simp [hwrite]

namespace Form

def activities : Form ActivityCondition :=
  ⟨"module", fun c => c.activity.text,
    fun c => added "bydate" (fun t => integerText t.seconds) c.byDate⟩

def courses : Form CourseCondition :=
  ⟨"course", fun c => c.course.text, fun c =>
    added "grade" Binary64.text c.minGrade ++
      added "bydate" (fun t => integerText t.seconds) c.byDate⟩

def names {γ : Type} (stem : String) (text : γ → String) : Form γ := ⟨stem, text, fun _ => []⟩

theorem integerText_ne_empty (n : Int) : integerText n ≠ "" := by
  intro h
  have hnil : integerChars n = [] := by
    have hlist := congrArg String.toList h
    rwa [integerText, String.toList_ofList] at hlist
  cases n with
  | ofNat n => exact digits_ne_nil n hnil
  | negSucc n => cases hnil

theorem fits_activities : activities.Fits .activity fun c => IsIdentity c.activity.val where
  stem_eq := rfl
  target_ne {c} _ := integerText_ne_empty c.activity.val
  option_mem {c o} _ ho := by
    obtain ⟨s, v⟩ := o
    rw [(mem_added_iff.1 ho).1]
    exact List.mem_singleton.2 rfl

theorem fits_courses {tag : Tag} (h : tag = .course ∨ tag = .courseSet) :
    courses.Fits tag CourseCondition.Legible where
  stem_eq := by
    rcases h with rfl | rfl <;> rfl
  target_ne {c} _ := integerText_ne_empty c.course.val
  option_mem {c o} _ ho := by
    obtain ⟨s, v⟩ := o
    have hs : s = "grade" ∨ s = "bydate" :=
      (List.mem_append.1 ho).imp (fun h => (mem_added_iff.1 h).1) fun h => (mem_added_iff.1 h).1
    rcases h with rfl | rfl <;> simpa [Tag.optionalStems] using hs

theorem fits_names {γ : Type} {tag : Tag} {stem : String} {text : γ → String} {legible : γ → Prop}
    (hstem : tag.requiredStem = some stem) (hne : ∀ {c}, legible c → text c ≠ "") :
    (names stem text).Fits tag legible where
  stem_eq := hstem
  target_ne := hne
  option_mem _ ho := absurd ho List.not_mem_nil

theorem fits_roles : (names "role" integerText).Fits .manual IsIdentity :=
  fits_names rfl fun _ => integerText_ne_empty _

theorem fits_networks :
    (names "social" fun n => n).Fits .social fun n => n ≠ "" ∧ Text.lower n = n :=
  fits_names rfl fun hn => hn.1

theorem fits_fields : (names "field" ProfileField.key).Fits .profile ProfileField.Legible := by
  refine fits_names rfl fun {f} hf => ?_
  cases f with
  | core name => exact hf.1
  | custom id => exact integerText_ne_empty id

theorem readBy_activities :
    activities.ReadBy .activity (fun c => IsIdentity c.activity.val) (readActivity .activity) := by
  intro c os p hc hp hos
  have hid : readIdentity .activity p = .ok c.activity.val := readIdentity_of_target hc hp
  obtain ⟨x, hx, hmem⟩ := exists_readOption (readInstant .activity)
    (fun t : Instant => integerText t.seconds) os "bydate" p.target fun q hq => by
      obtain ⟨d, -, ho⟩ := hos "bydate" q hq
      obtain ⟨-, t, -, ht⟩ := mem_added_iff.1 ho
      exact ⟨t.wholeSeconds, readInstant_of_value ht.symm, ht⟩
  refine ⟨⟨c.activity, x⟩, ?_, hp.symm, fun s v => (hmem s v).trans ?_⟩
  · rw [readActivity, hid, hx]
    rfl
  · simp [Tag.optionalStems]

theorem readBy_courses {tag : Tag} (h : tag = .course ∨ tag = .courseSet) :
    courses.ReadBy tag CourseCondition.Legible (readCourse tag) := by
  intro c os p hc hp hos
  have hid : readIdentity tag p = .ok c.course.val := readIdentity_of_target hc.1 hp
  obtain ⟨g, hg, hmemg⟩ := exists_readOption (readGrade tag) Binary64.text os "grade" p.target
    fun q hq => by
      obtain ⟨d, hd, ho⟩ := hos "grade" q hq
      rcases List.mem_append.1 ho with ho | ho
      · obtain ⟨-, g, hg, htext⟩ := mem_added_iff.1 ho
        exact ⟨g, readGrade_of_value (hd.2 g hg) htext.symm, htext⟩
      · exact absurd (mem_added_iff.1 ho).1 (by decide)
  obtain ⟨x, hx, hmemx⟩ := exists_readOption (readInstant tag)
    (fun t : Instant => integerText t.seconds) os "bydate" p.target fun q hq => by
      obtain ⟨d, -, ho⟩ := hos "bydate" q hq
      rcases List.mem_append.1 ho with ho | ho
      · exact absurd (mem_added_iff.1 ho).1 (by decide)
      · obtain ⟨-, t, -, ht⟩ := mem_added_iff.1 ho
        exact ⟨t.wholeSeconds, readInstant_of_value ht.symm, ht⟩
  have hstems : tag.optionalStems = ["grade", "bydate"] := by
    rcases h with rfl | rfl <;> rfl
  refine ⟨⟨c.course, g, x⟩, ?_, hp.symm, fun s v => ?_⟩
  · rw [readCourse, hid, hg, hx]
    rfl
  · show (s, v) ∈ added "grade" Binary64.text g ++ added "bydate" _ x ↔ _
    rw [List.mem_append, hmemg, hmemx, hstems, ← or_and_right]
    simp

theorem readBy_names {γ : Type} {tag : Tag} {stem : String} {text : γ → String} {legible : γ → Prop}
    {read : Parameter → Except Error γ} (hnone : tag.optionalStems = [])
    (h : ∀ {c p}, legible c → p.target = text c → read p = .ok c) :
    (names stem text).ReadBy tag legible fun _ p => read p := by
  intro c os p hc hp _
  refine ⟨c, h hc hp, hp.symm, fun s v => ?_⟩
  rw [hnone]
  simp [names]

theorem readBy_roles :
    (names "role" integerText).ReadBy .manual IsIdentity fun _ p => readIdentity .manual p :=
  readBy_names rfl fun hn hp => readIdentity_of_target hn hp

theorem readBy_networks : (names "social" fun n => n).ReadBy .social
    (fun n => n ≠ "" ∧ Text.lower n = n) fun _ p => .ok (Text.lower p.target) := by
  refine readBy_names rfl fun {n p} hn hp => ?_
  have htarget : p.target = n := hp
  rw [htarget, hn.2]

theorem readBy_fields : (names "field" ProfileField.key).ReadBy .profile ProfileField.Legible
    fun _ p => readField .profile p :=
  readBy_names rfl fun hf hp => readField_of_target hf hp

/-- Parameters that were written in a form are sorted into required and optional ones, and the
required ones are read as things that are written alike, in the order of their targets. -/
theorem exists_read {γ : Type} {F : Form γ} {tag : Tag} {legible : γ → Prop} {cs : List γ}
    {read : List Parameter → Parameter → Except Error γ} (hF : F.Fits tag legible)
    (hR : F.ReadBy tag legible read) (hcs : ∀ c ∈ cs, legible c) :
    ∃ ps os cs', Kind.ofParams tag (F.register cs) = readConditions tag ps os ∧
      ps = requireds tag (F.register cs) ∧ ps.mapM (read os) = .ok cs' ∧
      cs'.length = ps.length ∧ F.register cs' = F.register cs ∧ F.Ascending cs' := by
  obtain ⟨cs', hcs', hlength, hregister⟩ := hF.mapM_read hcs hR
  exact ⟨_, _, cs', ofParams_eq (hF.named hcs) (hF.matched hcs), rfl, hcs', hlength, hregister,
    hF.ascending_of_mapM_read hcs hR hcs'⟩

end Form

section Kinds

open Form

theorem ActivityCondition.params_eq (c : ActivityCondition) : c.params = activities.params c := by
  obtain ⟨activity, byDate⟩ := c
  cases byDate <;> rfl

theorem CourseCondition.params_eq (c : CourseCondition) : c.params = courses.params c := by
  obtain ⟨course, minGrade, byDate⟩ := c
  cases minGrade <;> cases byDate <;> rfl

theorem Kind.params_activity (cs : List ActivityCondition) :
    (Kind.activity cs).params = activities.register cs := by
  simp only [Kind.params, Kind.paramList, register, ActivityCondition.params_eq]

theorem Kind.params_courseSet (cs : List CourseCondition) :
    (Kind.courseSet cs).params = courses.register cs := by
  simp only [Kind.params, Kind.paramList, register, CourseCondition.params_eq]

theorem Kind.params_course (c : CourseCondition) :
    (Kind.course c).params = courses.register [c] := by
  simp only [Kind.params, Kind.paramList, register, CourseCondition.params_eq, List.flatMap_cons,
    List.flatMap_nil, List.append_nil]

theorem register_names {γ : Type} (stem : String) (text : γ → String) (cs : List γ) :
    (names stem text).register cs =
      .ofList (cs.map fun c => (paramName stem (text c), text c)) := by
  rw [register]
  congr 1
  exact List.flatMap_pure_eq_map _ cs

theorem Kind.params_manual (rs : List RoleId) :
    (Kind.manual rs).params = (names "role" integerText).register (rs.map (·.val)) := by
  rw [register_names, List.map_map]
  rfl

theorem Kind.params_social (ns : List String) :
    (Kind.social ns).params = (names "social" fun n => n).register ns := by
  rw [register_names]
  rfl

theorem Kind.params_profile (fs : List ProfileField) :
    (Kind.profile fs).params = (names "field" ProfileField.key).register fs := by
  rw [register_names]
  rfl

theorem Kind.Ascending.consistent {k : Kind} (h : k.Ascending) : k.Consistent := by
  cases k with
  | activity cs =>
    have hcs : activities.Ascending cs := h
    exact fun c hc d hd hcd => hcs.consistent c hc d hd (congrArg Ident.text hcd)
  | courseSet cs =>
    have hcs : courses.Ascending cs := h
    exact fun c hc d hd hcd => hcs.consistent c hc d hd (congrArg Ident.text hcd)
  | _ => trivial

theorem tag_of_readConditions {tag : Tag} {ps os : List Parameter} {k : Kind}
    (h : readConditions tag ps os = .ok k) : k.tag = tag := by
  cases tag with
  | overall | social =>
    cases h
    rfl
  | activity | manual | courseSet | profile =>
    obtain ⟨cs, -, rfl⟩ := map_eq_ok_iff.1 h
    rfl
  | course =>
    simp only [readConditions] at h
    split at h
    · cases h
    · cases h
      rfl
    · cases h

theorem isIdentity_of_readActivity {tag : Tag} {os : List Parameter} {p : Parameter}
    {c : ActivityCondition} (h : readActivity tag os p = .ok c) : IsIdentity c.activity.val := by
  obtain ⟨n, hn, h⟩ := bind_eq_ok_iff.1 h
  obtain ⟨t, -, h⟩ := bind_eq_ok_iff.1 h
  cases h
  exact isIdentity_of_readIdentity hn

theorem legible_of_readCourse {tag : Tag} {os : List Parameter} {p : Parameter}
    {c : CourseCondition} (h : readCourse tag os p = .ok c) : c.Legible := by
  obtain ⟨n, hn, h⟩ := bind_eq_ok_iff.1 h
  obtain ⟨g, hg, h⟩ := bind_eq_ok_iff.1 h
  obtain ⟨t, -, h⟩ := bind_eq_ok_iff.1 h
  cases h
  refine ⟨isIdentity_of_readIdentity hn, fun g' hg' => ?_⟩
  dsimp only at hg'
  subst hg'
  unfold readOption at hg
  split at hg
  · cases hg
  · obtain ⟨g'', hread, heq⟩ := map_eq_ok_iff.1 hg
    cases heq
    exact isGrade_of_readGrade hread

theorem legible_of_readConditions {tag : Tag} {ps os : List Parameter} {k : Kind}
    (hps : ∀ p ∈ ps, p.target ≠ "") (h : readConditions tag ps os = .ok k) : k.Legible := by
  cases tag with
  | overall =>
    cases h
    trivial
  | activity =>
    obtain ⟨cs, hcs, rfl⟩ := map_eq_ok_iff.1 h
    intro c hc
    obtain ⟨p, -, hp⟩ := forall₂_mem_right (mapM_eq_ok_iff.1 hcs) hc
    exact isIdentity_of_readActivity hp
  | manual =>
    obtain ⟨ns, hns, rfl⟩ := map_eq_ok_iff.1 h
    intro r hr
    obtain ⟨n, hn, rfl⟩ := List.mem_map.1 hr
    obtain ⟨p, -, hp⟩ := forall₂_mem_right (mapM_eq_ok_iff.1 hns) hn
    exact isIdentity_of_readIdentity hp
  | social =>
    cases h
    intro n hn
    obtain ⟨p, hp, rfl⟩ := List.mem_map.1 hn
    refine ⟨fun hempty => hps p hp ?_, Text.lower_lower _⟩
    have hlist := congrArg String.toList hempty
    rw [Text.lower, String.toList_ofList] at hlist
    exact String.toList_eq_nil_iff.1 (List.map_eq_nil_iff.1 hlist)
  | courseSet =>
    obtain ⟨cs, hcs, rfl⟩ := map_eq_ok_iff.1 h
    intro c hc
    obtain ⟨p, -, hp⟩ := forall₂_mem_right (mapM_eq_ok_iff.1 hcs) hc
    exact legible_of_readCourse hp
  | profile =>
    obtain ⟨fs, hfs, rfl⟩ := map_eq_ok_iff.1 h
    intro f hf
    obtain ⟨p, hp, hread⟩ := forall₂_mem_right (mapM_eq_ok_iff.1 hfs) hf
    exact legible_of_readField (hps p hp) hread
  | course =>
    simp only [readConditions] at h
    split at h
    · cases h
    · next c hcs =>
      cases h
      obtain ⟨p, -, hp⟩ := forall₂_mem_right (mapM_eq_ok_iff.1 hcs) List.mem_cons_self
      exact legible_of_readCourse hp
    · cases h

theorem target_ne_of_read {tag : Tag} {name value : String} {p : Parameter}
    (h : Parameter.read tag name value = .ok p) : p.target ≠ "" := by
  unfold Parameter.read at h
  split at h
  · cases h
  · next stem target hsplit =>
    split at h
    · cases h
      unfold splitName? at hsplit
      dsimp only at hsplit
      split at hsplit
      · cases hsplit
      · next hne =>
        cases hsplit
        intro hempty
        have hlist := congrArg String.toList hempty
        rw [String.toList_ofList] at hlist
        exact hne (.inr hlist)
    · cases h

theorem legible_of_ofParams {tag : Tag} {r : Register String String} {k : Kind}
    (h : Kind.ofParams tag r = .ok k) : k.tag = tag ∧ k.Legible := by
  obtain ⟨ps, hps, h⟩ := bind_eq_ok_iff.1 h
  rw [List.partition_eq_filter_filter] at h
  dsimp only at h
  split at h
  · cases h
  · refine ⟨tag_of_readConditions h, legible_of_readConditions (fun p hp => ?_) h⟩
    obtain ⟨e, -, he⟩ := forall₂_mem_right (mapM_eq_ok_iff.1 hps) (List.mem_of_mem_filter hp)
    exact target_ne_of_read he

/-- Legible conditions are read back from their parameters, and they are written as they were and
in the order of their targets. -/
theorem Kind.ofParams_params {k : Kind} (h : k.Legible) :
    ∃ k', Kind.ofParams k.tag k.params = .ok k' ∧ k'.params = k.params ∧ k'.Ascending := by
  cases k with
  | overall => exact ⟨.overall, rfl, rfl, .nil⟩
  | activity cs =>
    obtain ⟨ps, os, cs', heq, -, hcs', -, hregister, hascending⟩ := exists_read fits_activities
      readBy_activities h
    refine ⟨.activity cs', ?_, ?_, hascending⟩
    · rw [params_activity]
      exact heq.trans (by rw [readConditions, hcs']; rfl)
    · rw [params_activity, params_activity, hregister]
  | manual rs =>
    have hrs : ∀ n ∈ rs.map (·.val), IsIdentity n := fun n hn => by
      obtain ⟨r, hr, rfl⟩ := List.mem_map.1 hn
      exact h r hr
    obtain ⟨ps, os, ns, heq, -, hns, -, hregister, hascending⟩ := exists_read fits_roles
      readBy_roles hrs
    refine ⟨.manual (ns.map (⟨·⟩)), ?_, ?_, ?_⟩
    · rw [params_manual]
      exact heq.trans (by rw [readConditions, hns]; rfl)
    · rw [params_manual, params_manual, ← hregister, List.map_map]
      congr 1
      exact List.map_id ns
    · rw [Kind.Ascending, Kind.targets, List.map_map]
      exact hascending
  | social ns =>
    obtain ⟨ps, os, ns', heq, -, hns, -, hregister, hascending⟩ := exists_read fits_networks
      readBy_networks h
    refine ⟨.social ns', ?_, ?_, List.map_id ns' ▸ hascending⟩
    · rw [params_social]
      have hlower : ps.mapM (fun p => .ok (Text.lower p.target)) =
          (.ok (ps.map fun p => Text.lower p.target) : Except Error (List String)) :=
        mapM_eq_ok_map fun _ _ => rfl
      cases hns.symm.trans hlower
      exact heq
    · rw [params_social, params_social, hregister]
  | course c =>
    have hcs : ∀ d ∈ [c], d.Legible := fun d hd => List.mem_singleton.1 hd ▸ h
    have hF : courses.Fits .course CourseCondition.Legible := fits_courses (.inl rfl)
    obtain ⟨ps, os, cs', heq, hps, hcs', hlength, hregister, -⟩ := exists_read hF
      (readBy_courses (.inl rfl)) hcs
    -- A course is read only if there is one required parameter, whatever was asked of the course.
    have hone : cs'.length = 1 := by rw [hlength, hps, hF.length_requireds h]
    obtain ⟨c', rfl⟩ := List.length_eq_one_iff.1 hone
    refine ⟨.course c', ?_, ?_, List.pairwise_singleton _ _⟩
    · rw [params_course]
      exact heq.trans (by rw [readConditions, hcs'])
    · rw [params_course, params_course, hregister]
  | courseSet cs =>
    obtain ⟨ps, os, cs', heq, -, hcs', -, hregister, hascending⟩ :=
      exists_read (fits_courses (.inr rfl)) (readBy_courses (.inr rfl)) h
    refine ⟨.courseSet cs', ?_, ?_, hascending⟩
    · rw [params_courseSet]
      exact heq.trans (by rw [readConditions, hcs']; rfl)
    · rw [params_courseSet, params_courseSet, hregister]
  | profile fs =>
    obtain ⟨ps, os, fs', heq, -, hfs, -, hregister, hascending⟩ := exists_read fits_fields
      readBy_fields h
    refine ⟨.profile fs', ?_, ?_, hascending⟩
    · rw [params_profile]
      exact heq.trans (by rw [readConditions, hfs]; rfl)
    · rw [params_profile, params_profile, hregister]

end Kinds

theorem Tag.parse_name (t : Tag) : Tag.parse t.name = .ok t := by
  cases t <;> decide

theorem Tag.parse_codeText (t : Tag) : Tag.parse t.codeText = .ok t := by
  cases t <;> decide

/-- The criterion that the record of a criterion builds. -/
def rebuild (c : Criterion) : Except Error Criterion := ofRecord c.id c.badge c.toRecord

def Kind.rebuilt (k : Kind) : Kind :=
  match Kind.ofParams k.tag k.params with
  | .ok k' => k'
  | .error _ => k

def rebuilt (c : Criterion) : Criterion := { c with kind := c.kind.rebuilt }

theorem Kind.ofParams_eq_rebuilt {k : Kind} (h : k.Legible) :
    Kind.ofParams k.tag k.params = .ok k.rebuilt := by
  obtain ⟨k', hk', -⟩ := Kind.ofParams_params h
  simp only [rebuilt, hk']

theorem Kind.rebuilt_spec {k : Kind} (h : k.Legible) :
    k.rebuilt.tag = k.tag ∧ k.rebuilt.params = k.params ∧ k.rebuilt.Legible := by
  obtain ⟨k', hk', hparams, -⟩ := Kind.ofParams_params h
  have heq : k.rebuilt = k' := by simp only [rebuilt, hk']
  obtain ⟨htag, hlegible⟩ := legible_of_ofParams hk'
  rw [heq]
  exact ⟨htag, hparams, hlegible⟩

theorem Kind.ascending_rebuilt {k : Kind} (h : k.Legible) : k.rebuilt.Ascending := by
  obtain ⟨k', hk', -, hascending⟩ := Kind.ofParams_params h
  simp only [rebuilt, hk']
  exact hascending

theorem Kind.consistent_rebuilt {k : Kind} (h : k.Legible) : k.rebuilt.Consistent :=
  (Kind.ascending_rebuilt h).consistent

theorem Kind.rebuilt_rebuilt {k : Kind} (h : k.Legible) : k.rebuilt.rebuilt = k.rebuilt := by
  obtain ⟨htag, hparams, hlegible⟩ := Kind.rebuilt_spec h
  have hagain := Kind.ofParams_eq_rebuilt hlegible
  rw [htag, hparams, Kind.ofParams_eq_rebuilt h, Except.ok.injEq] at hagain
  exact hagain.symm

variable {c : Criterion}

/-- A legible criterion is rebuilt from any record that gives its type and its parameters. -/
theorem ofRecord_of_params (h : c.kind.Legible) {type : String}
    (htype : Tag.parse type = .ok c.tag) :
    ofRecord c.id c.badge ⟨type, c.method, c.description, c.kind.params⟩ = .ok c.rebuilt :=
  ofRecord_eq_ok_iff.2 ⟨c.tag, c.kind.rebuilt, htype, Kind.ofParams_eq_rebuilt h, rfl⟩

theorem rebuild_eq (h : c.kind.Legible) : c.rebuild = .ok c.rebuilt :=
  ofRecord_of_params h (Tag.parse_name c.tag)

theorem rebuilt_rebuilt (h : c.kind.Legible) : c.rebuilt.rebuilt = c.rebuilt := by
  simp only [rebuilt, Kind.rebuilt_rebuilt h]

theorem isOverall_rebuilt (h : c.kind.Legible) : c.rebuilt.isOverall = c.isOverall := by
  have htag : c.rebuilt.tag = c.tag := (Kind.rebuilt_spec h).1
  rw [isOverall, isOverall, htag]

theorem legible_of_ofRecord {id : CriterionId} {badge : BadgeId} {r : Record}
    (h : ofRecord id badge r = .ok c) : c.kind.Legible := by
  obtain ⟨tag, kind, -, hkind, rfl⟩ := ofRecord_eq_ok_iff.1 h
  exact (legible_of_ofParams hkind).2

end Criterion

end Badging
