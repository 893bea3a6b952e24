import Badging.Proofs.Criterion.Naming

/-!
# The grammar of parameters

What the parameters of a type may be is said here of the texts alone: which names there may be,
which target texts stand for something, and which values. The order in which faults are looked for
is a matter of reading, which comes into this only through the readers of single texts: each of them
gives what its text stands for, and is refused where the text stands for nothing.

A kind is made of targets (`Kind.MadeOf`) if it has one entry for each of them, in this order, which
carries what the parameters say about the same target text.
-/

namespace Badging

namespace Criterion

open Number

/-- There is a parameter with a stem about a target. -/
def Given (r : Register String String) (stem target value : String) : Prop :=
  target ≠ "" ∧ r.get? (paramName stem target) = some value

/-- The targets of the required parameters, in ascending order. -/
def RequiredTargets (tag : Tag) (r : Register String String) (ts : List String) : Prop :=
  ts.Pairwise (· < ·) ∧
    ∀ t, t ∈ ts ↔ ∃ stem value, tag.requiredStem = some stem ∧ Given r stem t value

/-- A text that stands for an identity. -/
def NamesIdentity (text : String) (n : Int) : Prop := readInt64? text.toList = some n ∧ 0 < n

def FieldChar (c : Char) : Prop := 'a' ≤ c ∧ c ≤ 'z' ∨ '0' ≤ c ∧ c ≤ '9' ∨ c = '_'

/-- A text that stands for a profile field. -/
def NamesField (text : String) : ProfileField → Prop
  | .custom n => NamesIdentity text n
  | .core name => name = text ∧ readInt64? text.toList = none ∧ ∀ c ∈ text.toList, FieldChar c

/-- A value that stands for a cutoff, which is a whole second. -/
def SaysCutoff (value : String) (t : Instant) : Prop :=
  readInt64? (Text.trimChars value.toList) = some t.seconds ∧ t.nanos = 0

def SaysGrade (value : String) (g : Binary64) : Prop :=
  Binary64.read? (Text.trimChars value.toList) = some g ∧ g.isFinite = true ∧
    Binary64.le .zero g = true

/-- The parameters of a type as they have to be. -/
structure Grammar (tag : Tag) (r : Register String String) : Prop where
  named : ∀ name value, r.get? name = some value →
    ∃ stem target, tag.Allows stem ∧ target ≠ "" ∧ name = paramName stem target
  matched : ∀ stem target value, stem ∈ tag.optionalStems → Given r stem target value →
    ∃ required v, tag.requiredStem = some required ∧ Given r required target v
  identity : tag ≠ .social → tag ≠ .profile → ∀ stem target value, tag.requiredStem = some stem →
    Given r stem target value → ∃ n, readInt64? target.toList = some n ∧ 0 < n
  field : tag = .profile → ∀ target value, Given r "field" target value →
    (∃ n, readInt64? target.toList = some n ∧ 0 < n) ∨
      readInt64? target.toList = none ∧ ∀ c ∈ target.toList, FieldChar c
  cutoff : ∀ target value, Given r "bydate" target value →
    ∃ n, readInt64? (Text.trimChars value.toList) = some n ∧
      Instant.firstSecond ≤ n ∧ n ≤ Instant.lastSecond
  grade : ∀ target value, Given r "grade" target value →
    ∃ g, Binary64.read? (Text.trimChars value.toList) = some g ∧ g.isFinite = true ∧
      Binary64.le .zero g = true
  single : tag = .course → ∃ target, ∀ t, (∃ value, Given r "course" t value) ↔ t = target

/-- A condition on an activity with what the parameters say about its target. -/
structure ActivityCondition.Of (r : Register String String) (target : String)
    (c : ActivityCondition) : Prop where
  activity : NamesIdentity target c.activity.val
  byDate : Option.Rel SaysCutoff (r.get? (paramName "bydate" target)) c.byDate

/-- A condition on a course with what the parameters say about its target. -/
structure CourseCondition.Of (r : Register String String) (target : String)
    (c : CourseCondition) : Prop where
  course : NamesIdentity target c.course.val
  minGrade : Option.Rel SaysGrade (r.get? (paramName "grade" target)) c.minGrade
  byDate : Option.Rel SaysCutoff (r.get? (paramName "bydate" target)) c.byDate

/-- A kind with one entry for each target. -/
def Kind.MadeOf (r : Register String String) (targets : List String) : Kind → Prop
  | .overall => targets = []
  | .activity cs => List.Forall₂ (ActivityCondition.Of r) targets cs
  | .manual rs => List.Forall₂ (fun target role => NamesIdentity target role.val) targets rs
  | .social ns => ns = targets.map Text.lower
  | .course c => List.Forall₂ (CourseCondition.Of r) targets [c]
  | .courseSet cs => List.Forall₂ (CourseCondition.Of r) targets cs
  | .profile fs => List.Forall₂ NamesField targets fs

/-- What a fault says of the parameter with a name is so. -/
def Fault.Describes (tag : Tag) (r : Register String String) (name : String) : Fault → Prop
  | .notStemAndTarget => (∃ value, r.get? name = some value) ∧
      ∀ stem target, IsStem stem → target ≠ "" → name ≠ paramName stem target
  | .notRecognised => (∃ value, r.get? name = some value) ∧
      ∃ stem target, IsStem stem ∧ target ≠ "" ∧ name = paramName stem target ∧ ¬ tag.Allows stem
  | .unmatched target => ∃ stem ∈ tag.optionalStems, name = paramName stem target ∧
      (∃ value, Given r stem target value) ∧
      ∀ required value, tag.requiredStem = some required → ¬ Given r required target value
  | .notAnIdentity target => tag ≠ .social ∧ tag ≠ .profile ∧
      ∃ stem, tag.requiredStem = some stem ∧ name = paramName stem target ∧
        (∃ value, Given r stem target value) ∧ ∀ n, ¬ NamesIdentity target n
  | .notAnInstant value => ∃ target, name = paramName "bydate" target ∧
      Given r "bydate" target value ∧ ∀ t, ¬ SaysCutoff value t
  | .notAGrade value => ∃ target, name = paramName "grade" target ∧
      Given r "grade" target value ∧ ∀ g, ¬ SaysGrade value g
  | .notAFieldIdentity target => tag = .profile ∧ name = paramName "field" target ∧
      (∃ value, Given r "field" target value) ∧ ∃ n, readInt64? target.toList = some n ∧ n ≤ 0
  | .notAFieldName target => tag = .profile ∧ name = paramName "field" target ∧
      (∃ value, Given r "field" target value) ∧ readInt64? target.toList = none ∧
      ∃ c ∈ target.toList, ¬ FieldChar c
  | .notOneCourse found => tag = .course ∧ name = "course" ∧ found ≠ 1 ∧
      ∃ targets : List String, targets.Nodup ∧ targets.length = found ∧
        ∀ t, t ∈ targets ↔ ∃ value, Given r "course" t value

section

variable {tag : Tag} {r : Register String String} {stem target value name : String}

theorem exists_saysCutoff_iff : (∃ t, SaysCutoff value t) ↔
    ∃ n, readInt64? (Text.trimChars value.toList) = some n ∧
      Instant.firstSecond ≤ n ∧ n ≤ Instant.lastSecond := by
  constructor
  · rintro ⟨t, ht, -⟩
    exact ⟨t.seconds, ht, t.first_le, t.le_last⟩
  · rintro ⟨n, hn, hfirst, hlast⟩
    exact ⟨⟨n, 0, hfirst, hlast, by omega, by omega⟩, hn, rfl⟩

theorem exists_namesField_iff : (∃ f, NamesField target f) ↔
    (∃ n, readInt64? target.toList = some n ∧ 0 < n) ∨
      readInt64? target.toList = none ∧ ∀ c ∈ target.toList, FieldChar c := by
  constructor
  · rintro ⟨name | n, hf⟩
    · exact .inr hf.2
    · exact .inl ⟨n, hf⟩
  · rintro (⟨n, hn⟩ | h)
    · exact ⟨.custom n, hn⟩
    · exact ⟨.core target, rfl, h⟩

theorem Fault.Describes.not_grammar {fault : Fault} (h : fault.Describes tag r name) :
    ¬ Grammar tag r := by
  intro hr
  cases fault with
  | notStemAndTarget =>
    obtain ⟨⟨value, hvalue⟩, hnot⟩ := h
    obtain ⟨stem, target, hallows, htarget, hname⟩ := hr.named name value hvalue
    exact hnot stem target hallows.isStem htarget hname
  | notRecognised =>
    obtain ⟨⟨value, hvalue⟩, stem, target, hstem, htarget, rfl, hnot⟩ := h
    obtain ⟨stem', target', hallows, htarget', hname⟩ := hr.named _ value hvalue
    obtain ⟨rfl, -⟩ := paramName_inj hstem hallows.isStem htarget htarget' hname
    exact hnot hallows
  | unmatched target =>
    obtain ⟨stem, hstem, -, ⟨value, hvalue⟩, hnot⟩ := h
    obtain ⟨required, v, hrequired, hv⟩ := hr.matched stem target value hstem hvalue
    exact hnot required v hrequired hv
  | notAnIdentity target =>
    obtain ⟨hsocial, hprofile, stem, hstem, -, ⟨value, hvalue⟩, hnot⟩ := h
    obtain ⟨n, hn⟩ := hr.identity hsocial hprofile stem target value hstem hvalue
    exact hnot n hn
  | notAnInstant value =>
    obtain ⟨target, -, hvalue, hnot⟩ := h
    obtain ⟨t, ht⟩ := exists_saysCutoff_iff.2 (hr.cutoff target value hvalue)
    exact hnot t ht
  | notAGrade value =>
    obtain ⟨target, -, hvalue, hnot⟩ := h
    obtain ⟨g, hg⟩ := hr.grade target value hvalue
    exact hnot g hg
  | notAFieldIdentity target =>
    obtain ⟨htag, -, ⟨value, hvalue⟩, n, hn, hle⟩ := h
    rcases hr.field htag target value hvalue with ⟨m, hm, hpos⟩ | ⟨hnone, -⟩
    · rw [hn, Option.some.injEq] at hm
      omega
    · rw [hn] at hnone
      cases hnone
  | notAFieldName target =>
    obtain ⟨htag, -, ⟨value, hvalue⟩, hnone, c, hc, hnot⟩ := h
    rcases hr.field htag target value hvalue with ⟨m, hm, -⟩ | ⟨-, hall⟩
    · rw [hnone] at hm
      cases hm
    · exact hnot (hall c hc)
  | notOneCourse found =>
    obtain ⟨htag, -, hfound, targets, hnodup, hlength, hmem⟩ := h
    obtain ⟨target, htarget⟩ := hr.single htag
    -- The targets that were counted are those of courses, of which the grammar has one.
    have hperm : targets.Perm [target] := (List.perm_ext_iff_of_nodup hnodup (by simp)).2
      fun t => by rw [hmem, htarget, List.mem_singleton]
    exact hfound (hlength.symm.trans hperm.length_eq)

end

section Readers

variable {tag : Tag} {p : Parameter}

theorem readIdentity_eq_ok_iff {n : Int} :
    readIdentity tag p = .ok n ↔ NamesIdentity p.target n := by
  unfold readIdentity NamesIdentity
  cases readInt64? p.target.toList with
  | none => simp
  | some m =>
    dsimp only
    rw [ite_eq_ok_iff, Option.some.injEq]
    constructor
    · rintro ⟨hpos, rfl⟩
      exact ⟨rfl, hpos⟩
    · rintro ⟨rfl, hpos⟩
      exact ⟨hpos, rfl⟩

theorem error_of_readIdentity {e : Error} (h : readIdentity tag p = .error e) :
    e = .invalidParameter tag p.name (.notAnIdentity p.target) := by
  unfold readIdentity at h
  split at h
  · split at h
    · cases h
    · cases h
      rfl
  · cases h
    rfl

theorem readInstant_eq_ok_iff {t : Instant} : readInstant tag p = .ok t ↔ SaysCutoff p.value t := by
  have hread : readInstant tag p = .ok t ↔
      (readInt64? (Text.trimChars p.value.toList)).bind Instant.ofSeconds? = some t := by
    unfold readInstant
    split
    · next u hu => rw [hu, Except.ok.injEq, Option.some.injEq]
    · next hnone => simp [hnone]
  rw [hread, Option.bind_eq_some_iff, SaysCutoff]
  constructor
  · rintro ⟨n, hn, ht⟩
    obtain ⟨rfl, hnanos⟩ := Instant.make?_eq_some.1 ht
    exact ⟨hn, hnanos⟩
  · rintro ⟨hn, hnanos⟩
    exact ⟨t.seconds, hn, Instant.make?_eq_some.2 ⟨rfl, hnanos⟩⟩

theorem error_of_readInstant {e : Error} (h : readInstant tag p = .error e) :
    e = .invalidParameter tag p.name (.notAnInstant p.value) := by
  unfold readInstant at h
  split at h
  · cases h
  · cases h
    rfl

theorem readGrade_eq_ok_iff {g : Binary64} : readGrade tag p = .ok g ↔ SaysGrade p.value g := by
  have hread : readGrade tag p = .ok g ↔
      (Binary64.read? (Text.trimChars p.value.toList)).filter (·.isGrade) = some g := by
    unfold readGrade
    split
    · next u hu => rw [hu, Except.ok.injEq, Option.some.injEq]
    · next hnone => simp [hnone]
  rw [hread, Option.filter_eq_some_iff, Binary64.isGrade, Bool.and_eq_true]
  exact Iff.rfl

theorem error_of_readGrade {e : Error} (h : readGrade tag p = .error e) :
    e = .invalidParameter tag p.name (.notAGrade p.value) := by
  unfold readGrade at h
  split at h
  · cases h
  · cases h
    rfl

theorem isFieldChar_iff {c : Char} : isFieldChar c = true ↔ FieldChar c := by
  have hlower : c.isLower = (decide ('a' ≤ c) && decide (c ≤ 'z')) := rfl
  have hdigit : c.isDigit = (decide ('0' ≤ c) && decide (c ≤ '9')) := rfl
  simp only [isFieldChar, FieldChar, hlower, hdigit, Bool.or_eq_true, Bool.and_eq_true,
    decide_eq_true_eq, beq_iff_eq, or_assoc]

theorem readField_eq_ok_iff {f : ProfileField} :
    readField tag p = .ok f ↔ NamesField p.target f := by
  unfold readField
  cases hread : readInt64? p.target.toList with
  | none =>
    dsimp only
    rw [ite_eq_ok_iff]
    cases f with
    | core name =>
      simp only [NamesField, hread, true_and, List.all_eq_true, isFieldChar_iff,
        ProfileField.core.injEq]
      rw [and_comm, eq_comm]
    | custom m => simp [NamesField, NamesIdentity, hread]
  | some n =>
    dsimp only
    rw [ite_eq_ok_iff]
    cases f with
    | core name => simp [NamesField, hread]
    | custom m =>
      simp only [NamesField, NamesIdentity, hread, ProfileField.custom.injEq, Option.some.injEq]
      constructor
      · rintro ⟨hpos, rfl⟩
        exact ⟨rfl, hpos⟩
      · rintro ⟨rfl, hpos⟩
        exact ⟨hpos, rfl⟩

/-- A target that is no field is a number that is too small, or has a character that is not one of
a field's name. -/
theorem error_of_readField {e : Error} (h : readField tag p = .error e) :
    (e = .invalidParameter tag p.name (.notAFieldIdentity p.target) ∧
        ∃ n, readInt64? p.target.toList = some n ∧ n ≤ 0) ∨
      (e = .invalidParameter tag p.name (.notAFieldName p.target) ∧
        readInt64? p.target.toList = none ∧ ∃ c ∈ p.target.toList, ¬ FieldChar c) := by
  unfold readField at h
  split at h
  · next n hn =>
    split at h
    · cases h
    · next hpos =>
      cases h
      exact .inl ⟨rfl, n, hn, by omega⟩
  · next hnone =>
    split at h
    · cases h
    · next hall =>
      cases h
      simp only [List.all_eq_true, isFieldChar_iff, not_forall] at hall
      obtain ⟨c, hc, hnot⟩ := hall
      exact .inr ⟨rfl, hnone, c, hc, hnot⟩

end Readers

end Criterion

end Badging
