import Badging.Document.Criterion
import Badging.Proofs.Document.Codec
import Badging.Proofs.Register
import Badging.Proofs.Time.ReadBack

/-!
# Identities, times, owners, policies and criteria read back

The parts of which the documents consist, each with its codec. Identities and the other whole
numbers are in range within 64 bits. Of a criterion the writer keeps all unless it has a lowest
grade.
-/

namespace Badging

open Json

def Ident.InRange {k : Entity} (a : Ident k) : Prop := Number.InInt64 a.val

instance {k : Entity} (a : Ident k) : Decidable a.InRange :=
  inferInstanceAs (Decidable (Number.InInt64 a.val))

theorem Ident.codec {k : Entity} :
    Codec (Ident.toJson (k := k)) Ident.ofJson? Ident.InRange Any where
  plain a := .int a.val
  reads a ha _ := by
    rw [Ident.toJson, Ident.ofJson?, Codec.int.reads a.val ha trivial, Option.map_some]
  inRange v a h := by
    obtain ⟨n, hn, rfl⟩ := Option.map_eq_some_iff.1 h
    exact Codec.int.inRange v n hn

theorem Instant.codec : Codec Instant.toJson Instant.ofJson? Any Any where
  plain t := .text t.text
  reads t _ _ := by
    simp only [Instant.toJson, Instant.ofJson?, Json.text, text?, Option.bind_some, Instant.text,
      String.toList_ofList, t.read?_chars]
  inRange _ _ _ := trivial

theorem Instant.optionCodec : Codec (.option Instant.toJson) (nullable Instant.ofJson?) Any Any :=
  (Instant.codec.option rfl).any (fun _ _ _ => trivial) fun _ _ _ => trivial

theorem Status.codec : Codec Status.toJson Status.ofJson? Any Any := .label Status.ofLabel?_label

theorem Method.codec : Codec Method.toJson Method.ofJson? Any Any := .label Method.ofLabel?_label

def Owner.InRange : Owner → Prop
  | .site => True
  | .course c => c.InRange

theorem Owner.codec : Codec Owner.toJson Owner.ofJson? Owner.InRange Any where
  plain o := by
    cases o with
    | site => exact .text "site"
    | course c => exact .record (PlainFields.cons (Ident.codec.plain c) .nil)
  reads o ho _ := by
    cases o with
    | site => rfl
    | course c =>
      show (Ident.ofJson? c.toJson).map Owner.course = _
      rw [Ident.codec.reads c ho trivial, Option.map_some]
  inRange v o h := by
    unfold Owner.ofJson? at h
    split at h
    · cases h
      trivial
    · split at h
      · next w hw =>
        obtain ⟨c, hc, rfl⟩ := Option.map_eq_some_iff.1 h
        exact Ident.codec.inRange w c hc
      · cases h

def Expiry.InRange : Expiry → Prop
  | .afterPeriod n => Number.InInt64 n
  | _ => True

theorem Expiry.codec : Codec Expiry.toJson Expiry.ofJson? Expiry.InRange Any where
  plain e := by
    cases e with
    | never => exact .text "never"
    | onDate t => exact .record (PlainFields.cons (Instant.codec.plain t) .nil)
    | afterPeriod n =>
      exact .record (PlainFields.cons (.record (PlainFields.cons (.int n) .nil)) .nil)
  reads e he _ := by
    cases e with
    | never => rfl
    | onDate t =>
      show (Instant.ofJson? t.toJson).map Expiry.onDate = _
      rw [Instant.codec.reads t trivial trivial, Option.map_some]
    | afterPeriod n =>
      show (int64? (.int n)).map Expiry.afterPeriod = _
      rw [Codec.int.reads n he trivial, Option.map_some]
  inRange v e h := by
    unfold Expiry.ofJson? at h
    split at h
    · cases h
      trivial
    · split at h
      · obtain ⟨t, -, rfl⟩ := Option.map_eq_some_iff.1 h
        trivial
      · next p _ =>
        obtain ⟨ms, -, h⟩ := Option.bind_eq_some_iff.1 h
        split at h
        · obtain ⟨n, hn, rfl⟩ := Option.map_eq_some_iff.1 h
          exact Codec.int.required hn
        · cases h
      · cases h

theorem Json.Codec.textMap : Codec Json.ofTextMap Json.textMap? Any Any where
  plain r := .record (List.forall_mem_map.2 fun e _ => .text e.2)
  reads r _ _ := by
    rw [Json.ofTextMap, Json.record, Json.textMap?, List.mapM_map, List.mapM_map]
    refine Option.bind_eq_some_iff.2 ⟨r.entries, ?_, congrArg some (Register.ofList_entries r)⟩
    exact (mapM_eq_some_map (g := id) fun e _ => rfl).trans (congrArg some (List.map_id _))
  inRange _ _ _ := trivial

namespace Criterion

def ProfileField.InRange : ProfileField → Prop
  | .core _ => True
  | .custom id => Number.InInt64 id

theorem ProfileField.codec :
    Codec ProfileField.toJson ProfileField.ofJson? ProfileField.InRange Any where
  plain f := by
    cases f with
    | core name => exact .record (PlainFields.cons (.text name) .nil)
    | custom id => exact .record (PlainFields.cons (.int id) .nil)
  reads f hf _ := by
    cases f with
    | core name => rfl
    | custom id =>
      show (int64? (.int id)).map ProfileField.custom = _
      rw [Codec.int.reads id hf trivial, Option.map_some]
  inRange v f h := by
    unfold ProfileField.ofJson? at h
    split at h
    · obtain ⟨name, -, rfl⟩ := Option.map_eq_some_iff.1 h
      trivial
    · next id _ =>
      obtain ⟨n, hn, rfl⟩ := Option.map_eq_some_iff.1 h
      exact Codec.int.inRange id n hn
    · cases h

def ActivityCondition.InRange (c : ActivityCondition) : Prop := c.activity.InRange

theorem ActivityCondition.codec :
    Codec ActivityCondition.toJson ActivityCondition.ofJson? ActivityCondition.InRange Any where
  plain c := .record (PlainFields.cons (Ident.codec.plain _)
    (.cons (Instant.optionCodec.plain _) .nil))
  reads c hc _ := by
    rw [ActivityCondition.toJson, ActivityCondition.ofJson?, members?_record rfl (by decide)]
    simp only [List.map_cons, List.map_nil, Option.bind_eq_bind, Option.bind_some, required_some,
      optional_some, Ident.codec.reads _ hc trivial, Instant.optionCodec.reads _ trivial trivial]
  inRange v c h := by
    simp only [ActivityCondition.ofJson?, Option.bind_eq_bind, Option.bind_eq_some_iff] at h
    obtain ⟨ms, -, h⟩ := h
    split at h
    · simp only [Option.bind_eq_some_iff] at h
      obtain ⟨activity, hactivity, byDate, -, h⟩ := h
      cases h
      exact Ident.codec.required hactivity
    · cases h

def CourseCondition.InRange (c : CourseCondition) : Prop := c.course.InRange

def CourseCondition.Ungraded (c : CourseCondition) : Prop := c.minGrade = none

theorem CourseCondition.codec : Codec CourseCondition.toJson CourseCondition.ofJson?
    CourseCondition.InRange CourseCondition.Ungraded where
  plain c := by
    have hgrade : Plain (.option Binary64.toJson c.minGrade) := by
      cases c.minGrade with
      | none => exact .null
      | some x => exact .text x.text
    exact .record (PlainFields.cons (Ident.codec.plain _) (.cons hgrade
      (.cons (Instant.optionCodec.plain _) .nil)))
  reads c hc hgrade := by
    have hnull : nullable binary64? (.option Binary64.toJson c.minGrade) = some c.minGrade := by
      rw [show c.minGrade = none from hgrade]
      rfl
    rw [CourseCondition.toJson, CourseCondition.ofJson?, members?_record rfl (by decide)]
    simp only [List.map_cons, List.map_nil, Option.bind_eq_bind, Option.bind_some, required_some,
      optional_some, Ident.codec.reads _ hc trivial, hnull,
      Instant.optionCodec.reads _ trivial trivial]
  inRange v c h := by
    simp only [CourseCondition.ofJson?, Option.bind_eq_bind, Option.bind_eq_some_iff] at h
    obtain ⟨ms, -, h⟩ := h
    split at h
    · simp only [Option.bind_eq_some_iff] at h
      obtain ⟨course, hcourse, minGrade, -, byDate, -, h⟩ := h
      cases h
      exact Ident.codec.required hcourse
    · cases h

namespace Kind

def InRange : Kind → Prop
  | .activity cs => ∀ c ∈ cs, c.InRange
  | .manual rs => ∀ r ∈ rs, r.InRange
  | .course c => c.InRange
  | .courseSet cs => ∀ c ∈ cs, c.InRange
  | .profile fs => ∀ f ∈ fs, f.InRange
  | .overall | .social _ => True

def Ungraded : Kind → Prop
  | .course c => c.Ungraded
  | .courseSet cs => ∀ c ∈ cs, c.Ungraded
  | _ => True

theorem ofJson?_type (around : Nat) (tag : Tag) :
    ofJson? around (.record [("type", .text tag.name)]) = ofContent? tag none := by
  cases tag <;> rfl

theorem ofJson?_content (around : Nat) (tag : Tag) (content : Json) :
    ofJson? around (.record [("type", .text tag.name), ("params", content)]) =
      ofContent? tag (some content) := by
  cases tag <;> rfl

/-- In whatever form a kind is read, it is the kind of a type with given conditions. -/
theorem exists_ofContent? {around : Nat} {v : Json} {k : Kind} (h : ofJson? around v = some k) :
    ∃ tag content, ofContent? tag content = some k := by
  have hbind {x : Option Tag} {content : Option Json}
      (h : (x.bind fun t => ofContent? t content) = some k) :
      ∃ tag content, ofContent? tag content = some k := by
    obtain ⟨tag, -, htag⟩ := Option.bind_eq_some_iff.1 h
    exact ⟨tag, content, htag⟩
  unfold ofJson? at h
  split at h
  · exact hbind h
  · split at h
    · split at h
      · exact hbind h
      · exact hbind h
      · split at h
        · exact hbind h
        · cases h
      · cases h
    · cases h
  · cases h

theorem codec (around : Nat) : Codec toJson (ofJson? around) InRange Ungraded where
  plain k := by
    have htype (name : String) (v : Json) (h : Json.Plain v) :
        Json.Plain (.record [("type", .text name), ("params", v)]) :=
      .record (PlainFields.cons (.text name) (.cons h .nil))
    cases k with
    | overall => exact .record (PlainFields.cons (.text _) .nil)
    | activity cs => exact htype _ _ (ActivityCondition.codec.list.plain cs)
    | manual rs => exact htype _ _ (Ident.codec.list.plain rs)
    | social ns => exact htype _ _ (Codec.text.list.plain ns)
    | course c => exact htype _ _ (CourseCondition.codec.plain c)
    | courseSet cs => exact htype _ _ (CourseCondition.codec.list.plain cs)
    | profile fs => exact htype _ _ (ProfileField.codec.list.plain fs)
  reads k hk hkept := by
    cases k with
    | overall => exact ofJson?_type around .overall
    | activity cs =>
      refine (ofJson?_content around .activity _).trans ?_
      rw [ofContent?, ActivityCondition.codec.list.reads cs hk fun _ _ => trivial, Option.map_some]
    | manual rs =>
      refine (ofJson?_content around .manual _).trans ?_
      rw [ofContent?, Ident.codec.list.reads rs hk fun _ _ => trivial, Option.map_some]
    | social ns =>
      refine (ofJson?_content around .social _).trans ?_
      rw [ofContent?, Codec.text.list.reads ns (fun _ _ => trivial) fun _ _ => trivial,
        Option.map_some]
    | course c =>
      refine (ofJson?_content around .course _).trans ?_
      rw [ofContent?, CourseCondition.codec.reads c hk hkept, Option.map_some]
    | courseSet cs =>
      refine (ofJson?_content around .courseSet _).trans ?_
      rw [ofContent?, CourseCondition.codec.list.reads cs hk hkept, Option.map_some]
    | profile fs =>
      refine (ofJson?_content around .profile _).trans ?_
      rw [ofContent?, ProfileField.codec.list.reads fs hk fun _ _ => trivial, Option.map_some]
  inRange v k h := by
    obtain ⟨tag, content, h⟩ := exists_ofContent? h
    unfold ofContent? at h
    split at h
    · cases h
      trivial
    · cases h
      trivial
    · cases h
    · cases h
    · obtain ⟨cs, hcs, rfl⟩ := Option.map_eq_some_iff.1 h
      exact ActivityCondition.codec.list.inRange _ cs hcs
    · obtain ⟨rs, hrs, rfl⟩ := Option.map_eq_some_iff.1 h
      exact Ident.codec.list.inRange _ rs hrs
    · obtain ⟨ns, -, rfl⟩ := Option.map_eq_some_iff.1 h
      trivial
    · obtain ⟨c, hc, rfl⟩ := Option.map_eq_some_iff.1 h
      exact CourseCondition.codec.inRange _ c hc
    · obtain ⟨cs, hcs, rfl⟩ := Option.map_eq_some_iff.1 h
      exact CourseCondition.codec.list.inRange _ cs hcs
    · obtain ⟨fs, hfs, rfl⟩ := Option.map_eq_some_iff.1 h
      exact ProfileField.codec.list.inRange _ fs hfs

end Kind

structure InRange (c : Criterion) : Prop where
  id : c.id.InRange
  badge : c.badge.InRange
  kind : c.kind.InRange

def Ungraded (c : Criterion) : Prop := c.kind.Ungraded

theorem codec (around : Nat) : Codec toJson (ofJson? around) InRange Ungraded where
  plain c := .record (PlainFields.cons (Ident.codec.plain _) (.cons (Ident.codec.plain _)
    (.cons (Method.codec.plain _) (.cons (Codec.textOption.plain _)
    (.cons ((Kind.codec 0).plain _) .nil)))))
  reads c hc hgrade := by
    rw [toJson, ofJson?, members?_record rfl (by decide)]
    simp only [List.map_cons, List.map_nil, Option.bind_eq_bind, Option.bind_some, required_some,
      optional_some, Ident.codec.reads _ hc.id trivial, Ident.codec.reads _ hc.badge trivial,
      Method.codec.reads _ trivial trivial, Codec.textOption.reads _ trivial trivial,
      (Kind.codec _).reads _ hc.kind hgrade]
  inRange v c h := by
    simp only [ofJson?, Option.bind_eq_bind, Option.bind_eq_some_iff] at h
    obtain ⟨ms, -, h⟩ := h
    split at h
    · simp only [Option.bind_eq_some_iff] at h
      obtain ⟨id, hid, badge, hbadge, _, -, _, -, kind, hkind, h⟩ := h
      cases h
      exact ⟨Ident.codec.required hid, Ident.codec.required hbadge,
        (Kind.codec _).required hkind⟩
    · cases h

theorem Record.codec : Codec Record.toJson Record.ofJson? Any Any where
  plain r := .record (PlainFields.cons (.text _) (.cons (Method.codec.plain _)
    (.cons (Codec.textOption.plain _) (.cons (Codec.textMap.plain _) .nil))))
  reads r _ _ := by
    rw [Record.toJson, Record.ofJson?, members?_record rfl (by decide)]
    simp only [List.map_cons, List.map_nil, Option.bind_eq_bind, Option.bind_some, required_some,
      optional_some, defaulted_some, Codec.text.reads _ trivial trivial,
      Method.codec.reads _ trivial trivial, Codec.textOption.reads _ trivial trivial,
      Codec.textMap.reads _ trivial trivial]
  inRange _ _ _ := trivial

end Criterion

end Badging
