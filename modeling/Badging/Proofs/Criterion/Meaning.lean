import Badging.Proofs.Criterion.RoundTrip

/-!
# What parameters say of conditions

A criterion is stored as its parameters, and these do not say everything about its conditions. They
say in which words a condition is written but not how often or where, and if two conditions are
about the same thing only one of them has a say. What was read from a record may contain such a
pair: `07` and `7` are different targets of parameters and the same activity.

A kind is `Plain` if it is legible, its cutoffs are whole seconds and no two of its conditions
contradict each other. Plain kinds with the same parameters have the same conditions, in whatever
order. Everything that is read back is plain, so a plain criterion means what it did.
-/

namespace Badging

theorem Ident.val_injective {k : Entity} : Function.Injective (Ident.val : Ident k → Int) :=
  fun _ _ h => congrArg Ident.mk h

namespace Criterion

open Number

theorem integerText_inj {m n : Int} (hm : InInt64 m) (hn : InInt64 n)
    (h : integerText m = integerText n) : m = n := by
  have hchars : integerChars m = integerChars n := by
    rwa [integerText, integerText, String.ofList_inj] at h
  have hread := readInt64?_integerChars hm
  rw [hchars, readInt64?_integerChars hn, Option.some.injEq] at hread
  exact hread.symm

namespace Form

variable {γ : Type} {F : Form γ} {tag : Tag} {legible : γ → Prop} {cs ds : List γ} {c d : γ}

/-- A condition is determined by what is written of it, which says one thing under each stem. -/
structure Faithful (F : Form γ) (legible : γ → Prop) : Prop where
  functional : ∀ {c s v w}, (s, v) ∈ F.options c → (s, w) ∈ F.options c → v = w
  injective : ∀ {c d}, legible c → legible d → F.target c = F.target d →
    (∀ o ∈ F.options c, o ∈ F.options d) → (∀ o ∈ F.options d, o ∈ F.options c) → c = d

theorem Fits.mono {legible' : γ → Prop} (hF : F.Fits tag legible)
    (h : ∀ c, legible' c → legible c) : F.Fits tag legible' :=
  ⟨hF.stem_eq, fun hc => hF.target_ne (h _ hc), fun hc => hF.option_mem (h _ hc)⟩

section

variable (hF : F.Fits tag legible) (hfaithful : F.Faithful legible) (hcs : ∀ c ∈ cs, legible c)
  (hds : ∀ d ∈ ds, legible d) (hcons : F.Consistent cs) (hcons' : F.Consistent ds)
  (h : F.register cs = F.register ds)

include hF hfaithful hcs hds hcons hcons' h

/-- What a condition adds is in the register, so it is added by the condition of the other list that
is about the same thing. -/
theorem Fits.option_mem_of_register_eq (hc : c ∈ cs) (hd : d ∈ ds)
    (htarget : F.target c = F.target d) {o : String × String} (ho : o ∈ F.options c) :
    o ∈ F.options d := by
  obtain ⟨s, v⟩ := o
  have hs : s ∈ tag.optionalStems := hF.option_mem (hcs c hc) ho
  have hne := hF.target_ne (hcs c hc)
  obtain ⟨w, hw⟩ : ∃ w, (F.register cs).get? (paramName s (F.target c)) = some w :=
    Register.exists_get?_ofList (List.mem_flatMap.2 ⟨c, hc, mem_params.2 (.inr ⟨s, v, ho, rfl⟩)⟩)
  obtain ⟨c₁, hc₁, htarget₁, ho₁⟩ := hF.get?_optional hcs hs hne hw
  rw [hcons c₁ hc₁ c hc htarget₁] at ho₁
  rw [h] at hw
  obtain ⟨d₁, hd₁, htarget', ho'⟩ := hF.get?_optional hds hs hne hw
  rw [hcons' d₁ hd₁ d hd (htarget'.trans htarget)] at ho'
  rwa [hfaithful.functional ho ho₁]

theorem Fits.mem_of_register_eq (hc : c ∈ cs) : c ∈ ds := by
  obtain ⟨v, hv⟩ := exists_get?_register (F := F) hc
  rw [h] at hv
  obtain ⟨-, d, hd, htarget⟩ := hF.get?_required hds (hF.target_ne (hcs c hc)) hv
  have heq : c = d := hfaithful.injective (hcs c hc) (hds d hd) htarget.symm
    (fun o => hF.option_mem_of_register_eq hfaithful hcs hds hcons hcons' h hc hd htarget.symm)
    (fun o => hF.option_mem_of_register_eq hfaithful hds hcs hcons' hcons h.symm hd hc htarget)
  rwa [heq]

/-- Consistent lists that are written as the same register have the same members. -/
theorem Fits.mem_iff_of_register_eq : c ∈ cs ↔ c ∈ ds :=
  ⟨hF.mem_of_register_eq hfaithful hcs hds hcons hcons' h,
    hF.mem_of_register_eq hfaithful hds hcs hcons' hcons h.symm⟩

end

theorem Faithful.consistent_names {stem : String} {text : γ → String}
    (hfaithful : (names stem text).Faithful legible) (hcs : ∀ c ∈ cs, legible c) :
    (names stem text).Consistent cs := fun c hc d hd htarget =>
  hfaithful.injective (hcs c hc) (hcs d hd) htarget (fun _ ho => ho) fun _ ho => ho

theorem faithful_names {stem : String} {text : γ → String}
    (h : ∀ {c d}, legible c → legible d → text c = text d → c = d) :
    (names stem text).Faithful legible where
  functional ho := absurd ho List.not_mem_nil
  injective hc hd htarget _ _ := h hc hd htarget

theorem faithful_roles : (names "role" integerText).Faithful IsIdentity :=
  faithful_names fun hm hn => integerText_inj hm.2 hn.2

theorem faithful_networks :
    (names "social" fun n => n).Faithful fun n => n ≠ "" ∧ Text.lower n = n :=
  faithful_names fun _ _ h => h

theorem faithful_fields : (names "field" ProfileField.key).Faithful ProfileField.Legible := by
  refine faithful_names fun {f g} hf hg h => ?_
  have hread : readField .profile ⟨"", "", f.key, ""⟩ = .ok f := readField_of_target hf rfl
  rw [readField_of_target hg h, Except.ok.injEq] at hread
  exact hread.symm

end Form

theorem added_functional {α : Type} {stem s v w : String} {write : α → String} {x : Option α}
    (h : (s, v) ∈ added stem write x) (h' : (s, w) ∈ added stem write x) : v = w := by
  obtain ⟨-, a, ha, rfl⟩ := mem_added_iff.1 h
  obtain ⟨-, a', ha', rfl⟩ := mem_added_iff.1 h'
  rw [ha, Option.some.injEq] at ha'
  rw [ha']

theorem added_inj {α : Type} {stem : String} {write : α → String} {x y : Option α}
    (hwrite : ∀ a b, x = some a → y = some b → write a = write b → a = b)
    (h : ∀ v, (stem, v) ∈ added stem write x ↔ (stem, v) ∈ added stem write y) : x = y := by
  cases x with
  | none =>
    cases y with
    | none => rfl
    | some b => exact absurd ((h (write b)).2 (mem_added_iff.2 ⟨rfl, b, rfl, rfl⟩)) List.not_mem_nil
  | some a =>
    obtain ⟨-, b, hb, hab⟩ := mem_added_iff.1 ((h (write a)).1 (mem_added_iff.2 ⟨rfl, a, rfl, rfl⟩))
    rw [hb, hwrite a b rfl hb hab.symm]

/-- A cutoff, if there is one, is a whole second. -/
def WholeCutoff (byDate : Option Instant) : Prop := ∀ t, byDate = some t → t.wholeSeconds = t

def Kind.Whole : Kind → Prop
  | .activity cs => ∀ c ∈ cs, WholeCutoff c.byDate
  | .course c => WholeCutoff c.byDate
  | .courseSet cs => ∀ c ∈ cs, WholeCutoff c.byDate
  | _ => True

theorem cutoff_inj {t u : Instant} (ht : t.wholeSeconds = t) (hu : u.wholeSeconds = u)
    (h : integerText t.seconds = integerText u.seconds) : t = u := by
  have hseconds := integerText_inj (inInt64_seconds t) (inInt64_seconds u) h
  rw [← ht, ← hu]
  exact Instant.ext hseconds rfl

theorem grade_inj {g g' : Binary64} (hg : g.isGrade = true) (hg' : g'.isGrade = true)
    (h : g.text = g'.text) : g = g' := by
  have hread : readGrade .course ⟨"", "", "", g.text⟩ = .ok g := readGrade_of_value hg rfl
  rw [readGrade_of_value hg' h, Except.ok.injEq] at hread
  exact hread.symm

namespace Form

theorem faithful_activities : activities.Faithful fun c =>
    IsIdentity c.activity.val ∧ WholeCutoff c.byDate where
  functional := added_functional
  injective {c d} hc hd htarget ho ho' := by
    obtain ⟨⟨a⟩, x⟩ := c
    obtain ⟨⟨a'⟩, x'⟩ := d
    obtain rfl : a = a' := integerText_inj hc.1.2 hd.1.2 htarget
    obtain rfl : x = x' := added_inj (fun t u ht hu => cutoff_inj (hc.2 t ht) (hd.2 u hu))
      fun v => ⟨ho _, ho' _⟩
    rfl

theorem option_mem_courses_iff {c : CourseCondition} {s v : String} :
    (s, v) ∈ courses.options c ↔
      (s = "grade" ∧ (s, v) ∈ added "grade" Binary64.text c.minGrade) ∨
        (s = "bydate" ∧ (s, v) ∈ added "bydate" (fun t => integerText t.seconds) c.byDate) := by
  refine List.mem_append.trans (or_congr ?_ ?_)
  · exact (and_iff_right_of_imp fun h => (mem_added_iff.1 h).1).symm
  · exact (and_iff_right_of_imp fun h => (mem_added_iff.1 h).1).symm

theorem faithful_courses : courses.Faithful fun c => c.Legible ∧ WholeCutoff c.byDate where
  functional ho ho' := by
    rcases option_mem_courses_iff.1 ho with ⟨rfl, h⟩ | ⟨rfl, h⟩
    · exact added_functional h (by simpa [option_mem_courses_iff] using ho')
    · exact added_functional h (by simpa [option_mem_courses_iff] using ho')
  injective {c d} hc hd htarget ho ho' := by
    have hoptions : ∀ s v, (s, v) ∈ courses.options c ↔ (s, v) ∈ courses.options d :=
      fun s v => ⟨ho (s, v), ho' (s, v)⟩
    obtain ⟨⟨a⟩, g, x⟩ := c
    obtain ⟨⟨a'⟩, g', x'⟩ := d
    obtain rfl : a = a' := integerText_inj hc.1.1.2 hd.1.1.2 htarget
    obtain rfl : g = g' := added_inj (fun _ _ h h' => grade_inj (hc.1.2 _ h) (hd.1.2 _ h'))
      fun v => by simpa [option_mem_courses_iff] using hoptions "grade" v
    obtain rfl : x = x' := added_inj (fun _ _ h h' => cutoff_inj (hc.2 _ h) (hd.2 _ h'))
      fun v => by simpa [option_mem_courses_iff] using hoptions "bydate" v
    rfl

end Form

/-- Kinds with the same conditions, in whatever order and however often. -/
def Kind.Alike : Kind → Kind → Prop
  | .overall, .overall => True
  | .activity cs, .activity ds => ∀ c, c ∈ cs ↔ c ∈ ds
  | .manual rs, .manual qs => ∀ r, r ∈ rs ↔ r ∈ qs
  | .social ns, .social ms => ∀ n, n ∈ ns ↔ n ∈ ms
  | .course c, .course d => c = d
  | .courseSet cs, .courseSet ds => ∀ c, c ∈ cs ↔ c ∈ ds
  | .profile fs, .profile gs => ∀ f, f ∈ fs ↔ f ∈ gs
  | _, _ => False

/-- A kind of which the parameters say everything. -/
structure Kind.Plain (k : Kind) : Prop where
  legible : k.Legible
  whole : k.Whole
  consistent : k.Consistent

section Kinds

open Form

theorem Form.consistent_activities {cs : List ActivityCondition}
    (hcs : ∀ c ∈ cs, IsIdentity c.activity.val) (h : (Kind.activity cs).Consistent) :
    activities.Consistent cs := fun c hc d hd htarget =>
  h c hc d hd (Ident.val_injective (integerText_inj (hcs c hc).2 (hcs d hd).2 htarget))

theorem Form.consistent_courses {cs : List CourseCondition} (hcs : ∀ c ∈ cs, c.Legible)
    (h : (Kind.courseSet cs).Consistent) : courses.Consistent cs := fun c hc d hd htarget =>
  h c hc d hd (Ident.val_injective (integerText_inj (hcs c hc).1.2 (hcs d hd).1.2 htarget))

/-- Plain kinds with the same parameters have the same conditions. -/
theorem Kind.Plain.alike {k k' : Kind} (h : k.Plain) (h' : k'.Plain) (htag : k'.tag = k.tag)
    (hparams : k.params = k'.params) : k.Alike k' := by
  obtain ⟨hlegible, hwhole, hconsistent⟩ := h
  obtain ⟨hlegible', hwhole', hconsistent'⟩ := h'
  cases k with
  | overall =>
    cases k' with
    | overall => trivial
    | _ => cases htag
  | activity cs =>
    cases k' with
    | activity ds =>
      rw [params_activity, params_activity] at hparams
      exact fun c => (fits_activities.mono fun c hc => hc.1).mem_iff_of_register_eq
        faithful_activities (fun c hc => ⟨hlegible c hc, hwhole c hc⟩)
        (fun d hd => ⟨hlegible' d hd, hwhole' d hd⟩) (consistent_activities hlegible hconsistent)
        (consistent_activities hlegible' hconsistent') hparams
    | _ => cases htag
  | manual rs =>
    cases k' with
    | manual qs =>
      have hrs : ∀ n ∈ rs.map (·.val), IsIdentity n := List.forall_mem_map.2 hlegible
      have hqs : ∀ n ∈ qs.map (·.val), IsIdentity n := List.forall_mem_map.2 hlegible'
      rw [params_manual, params_manual] at hparams
      -- Roles are written by their numbers, and it is the lists of numbers that are compared.
      have hmem := fun n => fits_roles.mem_iff_of_register_eq (c := n) faithful_roles hrs hqs
        (faithful_roles.consistent_names hrs) (faithful_roles.consistent_names hqs) hparams
      intro r
      rw [← List.mem_map_of_injective Ident.val_injective, hmem,
        List.mem_map_of_injective Ident.val_injective]
    | _ => cases htag
  | social ns =>
    cases k' with
    | social ms =>
      rw [params_social, params_social] at hparams
      exact fun n => fits_networks.mem_iff_of_register_eq faithful_networks hlegible hlegible'
        (faithful_networks.consistent_names hlegible)
        (faithful_networks.consistent_names hlegible') hparams
    | _ => cases htag
  | course c =>
    cases k' with
    | course d =>
      -- A single course is written as a list of one.
      have hc : ∀ x ∈ [c], x.Legible ∧ WholeCutoff x.byDate := by
        simpa using ⟨hlegible, hwhole⟩
      have hd : ∀ x ∈ [d], x.Legible ∧ WholeCutoff x.byDate := by
        simpa using ⟨hlegible', hwhole'⟩
      rw [params_course, params_course] at hparams
      refine List.mem_singleton.1 (((fits_courses (.inl rfl)).mono fun x hx =>
        hx.1).mem_of_register_eq faithful_courses hc hd ?_ ?_ hparams (List.mem_singleton.2 rfl))
      · simp [Form.Consistent]
      · simp [Form.Consistent]
    | _ => cases htag
  | courseSet cs =>
    cases k' with
    | courseSet ds =>
      rw [params_courseSet, params_courseSet] at hparams
      exact fun c => ((fits_courses (.inr rfl)).mono fun c hc => hc.1).mem_iff_of_register_eq
        faithful_courses (fun c hc => ⟨hlegible c hc, hwhole c hc⟩)
        (fun d hd => ⟨hlegible' d hd, hwhole' d hd⟩) (consistent_courses hlegible hconsistent)
        (consistent_courses hlegible' hconsistent') hparams
    | _ => cases htag
  | profile fs =>
    cases k' with
    | profile gs =>
      rw [params_profile, params_profile] at hparams
      exact fun f => fits_fields.mem_iff_of_register_eq faithful_fields hlegible hlegible'
        (faithful_fields.consistent_names hlegible)
        (faithful_fields.consistent_names hlegible') hparams
    | _ => cases htag

theorem wholeCutoff_of_readOption {tag : Tag} {os : List Parameter} {stem target : String}
    {x : Option Instant} (h : readOption (readInstant tag) os stem target = .ok x) :
    WholeCutoff x := by
  rintro t rfl
  unfold readOption at h
  split at h
  · cases h
  · obtain ⟨t', hread, heq⟩ := map_eq_ok_iff.1 h
    cases heq
    unfold readInstant at hread
    split at hread
    · next ht =>
      cases hread
      obtain ⟨n, -, hn⟩ := Option.bind_eq_some_iff.1 ht
      exact Instant.ext rfl (Instant.make?_eq_some.1 hn).2.symm
    · cases hread

theorem wholeCutoff_of_readActivity {tag : Tag} {os : List Parameter} {p : Parameter}
    {c : ActivityCondition} (h : readActivity tag os p = .ok c) : WholeCutoff c.byDate := by
  obtain ⟨n, -, h⟩ := bind_eq_ok_iff.1 h
  obtain ⟨t, ht, h⟩ := bind_eq_ok_iff.1 h
  cases h
  exact wholeCutoff_of_readOption ht

theorem wholeCutoff_of_readCourse {tag : Tag} {os : List Parameter} {p : Parameter}
    {c : CourseCondition} (h : readCourse tag os p = .ok c) : WholeCutoff c.byDate := by
  obtain ⟨n, -, h⟩ := bind_eq_ok_iff.1 h
  obtain ⟨g, -, h⟩ := bind_eq_ok_iff.1 h
  obtain ⟨t, ht, h⟩ := bind_eq_ok_iff.1 h
  cases h
  exact wholeCutoff_of_readOption ht

theorem whole_of_readConditions {tag : Tag} {ps os : List Parameter} {k : Kind}
    (h : readConditions tag ps os = .ok k) : k.Whole := by
  cases tag with
  | overall | social =>
    cases h
    trivial
  | manual | profile =>
    obtain ⟨_, -, rfl⟩ := map_eq_ok_iff.1 h
    trivial
  | activity =>
    obtain ⟨cs, hcs, rfl⟩ := map_eq_ok_iff.1 h
    intro c hc
    obtain ⟨p, -, hp⟩ := forall₂_mem_right (mapM_eq_ok_iff.1 hcs) hc
    exact wholeCutoff_of_readActivity hp
  | courseSet =>
    obtain ⟨cs, hcs, rfl⟩ := map_eq_ok_iff.1 h
    intro c hc
    obtain ⟨p, -, hp⟩ := forall₂_mem_right (mapM_eq_ok_iff.1 hcs) hc
    exact wholeCutoff_of_readCourse hp
  | course =>
    simp only [readConditions] at h
    split at h
    · cases h
    · next c hcs =>
      cases h
      obtain ⟨p, -, hp⟩ := forall₂_mem_right (mapM_eq_ok_iff.1 hcs) List.mem_cons_self
      exact wholeCutoff_of_readCourse hp
    · cases h

theorem whole_of_ofParams {tag : Tag} {r : Register String String} {k : Kind}
    (h : Kind.ofParams tag r = .ok k) : k.Whole := by
  obtain ⟨ps, -, h⟩ := bind_eq_ok_iff.1 h
  rw [List.partition_eq_filter_filter] at h
  dsimp only at h
  split at h
  · cases h
  · exact whole_of_readConditions h

/-- Conditions that were read without contradictions are read back as they were. -/
theorem Kind.alike_rebuilt {tag : Tag} {r : Register String String} {k : Kind}
    (hread : Kind.ofParams tag r = .ok k) (h : k.Consistent) : k.Alike k.rebuilt := by
  have hlegible := (legible_of_ofParams hread).2
  obtain ⟨htag, hparams, hlegible'⟩ := Kind.rebuilt_spec hlegible
  have hplain : k.Plain := ⟨hlegible, whole_of_ofParams hread, h⟩
  have hplain' : k.rebuilt.Plain := ⟨hlegible',
    whole_of_ofParams (Kind.ofParams_eq_rebuilt hlegible), Kind.consistent_rebuilt hlegible⟩
  exact hplain.alike hplain' htag hparams.symm

end Kinds

end Criterion

end Badging
