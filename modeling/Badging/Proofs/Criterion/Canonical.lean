import Badging.Proofs.Criterion.Meaning

/-!
# Canonical criteria

Many records build criteria that say the same: the order of the conditions, repetitions and the
spelling of numbers are not part of what is asked for. A kind is `Canonical` if a record can state
it, its cutoffs are whole seconds, and its conditions come in the order of their targets without a
target that comes twice. These are the kinds that are their own form after reading back, so a
canonical criterion is built again from its record as it was.

The argument compares two lists of conditions that are written as the same parameters. They have the
same members, since both are plain, and of a set of members there is one list in order.
-/

namespace Badging

namespace Criterion

variable {γ : Type} {c : Criterion} {k : Kind}

/-- A kind that is the form in which its conditions are read back. -/
structure Kind.Canonical (k : Kind) : Prop where
  legible : k.Legible
  whole : k.Whole
  ascending : k.Ascending

theorem Kind.Canonical.plain (h : k.Canonical) : k.Plain :=
  ⟨h.legible, h.whole, h.ascending.consistent⟩

theorem Kind.canonical_rebuilt (h : k.Legible) : k.rebuilt.Canonical :=
  ⟨(Kind.rebuilt_spec h).2.2, whole_of_ofParams (Kind.ofParams_eq_rebuilt h),
    Kind.ascending_rebuilt h⟩

/-- There is one list in order of what is written by given texts. -/
theorem eq_of_ascending {text : γ → String} {cs ds : List γ}
    (hcs : (cs.map text).Pairwise (· < ·)) (hds : (ds.map text).Pairwise (· < ·))
    (hmem : ∀ c, c ∈ cs ↔ c ∈ ds) : cs = ds := by
  have hperm : cs.Perm ds :=
    (List.perm_ext_iff_of_nodup (hcs.nodup.of_map text) (hds.nodup.of_map text)).2 hmem
  rw [List.pairwise_map] at hcs hds
  exact hperm.eq_of_pairwise (fun _ _ _ _ hlt hgt => absurd hgt (String.lt_asymm hlt)) hcs hds

theorem Kind.Alike.eq_of_ascending {k' : Kind} (h : k.Alike k') (hk : k.Ascending)
    (hk' : k'.Ascending) : k = k' := by
  cases k with
  | overall =>
    cases k' with
    | overall => rfl
    | _ => cases h
  | activity cs =>
    cases k' with
    | activity ds => exact congrArg Kind.activity (Criterion.eq_of_ascending hk hk' h)
    | _ => cases h
  | manual rs =>
    cases k' with
    | manual qs => exact congrArg Kind.manual (Criterion.eq_of_ascending hk hk' h)
    | _ => cases h
  | social ns =>
    cases k' with
    | social ms =>
      have hns : (ns.map fun n => n).Pairwise (· < ·) := (List.map_id' ns).symm ▸ hk
      have hms : (ms.map fun n => n).Pairwise (· < ·) := (List.map_id' ms).symm ▸ hk'
      exact congrArg Kind.social (Criterion.eq_of_ascending hns hms h)
    | _ => cases h
  | course c =>
    cases k' with
    | course d => exact congrArg Kind.course h
    | _ => cases h
  | courseSet cs =>
    cases k' with
    | courseSet ds => exact congrArg Kind.courseSet (Criterion.eq_of_ascending hk hk' h)
    | _ => cases h
  | profile fs =>
    cases k' with
    | profile gs => exact congrArg Kind.profile (Criterion.eq_of_ascending hk hk' h)
    | _ => cases h

/-- A canonical kind is read back as it is. -/
theorem Kind.Canonical.rebuilt_eq (h : k.Canonical) : k.rebuilt = k := by
  obtain ⟨htag, hparams, -⟩ := Kind.rebuilt_spec h.legible
  have hcanonical := Kind.canonical_rebuilt h.legible
  have halike : k.rebuilt.Alike k := hcanonical.plain.alike h.plain htag.symm hparams
  exact halike.eq_of_ascending hcanonical.ascending h.ascending

theorem toRecord_rebuilt (h : c.kind.Legible) : c.rebuilt.toRecord = c.toRecord := by
  obtain ⟨htag, hparams, -⟩ := Kind.rebuilt_spec h
  have htag' : c.rebuilt.tag = c.tag := htag
  have hparams' : c.rebuilt.kind.params = c.kind.params := hparams
  rw [toRecord, toRecord, htag', hparams']
  rfl

/-- A canonical criterion is built again from its record as it was. A criterion that was built from
any record is built again from its own record, as a canonical criterion with that record. -/
theorem canonical_round_trip :
    (∀ c : Criterion, c.kind.Canonical → ofRecord c.id c.badge c.toRecord = .ok c) ∧
      ∀ id badge r c, ofRecord id badge r = .ok c →
        ∃ c', ofRecord c.id c.badge c.toRecord = .ok c' ∧ c'.kind.Canonical ∧
          c'.toRecord = c.toRecord := by
  refine ⟨fun c h => ?_, fun id badge r c h => ?_⟩
  · have hsame : c.rebuilt = c := by rw [rebuilt, h.rebuilt_eq]
    rw [← rebuild, rebuild_eq h.legible, hsame]
  · have hlegible := legible_of_ofRecord h
    exact ⟨c.rebuilt, rebuild_eq hlegible, Kind.canonical_rebuilt hlegible,
      toRecord_rebuilt hlegible⟩

/-- As texts `10` comes before `7`, and so it does in a canonical criterion. A record that names an
activity in two spellings and a third one in front of both builds a criterion that is not canonical,
and the criterion that is built from it is. -/
theorem canonical_round_trip_ten_seven :
    let cutoff : Instant := ⟨100, 0, by decide, by decide, by decide, by decide⟩
    let courses : Criterion := ⟨⟨5⟩, ⟨2⟩, .any, some "Two of three", .courseSet
      [⟨⟨10⟩, some (.ofQuotient false (15 * Binary64.one) 2), some cutoff⟩, ⟨⟨7⟩, none, none⟩]⟩
    let record : Record := ⟨" 1 ", .all, none, .ofList
      [("module_7", ""), ("bydate_07", " 100 "), ("module_07", "x"), ("module_+8", "")]⟩
    let activities : Criterion := ⟨⟨6⟩, ⟨2⟩, .all, none, .activity
      [⟨⟨8⟩, none⟩, ⟨⟨7⟩, some cutoff⟩, ⟨⟨7⟩, none⟩]⟩
    (courses.kind.Canonical ∧ ofRecord ⟨5⟩ ⟨2⟩ courses.toRecord = .ok courses) ∧
      ofRecord ⟨6⟩ ⟨2⟩ record = .ok activities ∧ ¬ activities.kind.Ascending ∧
        ∃ c', ofRecord ⟨6⟩ ⟨2⟩ activities.toRecord = .ok c' ∧ c'.kind.Canonical ∧
          c'.toRecord = activities.toRecord := by
  intro cutoff courses record activities
  have hgrade : (Binary64.ofQuotient false (15 * Binary64.one) 2).isGrade = true := by
    decide +kernel
  have hcanonical : courses.kind.Canonical := by
    refine ⟨?_, ?_, by decide +kernel⟩
    · show ∀ c ∈ _, CourseCondition.Legible c
      simp [CourseCondition.Legible, IsIdentity, Number.InInt64, hgrade]
    · show ∀ c ∈ _, WholeCutoff _
      simp [WholeCutoff, cutoff, Instant.wholeSeconds]
  have hrecord : ofRecord ⟨6⟩ ⟨2⟩ record = .ok activities := by decide +kernel
  exact ⟨⟨hcanonical, canonical_round_trip.1 courses hcanonical⟩, hrecord, by decide +kernel,
    canonical_round_trip.2 ⟨6⟩ ⟨2⟩ record activities hrecord⟩

end Criterion

end Badging
