import Badging.Document.Facts
import Badging.Proofs.Facts.Import

/-!
# Loaded lists and recorded entries

A document of facts gives its lists as they are, and of several entries about one key a lookup finds
the first. Recording the same entries one after the other, or importing them as rows, leaves the
last. So the two agree about a key whose entries all say the same, above all where there is only
one, and the first entry of a loaded list is not replaced by a later one.
-/

namespace Badging

/-- Two ways to answer by keys out of one list of entries, of which the one goes by the first entry
with the key and the other by the last. -/
structure FirstAgainstLast {α β κ : Type} [DecidableEq κ] (key : α → κ) (said : α → β)
    (es : List α) (answer answer' : κ → Option β) : Prop where
  first : ∀ k, answer k = (es.find? fun e => key e = k).map said
  last : ∀ k, answer' k = (es.reverse.find? fun e => key e = k).map said
  agree : ∀ k, (∀ e ∈ es, ∀ e' ∈ es, key e = k → key e' = k → said e = said e') →
    answer k = answer' k

theorem FirstAgainstLast.of_ends {α β κ : Type} [DecidableEq κ] {key : α → κ} {said : α → β}
    {es : List α} {answer answer' : κ → Option β}
    (first : ∀ k, answer k = (es.find? fun e => key e = k).map said)
    (last : ∀ k, answer' k = (es.reverse.find? fun e => key e = k).map said) :
    FirstAgainstLast key said es answer answer' := by
  refine ⟨first, last, fun k h => ?_⟩
  rw [first, last]
  cases hfirst : es.find? fun e => key e = k with
  | none =>
    have hlast : es.reverse.find? (fun e => key e = k) = none := by
      rw [List.find?_eq_none] at hfirst ⊢
      exact fun e he => hfirst e (List.mem_reverse.1 he)
    rw [hlast]
  | some e =>
    have he : e ∈ es := List.mem_of_find?_eq_some hfirst
    have hk : key e = k := by simpa using List.find?_some hfirst
    have hfound : (es.reverse.find? fun e => key e = k).isSome := by
      rw [List.find?_isSome]
      exact ⟨e, List.mem_reverse.2 he, by simpa using hk⟩
    obtain ⟨e', hlast⟩ := Option.isSome_iff_exists.1 hfound
    have he' : e' ∈ es := List.mem_reverse.1 (List.mem_of_find?_eq_some hlast)
    have hk' : key e' = k := by simpa using List.find?_some hlast
    rw [hlast, Option.map_some, Option.map_some, h e he e' he' hk hk']

def ProfileValueEntry.key (e : ProfileValueEntry) : LearnerId × Criterion.ProfileField :=
  (e.learner, e.field)

/-- What an entry says about its key. -/
def ActivityCompletionEntry.said (e : ActivityCompletionEntry) : Completion :=
  ⟨e.state, e.completedAt⟩

namespace Snapshot

/-- One thing that a snapshot can be told: a completion, a grade or the value of a profile field. -/
inductive Entry where
  | stated (x : Statement)
  | value (e : ProfileValueEntry)

namespace Entry

def statement? : Entry → Option Statement
  | .stated x => some x
  | .value _ => none

def value? : Entry → Option ProfileValueEntry
  | .stated _ => none
  | .value e => some e

end Entry

/-- A snapshot that was told one thing more. -/
def tell (s : Snapshot) : Entry → Snapshot
  | .stated x => s.record x
  | .value e => s.recordValue e

theorem recordValue_eq (s : Snapshot) (e : ProfileValueEntry) : s.recordValue e =
    { s with profileValues := recordBy ProfileValueEntry.key s.profileValues e } := by
  have hagrees : e.agrees = fun y => decide (y.key = e.key) := funext fun y => beq_and_beq_eq ..
  rw [recordValue, hagrees]
  rfl

/-- Statements and values are recorded in different lists, so they do not meddle with each other. -/
theorem foldl_tell (s : Snapshot) (xs : List Entry) : xs.foldl tell s =
    { (xs.filterMap Entry.statement?).foldl record s with
      profileValues := (xs.filterMap Entry.value?).foldl (recordBy ProfileValueEntry.key)
        s.profileValues } := by
  induction xs generalizing s with
  | nil => rfl
  | cons x xs ih =>
    rw [List.foldl_cons, ih]
    cases x with
    | stated x =>
      have hvalues : (s.record x).profileValues = s.profileValues := by
        rw [record_eq]
      rw [tell, hvalues]
      rfl
    | value e =>
      rw [tell, recordValue_eq, foldl_record, foldl_record]
      rfl

/-- The statements are the completions and grades of a snapshot, each list in its order. -/
structure HasStatements (s : Snapshot) (xs : List Statement) : Prop where
  activities : xs.filterMap Statement.activity? = s.activityCompletions
  courses : xs.filterMap Statement.course? = s.courseCompletions
  grades : xs.filterMap Statement.grade? = s.grades

/-- The entries are those of a snapshot, each list in its order. -/
structure HasEntries (s : Snapshot) (xs : List Entry) : Prop where
  statements : s.HasStatements (xs.filterMap Entry.statement?)
  values : xs.filterMap Entry.value? = s.profileValues

/-- About completions and grades one snapshot answers by the first of its entries, and another by
the last of the same entries. -/
structure StatesFirstAgainstLast (s t : Snapshot) : Prop where
  activity : FirstAgainstLast ActivityCompletionEntry.key ActivityCompletionEntry.said
    s.activityCompletions (fun k => s.answer (.activityCompletion k.1 k.2))
    fun k => t.answer (.activityCompletion k.1 k.2)
  course : FirstAgainstLast CourseCompletionEntry.key (·.completedAt) s.courseCompletions
    (fun k => s.answer (.courseCompletion k.1 k.2)) fun k => t.answer (.courseCompletion k.1 k.2)
  grade : FirstAgainstLast GradeEntry.key (·.grade) s.grades
    (fun k => s.answer (.courseGrade k.1 k.2)) fun k => t.answer (.courseGrade k.1 k.2)

/-- So it is with the values of profile fields. -/
def ValuesFirstAgainstLast (s t : Snapshot) : Prop :=
  FirstAgainstLast ProfileValueEntry.key (·.value) s.profileValues
    (fun k => s.answer (.fieldValue k.2 k.1)) fun k => t.answer (.fieldValue k.2 k.1)

variable {s t : Snapshot}

theorem answer_fieldValue (s : Snapshot) (f : Criterion.ProfileField) (l : LearnerId) :
    s.answer (.fieldValue f l) = (s.profileValues.find? fun e => e.key = (l, f)).map (·.value) := by
  have hkey : (fun e : ProfileValueEntry => e.learner == l && e.field == f) =
      fun e => decide (e.key = (l, f)) := funext fun e => beq_and_beq_eq ..
  rw [answer, hkey]

theorem statesFirstAgainstLast_of_answersLast {xs : List Statement} (h : s.HasStatements xs)
    (ht : empty.AnswersLast xs t) : s.StatesFirstAgainstLast t where
  activity := by
    refine .of_ends (fun k => answer_activityCompletion s k.1 k.2) fun k => ?_
    rw [ht.activity, h.activities]
    exact Option.or_none
  course := by
    refine .of_ends (fun k => answer_courseCompletion s k.1 k.2) fun k => ?_
    rw [ht.course, h.courses]
    exact Option.or_none
  grade := by
    refine .of_ends (fun k => answer_courseGrade s k.1 k.2) fun k => ?_
    rw [ht.grade, h.grades]
    exact Option.or_none

theorem statesFirstAgainstLast_tell {xs : List Entry} (h : s.HasEntries xs) :
    s.StatesFirstAgainstLast (xs.foldl tell empty) := by
  have hanswers := statesFirstAgainstLast_of_answersLast h.statements
    (merges_foldl empty (xs.filterMap Entry.statement?)).answersLast
  rw [foldl_tell]
  exact ⟨hanswers.activity, hanswers.course, hanswers.grade⟩

theorem valuesFirstAgainstLast_tell {xs : List Entry} (h : s.HasEntries xs) :
    s.ValuesFirstAgainstLast (xs.foldl tell empty) := by
  refine .of_ends (fun k => answer_fieldValue s k.2 k.1) fun k => ?_
  have hlast := (LastWins.foldl ProfileValueEntry.key [] s.profileValues).lookup k
  rw [answer_fieldValue, foldl_tell, h.values]
  exact (congrArg (Option.map (·.value)) hlast).trans (congrArg (Option.map _) Option.or_none)

/-- The entries under a name in a document of facts, in their order. -/
def entriesUnder? {α : Type} (read : Json → Option α) (name : String) (v : Json) :
    Option (List α) := do
  let members ← Json.members? (memberNames.map fun name => ⟨name, true⟩) v
  let member ← members[memberNames.idxOf name]?
  Json.defaulted [] (Json.list? read) member

/-- The entries of the snapshot are those of a document, each list in its order. -/
structure ListedIn (s : Snapshot) (v : Json) : Prop where
  activities : entriesUnder? ActivityCompletionEntry.ofJson? "activity_completions" v =
    some s.activityCompletions
  courses : entriesUnder? CourseCompletionEntry.ofJson? "course_completions" v =
    some s.courseCompletions
  grades : entriesUnder? GradeEntry.ofJson? "grades" v = some s.grades
  values : entriesUnder? ProfileValueEntry.ofJson? "profile_values" v = some s.profileValues

theorem entriesUnder?_eq {α : Type} (read : Json → Option α) {name : String} {v : Json}
    {ms : List (Option Json)} {member : Option Json} {i : Nat} (hname : memberNames.idxOf name = i)
    (hms : Json.members? (memberNames.map fun name => ⟨name, true⟩) v = some ms)
    (hmember : ms[i]? = some member) :
    entriesUnder? read name v = Json.defaulted [] (Json.list? read) member := by
  simp only [entriesUnder?, hms, hname, hmember, Option.bind_eq_bind, Option.bind_some]

theorem listedIn_of_ofJson? {v : Json} (h : ofJson? v = some s) : s.ListedIn v := by
  unfold ofJson? at h
  simp only [Option.bind_eq_bind, Option.bind_eq_some_iff] at h
  obtain ⟨ms, hms, h⟩ := h
  split at h
  · simp only [Option.bind_eq_some_iff] at h
    obtain ⟨_, -, _, hactivities, _, -, _, hcourses, _, hgrades, _, -, _, -, _, hvalues, _, -, _, -,
      _, -, h⟩ := h
    cases h
    exact ⟨(entriesUnder?_eq _ (i := 1) (by decide) hms rfl).trans hactivities,
      (entriesUnder?_eq _ (i := 3) (by decide) hms rfl).trans hcourses,
      (entriesUnder?_eq _ (i := 4) (by decide) hms rfl).trans hgrades,
      (entriesUnder?_eq _ (i := 7) (by decide) hms rfl).trans hvalues⟩
  · cases h

/-- A loaded snapshot has the entries of its document and answers by the first about a key. One that
was told the same entries, with the lists interleaved in any way, or that imported them as rows,
answers by the last. The answers agree where the entries about a key say the same. -/
theorem loaded_first_told_last {text : String} (h : load text = .ok s) :
    (∃ v, Json.parse? text = some v ∧ s.ListedIn v) ∧
      (∀ xs, s.HasEntries xs → s.StatesFirstAgainstLast (xs.foldl tell empty) ∧
        s.ValuesFirstAgainstLast (xs.foldl tell empty)) ∧
      ∀ rows xs, s.HasStatements xs →
        List.Forall₂ (RecordStates (exportColumns rows)) (exportRecords rows) xs →
        ∃ t, empty.importExport rows = ⟨t, .ok xs.length⟩ ∧ s.StatesFirstAgainstLast t := by
  refine ⟨?_, fun xs hxs => ⟨statesFirstAgainstLast_tell hxs, valuesFirstAgainstLast_tell hxs⟩,
    fun rows xs hxs hstates => ⟨xs.foldl record empty, ?_,
      statesFirstAgainstLast_of_answersLast hxs (merges_foldl empty xs).answersLast⟩⟩
  · unfold load at h
    split at h
    · next _ hread =>
      cases h
      obtain ⟨v, hv, hs⟩ := Option.bind_eq_some_iff.1 hread
      exact ⟨v, hv, listedIn_of_ofJson? hs⟩
    · cases h
  · rw [importExport_eq, importRows_of_states hstates, Nat.zero_add]

/-- A completion in March that was corrected four days later. -/
def corrected : List ActivityCompletionEntry :=
  [⟨⟨7⟩, ⟨11⟩, .incomplete, (Instant.ofDate? ⟨2024, 3, 1⟩ 0).get (by decide)⟩,
    ⟨⟨7⟩, ⟨11⟩, .complete, (Instant.ofDate? ⟨2024, 3, 5⟩ 0).get (by decide)⟩]

/-- The document of it, with the fields of an entry by their places. -/
def correctedText : String :=
  "\x7b\"activity_completions\":[[7,11,\"incomplete\",\"2024-03-01T00:00:00Z\"]," ++
    "[7,11,\"complete\",\"2024-03-05T00:00:00Z\"]]\x7d"

/-- The rows of it. -/
def correctedRows : String :=
  "kind,target,learner,state,completed_at,grade\n" ++
    "activity,7,11,incomplete,2024-03-01,\nactivity,7,11,complete,2024-03-05,\n"

def correctedSnapshot : Snapshot := { empty with activityCompletions := corrected }

def correctedStatements : List Statement := corrected.map .activity

theorem load_correctedText : load correctedText = .ok correctedSnapshot := by decide +kernel

theorem hasStatements_corrected : correctedSnapshot.HasStatements correctedStatements :=
  ⟨rfl, rfl, rfl⟩

theorem hasEntries_corrected : correctedSnapshot.HasEntries (correctedStatements.map .stated) :=
  ⟨hasStatements_corrected, rfl⟩

theorem recordStates_corrected : List.Forall₂ (RecordStates (exportColumns correctedRows))
    (exportRecords correctedRows) correctedStatements := by
  have hrecords : exportRecords correctedRows =
      [["activity", "7", "11", "incomplete", "2024-03-01", ""],
        ["activity", "7", "11", "complete", "2024-03-05", ""]] := by decide +kernel
  have hfirst : ExportRow.read? (exportColumns correctedRows)
      (["activity", "7", "11", "incomplete", "2024-03-01", ""].map Text.trim) =
        some ⟨"activity", 7, 11, some "incomplete", some "2024-03-01", none⟩ := by decide +kernel
  have hsecond : ExportRow.read? (exportColumns correctedRows)
      (["activity", "7", "11", "complete", "2024-03-05", ""].map Text.trim) =
        some ⟨"activity", 7, 11, some "complete", some "2024-03-05", none⟩ := by decide +kernel
  rw [hrecords]
  refine .cons ⟨_, hfirst, ?_⟩ (.cons ⟨_, hsecond, ?_⟩ .nil)
  · exact ⟨by decide, rfl, ⟨_, rfl, by decide +kernel⟩, .inr ⟨_, rfl, by decide +kernel⟩⟩
  · exact ⟨by decide, rfl, ⟨_, rfl, by decide +kernel⟩, .inr ⟨_, rfl, by decide +kernel⟩⟩

/-- Told or imported, the corrected completion counts. Loaded, the first one does. -/
theorem loaded_first_told_last_corrected : load correctedText = .ok correctedSnapshot ∧
    correctedSnapshot.answer (.activityCompletion ⟨7⟩ ⟨11⟩) =
      (corrected.head?).map ActivityCompletionEntry.said ∧
    (((correctedStatements.map .stated).foldl tell empty).answer (.activityCompletion ⟨7⟩ ⟨11⟩)) =
      (corrected.getLast?).map ActivityCompletionEntry.said ∧
    ∃ t, empty.importExport correctedRows = ⟨t, .ok 2⟩ ∧
      t.answer (.activityCompletion ⟨7⟩ ⟨11⟩) =
        (corrected.getLast?).map ActivityCompletionEntry.said := by
  obtain ⟨-, htold, himported⟩ := loaded_first_told_last load_correctedText
  obtain ⟨t, ht, hanswers⟩ :=
    himported correctedRows _ hasStatements_corrected recordStates_corrected
  exact ⟨load_correctedText, hanswers.activity.first (⟨7⟩, ⟨11⟩),
    (htold _ hasEntries_corrected).1.activity.last (⟨7⟩, ⟨11⟩), t, ht,
    hanswers.activity.last (⟨7⟩, ⟨11⟩)⟩

/-- A later completion in a document does not replace an earlier one. -/
theorem later_entry_does_not_replace : load correctedText = .ok correctedSnapshot ∧
    correctedSnapshot.HasEntries (correctedStatements.map .stated) ∧
    ¬ ∀ (text : String) (s : Snapshot) (xs : List Entry), load text = .ok s → s.HasEntries xs →
      ∀ a l, s.answer (.activityCompletion a l) =
        (xs.foldl tell empty).answer (.activityCompletion a l) := by
  refine ⟨load_correctedText, hasEntries_corrected, fun h => ?_⟩
  have hsame := h _ _ _ load_correctedText hasEntries_corrected ⟨7⟩ ⟨11⟩
  revert hsame
  decide +kernel

end Snapshot

end Badging
