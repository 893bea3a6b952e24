import Badging.Proofs.Criterion.Stopping
import Badging.Proofs.Except
import Badging.Proofs.Review.Consulting
import Badging.Proofs.Review.Verdict

/-!
# What a criterion demands

A criterion is met by what there is to be looked up, and `Demand.Holds` says for each kind of demand
what that is, with no word about the order in which things are asked. The order matters only when
a lookup fails: `Demand.Blocked` says which failures are met on the way, since a lookup is made only
if the ones before it leave the demand open. A grade is looked up even if the course was completed
too late.

`Review.Judged` puts the two together over the demands of a criterion. The review of a criterion
is judged by what was looked up, and by nothing else, on both stores.
-/

namespace Badging

open Criterion

namespace Lookups

/-- The activity exists and its completion is tracked. -/
def Tracked (L : Lookups) (a : ActivityId) : Prop :=
  ∃ info, L.fact (.activity a) = .ok (some info) ∧ info.completionTracked = true

def Offered (L : Lookups) (c : CourseId) : Prop := ∃ info, L.fact (.course c) = .ok (some info)

def Completed (L : Lookups) (c : CourseId) (l : LearnerId) : Prop :=
  ∃ time, L.fact (.courseCompletion c l) = .ok (some time)

/-- The question is not answered, and the review fails for it. -/
def Fails (L : Lookups) (q : Query) (e : ReviewError) : Prop :=
  ∃ f, L.fact q = .error f ∧ .source f = e

end Lookups

/-- One of the things that a criterion asks of a learner. -/
inductive Demand where
  | activity (condition : ActivityCondition)
  | award (badge : BadgeId) (role : RoleId)
  | network (name : String)
  | course (condition : CourseCondition)
  | field (field : ProfileField)
  | record (criterion : CriterionId)

namespace Demand

def check {σ : Type} [Store σ] (l : LearnerId) : Demand → Run σ ReviewError Bool
  | .activity c => Review.activityMet l c
  | .award b r => Review.roleMet b l r
  | .network n => Review.ask (.connected n l)
  | .course c => Review.courseMet l c
  | .field f => Review.fieldMet l f
  | .record criterion => do
    let record ← Review.call (.criterionMet criterion l)
    return record.isSome

/-- The learner has what is demanded. -/
def Holds (L : Lookups) (l : LearnerId) : Demand → Prop
  | .activity c => L.Tracked c.activity ∧
      ∃ done, L.fact (.activityCompletion c.activity l) = .ok (some done) ∧
        (done.state = .complete ∨ done.state = .completePass) ∧
        ∀ cutoff, c.byDate = some cutoff → done.completedAt ≤ cutoff
  | .award b r => L.fact (.roleExists r) = .ok true ∧ L.manual b l r = .ok true
  | .network n => L.fact (.connected n l) = .ok true
  | .course c => L.Offered c.course ∧
      (∃ time, L.fact (.courseCompletion c.course l) = .ok (some time) ∧
        ∀ cutoff, c.byDate = some cutoff → time ≤ cutoff) ∧
      ∀ lowest, c.minGrade = some lowest →
        ∃ grade, L.fact (.courseGrade c.course l) = .ok (some grade) ∧
          grade ≠ .nan ∧ Binary64.le lowest grade = true
  | .field f => L.fact (.fieldExists f) = .ok true ∧
      ∃ value, L.fact (.fieldValue f l) = .ok (some value) ∧ Text.trim value ≠ "" ∧
        (f = .core "picture" → Text.trim value ≠ "0")
  | .record criterion => ∃ record, L.met criterion l = .ok (some record)

/-- A lookup fails before the demand is decided. -/
def Blocked (L : Lookups) (l : LearnerId) (e : ReviewError) : Demand → Prop
  | .activity c => L.Fails (.activity c.activity) e ∨
      L.Tracked c.activity ∧ L.Fails (.activityCompletion c.activity l) e
  | .award b r => L.Fails (.roleExists r) e ∨
      L.fact (.roleExists r) = .ok true ∧ ∃ f, L.manual b l r = .error f ∧ .store f = e
  | .network n => L.Fails (.connected n l) e
  | .course c => L.Fails (.course c.course) e ∨
      L.Offered c.course ∧ (L.Fails (.courseCompletion c.course l) e ∨
        L.Completed c.course l ∧ c.minGrade ≠ none ∧ L.Fails (.courseGrade c.course l) e)
  | .field f => L.Fails (.fieldExists f) e ∨
      L.fact (.fieldExists f) = .ok true ∧ L.Fails (.fieldValue f l) e
  | .record criterion => ∃ f, L.met criterion l = .error f ∧ .store f = e

/-- It is found out that the learner does not have what is demanded. -/
def Missed (L : Lookups) (l : LearnerId) (d : Demand) : Prop :=
  ¬ d.Holds L l ∧ ∀ e, ¬ d.Blocked L l e

/-- An outcome that says whether the demand holds, or what stands in the way of telling. -/
structure Told (L : Lookups) (l : LearnerId) (d : Demand) (v : Except ReviewError Bool) : Prop where
  holds : v = .ok true ↔ d.Holds L l
  blocked : ∀ e, v = .error e ↔ d.Blocked L l e

/-- What leaves the verdict of a method open. -/
def LeavesOpen (L : Lookups) (l : LearnerId) : Method → Demand → Prop
  | .all, d => d.Holds L l
  | .any, d => d.Missed L l

theorem Told.missed {L : Lookups} {l : LearnerId} {d : Demand} {v : Except ReviewError Bool}
    (h : d.Told L l v) : v = .ok false ↔ d.Missed L l := by
  rw [Missed, ← h.holds]
  simp only [← h.blocked]
  rcases v with e | a
  · simp
  · cases a <;> simp

theorem Told.leavesOpen {L : Lookups} {l : LearnerId} {d : Demand} {v : Except ReviewError Bool}
    (h : d.Told L l v) (method : Method) : v = .ok method.undecided ↔ d.LeavesOpen L l method := by
  cases method with
  | all => exact h.holds
  | any => exact h.missed

end Demand

namespace Review

/-- What a criterion of a badge demands, in the order in which it is checked. -/
def demands (b : Badge) (c : Criterion) : List Demand :=
  match c.kind with
  | .overall => b.requirements.map fun d => .record d.id
  | .activity conditions => conditions.map .activity
  | .manual roles => roles.map (.award c.badge)
  | .social networks => networks.map .network
  | .course condition => [.course condition]
  | .courseSet conditions => conditions.map .course
  | .profile fields => fields.map .field

theorem checks_eq_map_demands {σ : Type} [Store σ] (b : Badge) (l : LearnerId) (c : Criterion) :
    checks b l c = ((demands b c).map (Demand.check l) : List (Run σ ReviewError Bool)) := by
  unfold checks demands
  cases c.kind <;> simp only [List.map_map, List.map_cons, List.map_nil] <;> rfl

section

variable {byDate : Option Instant} {ε α : Type} {x : Except ε α} {f : ε → ReviewError}
  {v : Except ReviewError Bool} {e : ReviewError}

theorem withinCutoff_eq_true_iff {time : Instant} : withinCutoff time byDate = true ↔
    ∀ cutoff, byDate = some cutoff → time ≤ cutoff := by
  cases byDate <;> simp [withinCutoff]

theorem completes_eq_true_iff {completion : Option Completion} :
    completes byDate completion = true ↔ ∃ done, completion = some done ∧
      (done.state = .complete ∨ done.state = .completePass) ∧
      ∀ cutoff, byDate = some cutoff → done.completedAt ≤ cutoff := by
  cases completion with
  | none => simp [completes]
  | some done =>
    simp only [completes, Bool.and_eq_true, withinCutoff_eq_true_iff, Option.some.injEq,
      exists_eq_left']
    refine and_congr_left fun _ => ?_
    cases done.state <;> simp [CompletionState.isComplete]

theorem reaches_eq_true_iff {lowest : Binary64} {grade : Option Binary64} :
    reaches lowest grade = true ↔
      ∃ g, grade = some g ∧ g ≠ .nan ∧ Binary64.le lowest g = true := by
  cases grade with
  | none => simp [reaches]
  | some g =>
    simp only [reaches, Option.some.injEq, exists_eq_left']
    refine ⟨fun h => ⟨?_, h⟩, And.right⟩
    rintro rfl
    rw [Binary64.le_nan_right] at h
    cases h

theorem filled_eq_true_iff {field : ProfileField} {value : Option String} :
    filled field value = true ↔ ∃ text, value = some text ∧ Text.trim text ≠ "" ∧
      (field = .core "picture" → Text.trim text ≠ "0") := by
  cases value with
  | none => simp [filled]
  | some text => by_cases hfield : field = .core "picture" <;> simp [filled, hfield]

theorem read_eq_true_iff {g : α → Bool} :
    (x.mapError f >>= fun a => .ok (g a)) = .ok true ↔ ∃ a, x = .ok a ∧ g a = true := by
  simp only [bind_eq_ok_iff, mapError_eq_ok_iff, Except.ok.injEq]

theorem read_eq_error_iff {g : α → Bool} :
    (x.mapError f >>= fun a => .ok (g a)) = .error e ↔ ∃ e', x = .error e' ∧ f e' = e := by
  simp only [bind_eq_error_iff, mapError_eq_error_iff, reduceCtorEq, and_false, exists_false,
    or_false]

theorem gate_eq_true_iff {p : α → Prop} [DecidablePred p] :
    (x.mapError f >>= fun a => if p a then v else .ok false) = .ok true ↔
      (∃ a, x = .ok a ∧ p a) ∧ v = .ok true := by
  cases x with
  | error e' => simp [Except.mapError, bind, Except.bind]
  | ok a => by_cases ha : p a <;> simp [Except.mapError, bind, Except.bind, ha]

theorem gate_eq_error_iff {p : α → Prop} [DecidablePred p] :
    (x.mapError f >>= fun a => if p a then v else .ok false) = .error e ↔
      (∃ e', x = .error e' ∧ f e' = e) ∨ (∃ a, x = .ok a ∧ p a) ∧ v = .error e := by
  cases x with
  | error e' => simp [Except.mapError, bind, Except.bind]
  | ok a => by_cases ha : p a <;> simp [Except.mapError, bind, Except.bind, ha]

theorem exists_isSome_iff {P : Option α → Prop} :
    (∃ o, P o ∧ o.isSome = true) ↔ ∃ a, P (some a) := by
  constructor
  · rintro ⟨_ | a, hP, hsome⟩
    · cases hsome
    · exact ⟨a, hP⟩
  · rintro ⟨a, hP⟩
    exact ⟨some a, hP, rfl⟩

theorem exists_and_some_iff {P : Option α → Prop} {Q : α → Prop} :
    (∃ o, P o ∧ ∃ a, o = some a ∧ Q a) ↔ ∃ a, P (some a) ∧ Q a := by
  constructor
  · rintro ⟨_, hP, a, rfl, hQ⟩
    exact ⟨a, hP, hQ⟩
  · rintro ⟨a, hP, hQ⟩
    exact ⟨_, hP, a, rfl, hQ⟩

end

end Review

namespace Demand

open Review

variable {σ : Type} [Store σ] {rows : σ → Rows} {setting : Setting} {l : LearnerId}

omit [Store σ] in
theorem consults_activity (c : ActivityCondition) :
    ∃ answer, Consults rows setting (activityMet l c) answer ∧
      ∀ L, (Demand.activity c).Told L l (answer L) := by
  refine ⟨_, .bind (.ask _) fun found => .ite (.bind (.ask _) fun completion => .pure _) (.pure _),
    fun L => ⟨?_, fun e => ?_⟩⟩
  · simp only [gate_eq_true_iff, read_eq_true_iff, Option.any_eq_true, completes_eq_true_iff,
      exists_and_some_iff]
    exact Iff.rfl
  · simp only [gate_eq_error_iff, read_eq_error_iff, Option.any_eq_true, exists_and_some_iff]
    exact Iff.rfl

theorem consults_award (h : Readable rows) (b : BadgeId) (r : RoleId) :
    ∃ answer, Consults rows setting (roleMet b l r) answer ∧
      ∀ L, (Demand.award b r).Told L l (answer L) := by
  refine ⟨_, .bind (.ask _) fun found => .ite (.manualExists h b l r) (.pure _),
    fun L => ⟨?_, fun e => ?_⟩⟩
  · simp only [gate_eq_true_iff, mapError_eq_ok_iff, exists_eq_right]
    exact Iff.rfl
  · simp only [gate_eq_error_iff, mapError_eq_error_iff, exists_eq_right]
    exact Iff.rfl

omit [Store σ] in
theorem consults_field (f : ProfileField) :
    ∃ answer, Consults rows setting (fieldMet l f) answer ∧
      ∀ L, (Demand.field f).Told L l (answer L) := by
  refine ⟨_, .bind (.ask _) fun found => .ite (.bind (.ask _) fun value => .pure _) (.pure _),
    fun L => ⟨?_, fun e => ?_⟩⟩
  · simp only [gate_eq_true_iff, read_eq_true_iff, exists_eq_right, filled_eq_true_iff,
      exists_and_some_iff]
    exact Iff.rfl
  · simp only [gate_eq_error_iff, read_eq_error_iff, exists_eq_right]
    exact Iff.rfl

omit [Store σ] in
theorem consults_network (n : String) :
    ∃ answer, Consults rows setting (ask (.connected n l)) answer ∧
      ∀ L, (Demand.network n).Told L l (answer L) :=
  ⟨_, .ask _, fun _ => ⟨mapError_eq_ok_iff, fun _ => mapError_eq_error_iff⟩⟩

theorem consults_record (h : Readable rows) (criterion : CriterionId) :
    ∃ answer, Consults rows setting ((Demand.record criterion).check l) answer ∧
      ∀ L, (Demand.record criterion).Told L l (answer L) := by
  refine ⟨_, .bind (.criterionMet h criterion l) fun record => .pure record.isSome,
    fun L => ⟨?_, fun e => read_eq_error_iff⟩⟩
  rw [read_eq_true_iff, exists_isSome_iff]
  exact Iff.rfl

omit [Store σ] in
/-- Once the course was completed, the grade is looked up if there is a lowest one, and whatever the
time was. -/
theorem consults_grade (c : CourseCondition) (time : Instant) :
    ∃ answer, Consults rows setting
      (match c.minGrade with
        | none => return withinCutoff time c.byDate
        | some lowest => do
          let grade ← ask (.courseGrade c.course l)
          return reaches lowest grade && withinCutoff time c.byDate) answer ∧
      ∀ L, (answer L = .ok true ↔ (∀ cutoff, c.byDate = some cutoff → time ≤ cutoff) ∧
          ∀ lowest, c.minGrade = some lowest →
            ∃ grade, L.fact (.courseGrade c.course l) = .ok (some grade) ∧
              grade ≠ .nan ∧ Binary64.le lowest grade = true) ∧
        ∀ e, answer L = .error e ↔ c.minGrade ≠ none ∧ L.Fails (.courseGrade c.course l) e := by
  cases c.minGrade with
  | none =>
    exact ⟨_, .pure _, fun L => ⟨by simp [withinCutoff_eq_true_iff], fun e => by simp⟩⟩
  | some lowest =>
    refine ⟨_, .bind (.ask _) fun _ => .pure _, fun L => ⟨?_, fun e => ?_⟩⟩
    · simp only [read_eq_true_iff, Bool.and_eq_true, ← and_assoc, exists_and_right,
        withinCutoff_eq_true_iff, Option.some.injEq, forall_eq', reaches_eq_true_iff]
      rw [and_comm]
      simp only [and_assoc, exists_and_some_iff]
    · simp only [read_eq_error_iff, ne_eq, reduceCtorEq, not_false_eq_true, true_and]
      exact Iff.rfl

omit [Store σ] in
theorem consults_course (c : CourseCondition) :
    ∃ answer, Consults rows setting (courseMet l c) answer ∧
      ∀ L, (Demand.course c).Told L l (answer L) := by
  choose grade hgrade hgraded using @consults_grade σ rows setting l c
  refine ⟨_, .bind (e := fun found L => if found.isSome = true then
      ((L.fact (.courseCompletion c.course l)).mapError .source >>= fun completedAt =>
        completedAt.elim (.ok false) (grade · L)) else .ok false) (.ask _) fun found => ?_,
    fun L => ⟨?_, fun e => ?_⟩⟩
  · cases found with
    | none => exact .pure _
    | some info =>
      refine .bind (.ask _) fun completedAt => ?_
      cases completedAt with
      | none => exact .pure _
      | some time => exact hgrade time
  · rw [gate_eq_true_iff, exists_isSome_iff, bind_eq_ok_iff]
    refine and_congr_right fun _ => ⟨?_, ?_⟩
    · rintro ⟨_ | time, hat, hverdict⟩
      · cases hverdict
      · obtain ⟨hcutoff, hlowest⟩ := (hgraded time L).1.1 hverdict
        exact ⟨⟨time, mapError_eq_ok_iff.1 hat, hcutoff⟩, hlowest⟩
    · rintro ⟨⟨time, hat, hcutoff⟩, hlowest⟩
      exact ⟨some time, mapError_eq_ok_iff.2 hat, (hgraded time L).1.2 ⟨hcutoff, hlowest⟩⟩
  · rw [gate_eq_error_iff, exists_isSome_iff, bind_eq_error_iff, mapError_eq_error_iff]
    refine or_congr_right (and_congr_right fun _ => or_congr_right ?_)
    · constructor
      · rintro ⟨_ | time, hat, hfails⟩
        · cases hfails
        · exact ⟨⟨time, mapError_eq_ok_iff.1 hat⟩, ((hgraded time L).2 e).1 hfails⟩
      · rintro ⟨⟨time, hat⟩, hfails⟩
        exact ⟨some time, mapError_eq_ok_iff.2 hat, ((hgraded time L).2 e).2 hfails⟩

/-- Each check only looks things up, and tells by them whether its demand holds. -/
theorem consults_check (h : Readable rows) (l : LearnerId) (d : Demand) :
    ∃ answer, Consults rows setting (d.check l) answer ∧ ∀ L, d.Told L l (answer L) := by
  cases d with
  | activity c => exact consults_activity c
  | award b r => exact consults_award h b r
  | network n => exact consults_network n
  | course c => exact consults_course c
  | field f => exact consults_field f
  | record criterion => exact consults_record h criterion

end Demand

namespace Review

/-- What the review of a criterion comes to, by what there is to be looked up. -/
structure Judged (L : Lookups) (b : Badge) (l : LearnerId) (c : Criterion)
    (v : Except ReviewError Bool) : Prop where
  all : c.method = .all → (v = .ok true ↔ demands b c ≠ [] ∧ ∀ d ∈ demands b c, d.Holds L l)
  any : c.method = .any →
    (v = .ok true ↔ Reached (Demand.Missed L l) (Demand.Holds L l) (demands b c))
  course : ∀ condition, c.kind = .course condition →
    (v = .ok true ↔ (Demand.course condition).Holds L l)
  error : ∀ e, v = .error e ↔
    Reached (Demand.LeavesOpen L l c.method) (Demand.Blocked L l e) (demands b c)
  unblocked : (∀ d ∈ demands b c, ∀ e, ¬ d.Blocked L l e) →
    ∃ a, v = .ok a ∧
      (a = true ↔ demands b c ≠ [] ∧ c.method.Asks (Demand.Holds L l) (demands b c))

section

variable {L : Lookups} {b : Badge} {l : LearnerId} {c : Criterion}
  {f : Demand → Except ReviewError Bool}

theorem judged_of_told (h : ∀ d : Demand, d.Told L l (f d)) :
    Judged L b l c (c.method.evaluate ((demands b c).map f)) := by
  have hall : c.method = .all → (c.method.evaluate ((demands b c).map f) = .ok true ↔
      demands b c ≠ [] ∧ ∀ d ∈ demands b c, d.Holds L l) := fun hmethod => by
    rw [hmethod, Method.evaluate_all_map_eq_true_iff]
    simp only [(h _).holds]
  have hany : c.method = .any → (c.method.evaluate ((demands b c).map f) = .ok true ↔
      Reached (Demand.Missed L l) (Demand.Holds L l) (demands b c)) := fun hmethod => by
    rw [hmethod, Method.evaluate_any_map_eq_true_iff]
    exact reached_congr (fun d => (h d).missed) fun d => (h d).holds
  have herror : ∀ e, c.method.evaluate ((demands b c).map f) = .error e ↔
      Reached (Demand.LeavesOpen L l c.method) (Demand.Blocked L l e) (demands b c) := fun e =>
    Method.evaluate_map_eq_error_iff.trans
      (reached_congr (fun d => (h d).leavesOpen c.method) fun d => (h d).blocked e)
  refine ⟨hall, hany, fun condition hkind => ?_, herror, fun hfree => ?_⟩
  · have hdemands : demands b c = [.course condition] := by
      unfold demands
      rw [hkind]
    rw [hdemands] at hall hany ⊢
    cases hmethod : c.method with
    | all => simpa [hmethod] using hall hmethod
    | any => simpa [hmethod, reached_cons] using hany hmethod
  · cases hv : c.method.evaluate ((demands b c).map f) with
    | error e =>
      obtain ⟨before, d, after, hd, -, hblocked⟩ := (herror e).1 hv
      exact absurd hblocked (hfree d (by simp [hd]) e)
    | ok a =>
      refine ⟨a, rfl, ?_⟩
      have ha : a = true ↔ c.method.evaluate ((demands b c).map f) = .ok true := by
        rw [hv, Except.ok.injEq]
      rw [ha]
      cases hmethod : c.method with
      | all =>
        rw [hmethod] at hall
        exact hall rfl
      | any =>
        rw [hmethod] at hany
        -- Where nothing is blocked, a demand that does not hold is missed.
        rw [hany rfl, reached_iff_exists_mem fun d hd hnot => ⟨hnot, hfree d hd⟩]
        refine ⟨fun h => ⟨?_, h⟩, And.right⟩
        obtain ⟨d, hd, -⟩ := h
        exact List.ne_nil_of_mem hd

end

/-- On a store with these rows the review of a criterion does nothing but look things up. It comes
to what its criterion demands, by any lookups by which its calls were answered: if which calls fail
does not depend on the calls before, by the answers as they are at the start, and if none fails, by
the facts and the rows. -/
def JudgesByLookups {σ : Type} [Store σ] (rows : σ → Rows) : Prop :=
  ∀ (setting : Setting) (w : World σ) (b : Badge) (l : LearnerId) (c : Criterion), ∃ v made,
    (criterion b l c).exec setting w = (.ofExcept v, { w with calls := made ++ w.calls }) ∧
      (∀ call ∈ made, call.IsLookup) ∧
      (∀ L, Answered setting.faults ⟨rows w.store, setting.facts⟩ L w.calls made →
        Judged L b l c v) ∧
      (setting.faults.Fixed →
        Judged (.under setting.faults [] ⟨rows w.store, setting.facts⟩) b l c v) ∧
      (setting.faults = .empty → Judged ⟨rows w.store, setting.facts⟩ b l c v)

theorem judgesByLookups {σ : Type} [Store σ] {rows : σ → Rows} (h : Readable rows) :
    JudgesByLookups rows := by
  intro setting w b l c
  choose answer hconsults htold using @Demand.consults_check σ _ rows setting h l
  obtain ⟨v, made, hexec, hlookups, hv⟩ := Consults.evaluate c.method (demands b c)
    (fun d _ => hconsults d) w
  rw [← checks_eq_map_demands] at hexec
  have hjudged : ∀ L, Answered setting.faults ⟨rows w.store, setting.facts⟩ L w.calls made →
      Judged L b l c v := fun L hL => by
    rw [hv L hL]
    exact judged_of_told fun d => htold d L
  refine ⟨v, made, hexec, hlookups, hjudged, fun hfixed => ?_, fun hempty => ?_⟩
  · exact hjudged _ (answered_of_fixed hfixed _ _ _)
  · have hfixed : setting.faults.Fixed := hempty ▸ fun _ => ⟨rfl, rfl⟩
    have := hjudged _ (answered_of_fixed hfixed _ _ _)
    rwa [hempty, Lookups.under_empty] at this

/-- The review of a criterion, of any kind and by either method, writes nothing on either store and
comes to what is demanded by what it looked up. -/
theorem stores_judge_by_lookups :
    JudgesByLookups Ledger.rows ∧ JudgesByLookups Tables.rows :=
  ⟨judgesByLookups Ledger.readable, judgesByLookups Tables.readable⟩

end Review

end Badging
