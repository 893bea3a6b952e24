import Badging.Facts.Snapshot
import Badging.Proofs.Review.Demand
import Badging.Proofs.Run.Ends

/-!
# More achieved

Facts dominate others for a learner if the learner has achieved by them what was achieved by the
others: nothing that counted is gone, completions are no later, grades no lower. Rows exceed others
if the learner has more met records or manual awards. Every demand of a criterion is monotone in
both, so a criterion that was met is met when more was achieved, whatever its kind and its method.

A method that stops early asks for other things then. That the review of the criterion does not fail
for it takes facts and rows that answer.
-/

namespace Badging

open Criterion

theorem Binary64.le_self {x : Binary64} (h : x ≠ .nan) : le x x = true := by
  cases x with
  | nan => exact absurd rfl h
  | infinite negative => cases negative <;> rfl
  | finite => simp [le]

/-- By these facts a learner has achieved all that was achieved by the others, `weaker`. -/
structure FactSource.Dominates (l : LearnerId) (facts weaker : FactSource) : Prop where
  activity : ∀ {a info}, weaker (.activity a) = .ok (some info) → info.completionTracked = true →
    ∃ info', facts (.activity a) = .ok (some info') ∧ info'.completionTracked = true
  activityCompletion : ∀ {a done}, weaker (.activityCompletion a l) = .ok (some done) →
    done.state.isComplete = true → ∃ done', facts (.activityCompletion a l) = .ok (some done') ∧
      done'.state.isComplete = true ∧ done'.completedAt ≤ done.completedAt
  course : ∀ {c info}, weaker (.course c) = .ok (some info) →
    ∃ info', facts (.course c) = .ok (some info')
  courseCompletion : ∀ {c time}, weaker (.courseCompletion c l) = .ok (some time) →
    ∃ time', facts (.courseCompletion c l) = .ok (some time') ∧ time' ≤ time
  grade : ∀ {c grade}, weaker (.courseGrade c l) = .ok (some grade) → grade ≠ .nan →
    ∃ grade', facts (.courseGrade c l) = .ok (some grade') ∧ Binary64.le grade grade' = true
  role : ∀ {r}, weaker (.roleExists r) = .ok true → facts (.roleExists r) = .ok true
  field : ∀ {f}, weaker (.fieldExists f) = .ok true → facts (.fieldExists f) = .ok true
  value : ∀ {f value}, weaker (.fieldValue f l) = .ok value → Review.filled f value = true →
    ∃ value', facts (.fieldValue f l) = .ok value' ∧ Review.filled f value' = true
  network : ∀ {n}, weaker (.connected n l) = .ok true → facts (.connected n l) = .ok true

namespace FactSource.Dominates

theorem refl (l : LearnerId) (facts : FactSource) : facts.Dominates l facts where
  activity h htracked := ⟨_, h, htracked⟩
  activityCompletion h hcomplete := ⟨_, h, hcomplete, Instant.le_refl _⟩
  course h := ⟨_, h⟩
  courseCompletion h := ⟨_, h, Instant.le_refl _⟩
  grade h hnan := ⟨_, h, Binary64.le_self hnan⟩
  role h := h
  field h := h
  value h hfilled := ⟨_, h, hfilled⟩
  network h := h

theorem connect (l : LearnerId) (facts : Snapshot) (l' : LearnerId) (network : String) :
    FactSource.Dominates l (facts.connect l' network).source facts.source :=
  { refl l facts.source with
    network := fun {n} h => by
      rw [Snapshot.source, Except.ok.injEq, Snapshot.answer, List.any_eq_true] at h ⊢
      obtain ⟨e, he, hkey⟩ := h
      exact ⟨e, List.mem_append_left _ he, hkey⟩ }

end FactSource.Dominates

/-- In these rows a learner has the records and the manual awards of the others, `fewer`. -/
structure Rows.Exceeds (l : LearnerId) (rows fewer : Rows) : Prop where
  manual : ∀ {b r}, fewer.manual b l r = .ok true → rows.manual b l r = .ok true
  met : ∀ {c m}, fewer.met c l = .ok (some m) → ∃ m', rows.met c l = .ok (some m')

/-- The rows of a learner can be read. -/
structure Rows.Answer (l : LearnerId) (rows : Rows) : Prop where
  manual : ∀ b r, ∃ a, rows.manual b l r = .ok a
  met : ∀ c, ∃ m, rows.met c l = .ok m

theorem CompletionState.isComplete_iff {s : CompletionState} :
    s.isComplete = true ↔ s = .complete ∨ s = .completePass := by
  cases s <;> simp [isComplete]

section Demands

variable {l : LearnerId} {facts weaker : FactSource} {rows fewer : Rows}

/-- What a learner has of a demand stays when more was achieved. -/
theorem Demand.Holds.mono (hfacts : facts.Dominates l weaker) (hrows : rows.Exceeds l fewer)
    {d : Demand} (h : d.Holds ⟨fewer, weaker⟩ l) : d.Holds ⟨rows, facts⟩ l := by
  cases d with
  | activity c =>
    obtain ⟨⟨info, hinfo, htracked⟩, done, hdone, hstate, hcutoff⟩ := h
    obtain ⟨done', hdone', hstate', hearlier⟩ :=
      hfacts.activityCompletion hdone (CompletionState.isComplete_iff.2 hstate)
    exact ⟨hfacts.activity hinfo htracked, done', hdone', CompletionState.isComplete_iff.1 hstate',
      fun cutoff hc => Instant.le_trans hearlier (hcutoff cutoff hc)⟩
  | award b r =>
    obtain ⟨hrole, hmanual⟩ := h
    exact ⟨hfacts.role hrole, hrows.manual hmanual⟩
  | network n => exact hfacts.network h
  | course c =>
    obtain ⟨⟨info, hinfo⟩, ⟨time, htime, hcutoff⟩, hgrade⟩ := h
    obtain ⟨time', htime', hearlier⟩ := hfacts.courseCompletion htime
    refine ⟨hfacts.course hinfo, ⟨time', htime', fun cutoff hc =>
      Instant.le_trans hearlier (hcutoff cutoff hc)⟩, fun lowest hlowest => ?_⟩
    obtain ⟨grade, hat, hnan, hreaches⟩ := hgrade lowest hlowest
    obtain ⟨grade', hat', hle⟩ := hfacts.grade hat hnan
    refine ⟨grade', hat', ?_, Binary64.le_trans hreaches hle⟩
    rintro rfl
    rw [Binary64.le_nan_right] at hle
    cases hle
  | field f =>
    obtain ⟨hexists, value, hvalue, hfilled⟩ := h
    obtain ⟨value', hvalue', hfilled'⟩ :=
      hfacts.value hvalue (Review.filled_eq_true_iff.2 ⟨value, rfl, hfilled⟩)
    obtain ⟨text, rfl, htext⟩ := Review.filled_eq_true_iff.1 hfilled'
    exact ⟨hfacts.field hexists, text, hvalue', htext⟩
  | record criterion =>
    obtain ⟨m, hm⟩ := h
    exact hrows.met hm

theorem Demand.not_blocked (htotal : facts.Total) (hrows : rows.Answer l) (d : Demand)
    (e : ReviewError) : ¬ d.Blocked ⟨rows, facts⟩ l e := by
  have hanswered : ∀ q e, ¬ Lookups.Fails ⟨rows, facts⟩ q e := fun q e ⟨f, hf, _⟩ => by
    obtain ⟨a, ha⟩ := htotal q
    exact nomatch ha.symm.trans hf
  cases d with
  | activity c =>
    rintro (h | ⟨-, h⟩)
    · exact hanswered _ _ h
    · exact hanswered _ _ h
  | award b r =>
    rintro (h | ⟨-, f, hf, -⟩)
    · exact hanswered _ _ h
    · obtain ⟨a, ha⟩ := hrows.manual b r
      exact nomatch ha.symm.trans hf
  | network n => exact hanswered _ _
  | course c =>
    rintro (h | ⟨-, h | ⟨-, -, h⟩⟩)
    · exact hanswered _ _ h
    · exact hanswered _ _ h
    · exact hanswered _ _ h
  | field f =>
    rintro (h | ⟨-, h⟩)
    · exact hanswered _ _ h
    · exact hanswered _ _ h
  | record criterion =>
    rintro ⟨f, hf, -⟩
    obtain ⟨m, hm⟩ := hrows.met criterion
    exact nomatch hm.symm.trans hf

end Demands

theorem answered_of_onlyNotices {plan : FaultPlan} (honly : plan.OnlyNotices) (L : Lookups)
    (earlier made : List Call) : Answered plan L L earlier made := by
  have hunder : ∀ h, L.under plan h = L := fun h => by
    simp only [Lookups.under, honly.facts h, honly.store h]
  induction made with
  | nil => trivial
  | cons call made ih =>
    refine ⟨?_, ih⟩
    rw [hunder]
    exact L.agree_self call

namespace Review

open Run

variable {b : Badge} {l : LearnerId} {c : Criterion}

theorem Judged.asks {L : Lookups} {v : Except ReviewError Bool} (hv : Judged L b l c v)
    (h : v = .ok true) : demands b c ≠ [] ∧ c.method.Asks (Demand.Holds L l) (demands b c) := by
  cases hmethod : c.method with
  | all => exact (hv.all hmethod).1 h
  | any =>
    obtain ⟨before, d, after, heq, -, hd⟩ := (hv.any hmethod).1 h
    have hmem : d ∈ demands b c := heq ▸ List.mem_append_right _ List.mem_cons_self
    exact ⟨List.ne_nil_of_mem hmem, d, hmem, hd⟩

/-- A criterion that is met is met by other lookups in which no demand is lost or blocked. -/
theorem Judged.mono {L L' : Lookups} {v v' : Except ReviewError Bool} (hv : Judged L b l c v)
    (hv' : Judged L' b l c v') (hholds : ∀ d : Demand, d.Holds L l → d.Holds L' l)
    (hfree : ∀ (d : Demand) e, ¬ d.Blocked L' l e) (h : v = .ok true) : v' = .ok true := by
  obtain ⟨a, rfl, ha⟩ := hv'.unblocked fun d _ => hfree d
  obtain ⟨hne, hasks⟩ := hv.asks h
  rw [ha.2 ⟨hne, hasks.mono fun d _ => hholds d⟩]

section Criteria

variable {σ : Type} [Store σ] {rows : σ → Rows} {one two : Setting} {w w' : World σ}

theorem judged_criterion (hrows : Readable rows) (honly : one.faults.OnlyNotices) (b : Badge)
    (l : LearnerId) (c : Criterion) (w : World σ) :
    ∃ v, ((criterion b l c).exec one w).1 = .ofExcept v ∧
      Judged ⟨rows w.store, one.facts⟩ b l c v := by
  obtain ⟨v, made, hexec, -, hjudged, -⟩ := judgesByLookups hrows one w b l c
  exact ⟨v, by rw [hexec], hjudged _ (answered_of_onlyNotices honly _ _ _)⟩

theorem criterion_mono (hreadable : Readable rows) (hone : one.faults.OnlyNotices)
    (htwo : two.faults.OnlyNotices) (hfacts : two.facts.Dominates l one.facts)
    (htotal : two.facts.Total) (hrows : (rows w'.store).Exceeds l (rows w.store))
    (hanswer : (rows w'.store).Answer l) (h : ((criterion b l c).exec one w).1 = .done true) :
    ((criterion b l c).exec two w').1 = .done true := by
  obtain ⟨v, hexec, hv⟩ := judged_criterion hreadable hone b l c w
  obtain ⟨v', hexec', hv'⟩ := judged_criterion hreadable htwo b l c w'
  have htrue : v = .ok true := by
    rw [hexec] at h
    cases v <;> cases h
    rfl
  rw [hexec', hv.mono hv' (fun _ hd => hd.mono hfacts hrows)
    (Demand.not_blocked htotal hanswer) htrue]
  rfl

end Criteria

end Review

end Badging
