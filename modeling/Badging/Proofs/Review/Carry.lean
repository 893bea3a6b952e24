import Badging.Proofs.Review.View

/-!
# Reviews that are carried out in order

What a list of reviews does to a view can be computed without running them: `View.review` is the
view after one of them, `View.carry` the view after all, and `View.decisions` what each of them came
to. A review is given by the badge and the learner, and two reviews of one learner for one badge are
the same, however the badge is locked.

A review leaves the resolutions of the others as they are, and its own is at rest from then on.
-/

namespace Badging

namespace Review

namespace View

variable {V W : View} {b : Badge} {id id' : BadgeId} {l l' : LearnerId} {c : CriterionId}
  {r r' : Resolution}

@[simp] theorem badges_after : (V.after id l r).badges =
    if r.decision.isGranted then V.badges.modify id Badge.afterAward else V.badges := by
  unfold after
  split <;> rfl

@[simp] theorem recorded_after : (V.after id l r).recorded c l' =
    (V.recorded c l' || (decide (l' = l) && r.marks.any (·.id == c))) := by
  have hrecorded : (V.after id l r).recorded c l' = (V.record l r.marks).recorded c l' := by
    unfold after
    split <;> rfl
  rw [hrecorded]
  by_cases hl : l' = l
  · simp [record, extend, hl]
  · simp [record, hl]

@[simp] theorem awarded_after : (V.after id l r).awarded id' l' =
    (V.awarded id' l' || (r.decision.isGranted && decide (id' = id ∧ l' = l))) := by
  unfold after
  cases r.decision.isGranted <;> simp [record, award, lockBadge]

@[simp] theorem granted_after : (V.after id l r).granted = V.granted := leads_after.granted

section Carried

variable (answers : LearnerId → Criterion → Except ReviewError Bool)

def resolution (V : View) (p : Badge × LearnerId) : Resolution :=
  resolve (answers p.2) p.1 (V.standing p.1.id p.2)

def review (V : View) (p : Badge × LearnerId) : View :=
  V.after p.1.id p.2 (V.resolution answers p)

def carry (V : View) (ps : List (Badge × LearnerId)) : View := ps.foldl (review answers) V

/-- What reviews come to, each in the view that the ones before it leave. -/
def decisions : View → List (Badge × LearnerId) → List Decision
  | _, [] => []
  | V, p :: ps => (V.resolution answers p).decision :: decisions (V.review answers p) ps

variable {answers} {p p' : Badge × LearnerId} {ps : List (Badge × LearnerId)}

@[simp] theorem carry_cons :
    V.carry answers (p :: ps) = (V.review answers p).carry answers ps := rfl

theorem carry_append {qs : List (Badge × LearnerId)} :
    V.carry answers (ps ++ qs) = (V.carry answers ps).carry answers qs :=
  List.foldl_append

theorem leads_review : V.Leads (V.review answers p) := leads_after

theorem leads_carry : V.Leads (V.carry answers ps) := by
  induction ps generalizing V with
  | nil => exact .refl
  | cons p ps ih => exact leads_review.trans ih

/-- A resolution looks at the rows of its badge and its learner only. -/
theorem resolution_congr (hawarded : V.awarded p.1.id p.2 = W.awarded p.1.id p.2)
    (hrecorded : ∀ c ∈ p.1.criteria, V.recorded c.id p.2 = W.recorded c.id p.2) :
    V.resolution answers p = W.resolution answers p :=
  resolve_congr hawarded hrecorded

theorem resolution_of_lock (hlock : p'.1.lock = p.1.lock) (hl : p'.2 = p.2) :
    V.resolution answers p' = V.resolution answers p := by
  rw [resolution, resolution, resolve_of_lock hlock, id_of_lock hlock, hl]

section Lock

variable {ls : List LearnerId}

theorem resolution_lock : V.resolution answers (b.lock, l) = V.resolution answers (b, l) :=
  resolution_of_lock (by simp [Badge.lock]) rfl

theorem review_lock : V.review answers (b.lock, l) = V.review answers (b, l) := by
  rw [review, review, resolution_lock]
  rfl

theorem carry_lock :
    V.carry answers (ls.map fun l => (b.lock, l)) = V.carry answers (ls.map fun l => (b, l)) := by
  simp only [carry, List.foldl_map, review_lock]

theorem decisions_lock : V.decisions answers (ls.map fun l => (b.lock, l)) =
    V.decisions answers (ls.map fun l => (b, l)) := by
  induction ls generalizing V with
  | nil => rfl
  | cons l ls ih => simp only [List.map_cons, decisions, resolution_lock, review_lock, ih]

end Lock

theorem review_of_atRest (h : (V.resolution answers p).AtRest) : V.review answers p = V :=
  after_of_atRest h

section Known

variable (hV : V.Sound) (hp : V.Knows p.1)

include hV hp

theorem resolution_review_self : (V.review answers p).resolution answers p =
    ⟨(V.resolution answers p).decision.again, []⟩ := by
  rw [resolution, review, standing_after]
  exact resolve_after (hV.nodup_of_knows hp)

/-- Another review does not change a resolution. -/
theorem resolution_review_of_ne (hp' : V.Knows p'.1) (hne : p'.1.id = p.1.id → p'.2 ≠ p.2) :
    (V.review answers p).resolution answers p' = V.resolution answers p' := by
  obtain ⟨hawarded, hrecorded⟩ :=
    standing_after_of_ne hV hp hp' hne (answers p.2) (V.standing p.1.id p.2)
  exact resolution_congr hawarded hrecorded

theorem resolution_review_of_atRest (hp' : V.Knows p'.1)
    (h : (V.resolution answers p').AtRest) :
    (V.review answers p).resolution answers p' = V.resolution answers p' := by
  by_cases hsame : p'.1.id = p.1.id ∧ p'.2 = p.2
  · rw [resolution_of_lock (hp.lock_eq hp' hsame.1) hsame.2] at h
    rw [review_of_atRest h]
  · exact resolution_review_of_ne hV hp hp' fun hid hl => hsame ⟨hid, hl⟩

end Known

end Carried

end View

end Review

end Badging
