import Badging.Proofs.Review.Verdict
import Badging.Review.Pass

/-!
# What a pass selects

A pass reviews the badges that are `Reviewable` for all of their candidates. So whatever the reviews
of learners keep a pass keeps, and if all questions are answered its report counts each reviewable
badge once and each of its candidates once, whatever came of their reviews. Only a review that
breaks off ends a pass early.
-/

namespace Badging

namespace Review

open Run

/-- A badge that a pass reviews: it is available and requires something, and its course, if it has
one, is visible and has started. -/
def Reviewable (facts : FactSource) (now : Instant) (b : Badge) : Prop :=
  b.status.isActive = true ∧ b.hasCriteria = true ∧
    match b.owner with
    | .site => True
    | .course c => ∃ info, facts (.course c) = .ok (some info) ∧
        (info.visible && info.hasStarted now) = true

theorem reviewable_course_iff {facts : FactSource} {now : Instant} {c : CourseId} :
    (∃ info, facts (.course c) = .ok (some info) ∧ (info.visible && info.hasStarted now) = true) ↔
      (match facts (.course c) with
        | .ok found => found.any fun info => info.visible && info.hasStarted now
        | .error _ => false) = true := by
  cases facts (.course c) with
  | error e => simp
  | ok found => cases found <;> simp

instance (facts : FactSource) (now : Instant) (b : Badge) : Decidable (Reviewable facts now b) := by
  unfold Reviewable
  cases b.owner with
  | site => exact inferInstanceAs (Decidable (_ ∧ _ ∧ True))
  | course c =>
    have : Decidable (∃ info, facts (.course c) = .ok (some info) ∧
        (info.visible && info.hasStarted now) = true) :=
      decidable_of_iff _ reviewable_course_iff.symm
    exact inferInstanceAs (Decidable (_ ∧ _ ∧ _))

/-- A pass reviews the learner for the badge. -/
def Listed (facts : FactSource) (now : Instant) (b : Badge) (l : LearnerId) : Prop :=
  Reviewable facts now b ∧ ∃ ls, facts (.candidates b) = .ok ls ∧ l ∈ ls

/-- The learners to whom a badge could be issued, as far as that can be found out. -/
def candidatesOf (facts : FactSource) (b : Badge) : List LearnerId :=
  match facts (.candidates b) with
  | .ok ls => ls
  | .error _ => []

/-- A report counts the badges in a list that are reviewed, and their candidates. -/
structure Report.Counts (facts : FactSource) (now : Instant) (bs : List Badge) (r : Report) :
    Prop where
  badges : r.badgesReviewed = (bs.filter (Reviewable facts now ·)).length
  learners : r.learnersEvaluated =
    ((bs.filter (Reviewable facts now ·)).flatMap (candidatesOf facts)).length

namespace Report.Counts

variable {facts : FactSource} {now : Instant} {b : Badge} {bs : List Badge} {r s : Report}

theorem nil : Report.empty.Counts facts now [] := ⟨rfl, rfl⟩

theorem cons (h : r.Counts facts now [b]) (h' : s.Counts facts now bs) :
    (r + s).Counts facts now (b :: bs) := by
  have hfilter : (b :: bs).filter (Reviewable facts now ·) =
      [b].filter (Reviewable facts now ·) ++ bs.filter (Reviewable facts now ·) :=
    List.filter_append [b] bs
  constructor
  · rw [badgesReviewed_add, h.badges, h'.badges, hfilter, List.length_append]
  · rw [learnersEvaluated_add, h.learners, h'.learners, hfilter, List.flatMap_append,
      List.length_append]

theorem of_not_reviewable (h : ¬ Reviewable facts now b) : Report.empty.Counts facts now [b] := by
  constructor <;> simp [h, Report.empty]

theorem of_reviewable (h : Reviewable facts now b) (hbadges : r.badgesReviewed = 0)
    (hlearners : r.learnersEvaluated = (candidatesOf facts b).length) :
    (Report.ofBadge + r).Counts facts now [b] := by
  constructor <;> simp [h, hbadges, hlearners, Report.ofBadge]

end Report.Counts

variable {σ ε : Type} {setting : Setting} {now : Instant} {b : Badge} {P : Assertion σ}

/-- What keeps questions from being answered. -/
def Unanswered (setting : Setting) : Prop :=
  ¬ setting.faults.SparesFacts ∨ ¬ setting.facts.Total

theorem triple_askSource {q : Query} :
    Triple setting P (Run.ask q : Run σ SourceError q.Answer)
      (fun a s n => P s n ∧ setting.facts q = .ok a)
      (Unbroken fun s n => P s n ∧ Unanswered setting) := by
  refine Triple.ask (fun e s n hP hcause => ⟨hP, ?_⟩) fun a s n hP ha => ⟨hP, ha⟩
  rcases hcause with ⟨h, hfault⟩ | hnone
  · left
    intro hspared
    rw [hspared h q] at hfault
    cases hfault
  · right
    intro htotal
    obtain ⟨a, ha⟩ := htotal q
    rw [ha] at hnone
    cases hnone

theorem triple_isReviewable :
    Triple setting P (isReviewable b now : Run σ SourceError Bool)
      (fun v s n => P s n ∧ (v = true ↔ Reviewable setting.facts now b))
      (Unbroken fun s n => P s n ∧ Unanswered setting) := by
  unfold isReviewable
  split
  · next havailable =>
    rw [Bool.and_eq_true] at havailable
    cases howner : b.owner with
    | site =>
      refine Triple.pure fun s n hP => ⟨hP, fun _ => ⟨havailable.1, havailable.2, ?_⟩, fun _ => rfl⟩
      rw [howner]
      trivial
    | course c =>
      refine Triple.bind triple_askSource fun found => Triple.pure fun s n hP => ⟨hP.1, ?_⟩
      unfold Reviewable
      rw [howner]
      dsimp only
      rw [hP.2]
      cases found with
      | none => simp
      | some info => simp [havailable.1, havailable.2]
  · next havailable =>
    refine Triple.pure fun s n hP => ⟨hP, fun h => absurd h Bool.false_ne_true, fun h => ?_⟩
    rw [h.1, h.2.1] at havailable
    exact absurd rfl havailable

section Kept

variable [Store σ] {I : Assertion σ} {E : Cut ε → Assertion σ}

/-- A review of a learner keeps `I`, and if it breaks off `E` holds. -/
def ReviewKeeps (setting : Setting) (now : Instant) (I : Assertion σ) (E : Cut ε → Assertion σ)
    (b : Badge) (l : LearnerId) : Prop :=
  Triple setting I (Run.attempt (learner b l now) : Run σ ε (Except ReviewError Outcome))
    (fun _ => I) E

theorem triple_learners_of {ls : List LearnerId} (h : ∀ l ∈ ls, ReviewKeeps setting now I E b l) :
    Triple setting I (learners b now ls)
      (fun r s n => I s n ∧ r.badgesReviewed = 0 ∧ r.learnersEvaluated = ls.length) E := by
  induction ls with
  | nil => exact Triple.pure fun _ _ h => ⟨h, rfl, rfl⟩
  | cons l ls ih =>
    refine Triple.bind (h l List.mem_cons_self) fun outcome => ?_
    refine Triple.bind (ih fun l' hl' => h l' (List.mem_cons_of_mem _ hl')) fun rest => ?_
    refine Triple.pure fun s n hI => ⟨hI.1, ?_, ?_⟩
    · simp [hI.2.1]
    · simp [hI.2.2, Nat.add_comm]

/-- A badge that is reviewable is reviewed for all its candidates. It may also be passed over: if it
is not reviewable, or if a question about it is not answered. -/
theorem triple_badge_cases {Q : Report → Assertion σ}
    (hunanswered : Unanswered setting → ∀ e s n, I s n → Q (.ofBadgeFailure b.id e) s n)
    (hpassed : ¬ Reviewable setting.facts now b → ∀ s n, I s n → Q .empty s n)
    (hlearners : ∀ ls, Reviewable setting.facts now b → setting.facts (.candidates b) = .ok ls →
      Triple setting I (learners b now ls) (fun r => Q (.ofBadge + r)) E) :
    Triple setting I (badge b now) Q E := by
  refine Triple.bind_attempt triple_isReviewable (fun v => Triple.assume fun hreviewable => ?_)
    (fun e => Triple.pure fun s n h => hunanswered h.2 _ s n h.1) fun _ _ _ h => h.elim
  cases v with
  | false =>
    exact Triple.pure fun s n h => hpassed (fun hr => absurd (hreviewable.2 hr)
      Bool.false_ne_true) s n h
  | true =>
    refine Triple.bind_attempt triple_askSource (fun ls => Triple.assume fun hls => ?_)
      (fun e => Triple.pure fun s n h => hunanswered h.2 _ s n h.1) fun _ _ _ h => h.elim
    exact Triple.bind (hlearners ls (hreviewable.1 rfl) hls) fun report =>
      Triple.pure fun _ _ h => h

theorem triple_badge_of (h : Reviewable setting.facts now b → ∀ l ∈ candidatesOf setting.facts b,
      ReviewKeeps setting now I E b l) :
    Triple setting I (badge b now)
      (fun r s n => I s n ∧ (Unanswered setting ∨ r.Counts setting.facts now [b])) E := by
  refine triple_badge_cases (fun hunanswered _ _ _ hI => ⟨hI, .inl hunanswered⟩)
    (fun hnot _ _ hI => ⟨hI, .inr (.of_not_reviewable hnot)⟩) fun ls hreviewable hls => ?_
  have hcandidates : candidatesOf setting.facts b = ls := by rw [candidatesOf, hls]
  refine (triple_learners_of (hcandidates ▸ h hreviewable)).weaken (fun _ _ h => h)
    (fun r s n h => ⟨h.1, .inr (.of_reviewable hreviewable h.2.1 ?_)⟩) fun _ _ _ h => h
  rw [hcandidates]
  exact h.2.2

theorem triple_badges_of {bs : List Badge} (h : ∀ b ∈ bs, Reviewable setting.facts now b →
      ∀ l ∈ candidatesOf setting.facts b, ReviewKeeps setting now I E b l) :
    Triple setting I (badges now bs)
      (fun r s n => I s n ∧ (Unanswered setting ∨ r.Counts setting.facts now bs)) E := by
  induction bs with
  | nil => exact Triple.pure fun _ _ h => ⟨h, .inr .nil⟩
  | cons b bs ih =>
    refine Triple.bind (triple_badge_of (h b List.mem_cons_self)) fun report =>
      Triple.assume fun hone => ?_
    refine Triple.bind (ih fun d hd => h d (List.mem_cons_of_mem _ hd)) fun rest =>
      Triple.pure fun s n hI => ⟨hI.1, ?_⟩
    rcases hone with hunanswered | hcounts
    · exact .inl hunanswered
    · exact hI.2.imp_right hcounts.cons

theorem triple_pass_listed {Q : Report → Assertion σ} {E : Cut ReviewError → Assertion σ} {s : σ}
    {n : List Notice} {bs : List Badge} (hbs : Store.perform .badges s = .ok (bs, s))
    (hlost : ¬ setting.faults.SparesStore → ∀ e, E (.failed e) s n)
    (h : Triple setting (fun s' n' => s' = s ∧ n' = n) (badges now bs) Q E) :
    Triple setting (fun s' n' => s' = s ∧ n' = n) (pass now) Q E := by
  have hcall : Triple setting (fun s' n' => s' = s ∧ n' = n) (call .badges)
      (fun found s' n' => (s' = s ∧ n' = n) ∧ found = bs) E := by
    refine Triple.mapError (E := Unbroken fun s' n' =>
      (s' = s ∧ n' = n) ∧ ¬ setting.faults.SparesStore) (Triple.perform ?_ ?_) ?_
      fun _ _ _ h => h.elim
    · rintro e s' n' ⟨rfl, rfl⟩ (⟨history, hfault⟩ | hrefused)
      · refine ⟨⟨rfl, rfl⟩, fun hspared => ?_⟩
        rw [hspared history] at hfault
        cases hfault
      · rw [hbs] at hrefused
        cases hrefused
    · rintro history found s' s'' n' ⟨rfl, rfl⟩ hop
      rw [hbs] at hop
      cases hop
      exact ⟨⟨rfl, rfl⟩, rfl⟩
    · rintro e s' n' ⟨⟨rfl, rfl⟩, hfaulty⟩
      exact hlost hfaulty _
  refine Triple.bind hcall fun found => Triple.assume ?_
  rintro rfl
  exact h

/-- Where the store is spared, a pass gets the badges and reviews them. -/
theorem triple_pass_of {E : Cut ReviewError → Assertion σ} {s : σ} {n : List Notice}
    {bs : List Badge} (hspared : setting.faults.SparesStore)
    (hbs : Store.perform .badges s = .ok (bs, s)) (hI : I s n)
    (h : ∀ b ∈ bs, Reviewable setting.facts now b →
      ∀ l ∈ candidatesOf setting.facts b, ReviewKeeps setting now I E b l) :
    Triple setting (fun s' n' => s' = s ∧ n' = n) (pass now)
      (fun r s n => I s n ∧ (Unanswered setting ∨ r.Counts setting.facts now bs)) E :=
  triple_pass_listed hbs (fun hfaulty => absurd hspared hfaulty) ((triple_badges_of h).starting hI)

end Kept

end Review

end Badging
