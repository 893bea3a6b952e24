import Badging.Proofs.Store.Path
import Badging.Proofs.Store.Tables.Rows

/-!
# What an operation does to the tables

`Effect s op a s'` lists, operation by operation, what an operation that was answered with `a` has
done to the tables `s`, together with what it found there first. An operation that only reads and an
insert of a row that was there already leave the tables as they were.
-/

namespace Badging

namespace Tables

/-- The tables `s'` are what an operation made of the tables `s` that was answered with `a`. -/
inductive Effect (s : Tables) : (op : Operation) → op.Answer → Tables → Prop
  | idle {op : Operation} {a : op.Answer} (h : Store.Idle op a) : Effect s op a s
  | insertBadge (new : NewBadge) :
      Effect s (.insertBadge new) (.ofNew ⟨s.lastBadge + 1⟩ new) { s with
        lastBadge := s.lastBadge + 1
        badges := s.badges ++ [(Badge.ofNew ⟨s.lastBadge + 1⟩ new).row] }
  | setStatus {id : BadgeId} {status : Status} (h : ∃ r ∈ s.badges, r.id = id) :
      Effect s (.setStatus id status) () { s with
        badges := s.badges.map fun r => if r.id = id then { r with status := status.code } else r }
  | deleteBadge {id : BadgeId} (h : ∃ r ∈ s.badges, r.id = id) :
      Effect s (.deleteBadge id) () { s with
        badges := s.badges.filter (·.id ≠ id)
        criteria := s.criteria.filter (·.badge ≠ id)
        params := s.params.filter fun r => !s.belongs r.criterion id
        met := s.met.filter fun r => r.badge ≠ id && !s.belongs r.criterion id
        manual := s.manual.filter (·.badge ≠ id)
        issued := s.issued.filter (·.badge ≠ id) }
  | addCriterion {id : BadgeId} {record : Criterion.Record} {b : Badge} {c : Criterion}
      (h : s.badge? id = .ok (some b)) (hc : b.prepare ⟨0⟩ record = .ok c) :
      Effect s (.addCriterion id record) { c with id := ⟨s.lastCriterion + 1⟩ } { s with
        lastCriterion := s.lastCriterion + 1
        criteria := s.criteria ++ [⟨⟨s.lastCriterion + 1⟩, id, c.tag.code, c.method.code,
          c.description⟩]
        params := s.params ++ Criterion.paramRows { c with id := ⟨s.lastCriterion + 1⟩ } }
  | deleteCriterion {id : CriterionId} {row : CriterionRow} {b : Badge}
      (hrow : s.criteria.find? (·.id == id) = some row) (h : s.badge? row.badge = .ok (some b))
      (hb : b.isEditable = true) :
      Effect s (.deleteCriterion id) () { s with
        criteria := s.criteria.filter (·.id ≠ id)
        params := s.params.filter (·.criterion ≠ id)
        met := s.met.filter (·.criterion ≠ id) }
  | markMet {r : MetRecord} (hr : ∀ x ∈ s.met, x.criterion = r.criterion → x.learner ≠ r.learner)
      (hc : ∃ c ∈ s.criteria, c.id = r.criterion) (h : ∃ b ∈ s.badges, b.id = r.badge) :
      Effect s (.markMet r) true { s with met := s.met ++ [r.row] }
  | recordManual {a : ManualAward} {b : Badge} (h : s.badge? a.badge = .ok (some b))
      (ha : ∀ x ∈ s.manual, x.badge = a.badge → x.recipient = a.recipient →
        x.issuerRole ≠ a.issuerRole) :
      Effect s (.recordManual a) true { s with manual := s.manual ++ [a.row] }
  | insertAward {a : Award} (h : ∃ r ∈ s.badges, r.id = a.badge)
      (ha : s.issuedTo a.badge a.learner = []) (htoken : ∀ x ∈ s.issued, x.token ≠ a.token) :
      Effect s (.insertAward a) true { s with issued := s.issued ++ [a.row] }

variable {s s' : Tables}

theorem Effect.eq_of_idle {op : Operation} {a : op.Answer} (h : Effect s op a s')
    (ha : Store.Idle op a) : s' = s := by
  cases h with
  | idle => rfl
  | _ => cases ha

theorem exists_badge_iff {id : BadgeId} :
    s.badges.any (·.id == id) = true ↔ ∃ r ∈ s.badges, r.id = id := by
  simp

theorem issuedTo_eq_nil_iff {b : BadgeId} {l : LearnerId} :
    s.issuedTo b l = [] ↔ ∀ r ∈ s.issued, r.badge = b → r.learner ≠ l := by
  simp [issuedTo, List.filter_eq_nil_iff]

/-- An award is inserted exactly if its badge exists, has no award of the learner, and no award has
its token. -/
theorem perform_insertAward_true_iff {a : Award} :
    perform (.insertAward a) s = .ok (true, s') ↔
      (∃ r ∈ s.badges, r.id = a.badge) ∧ s.issuedTo a.badge a.learner = [] ∧
        (∀ x ∈ s.issued, x.token ≠ a.token) ∧ s' = { s with issued := s.issued ++ [a.row] } := by
  rw [issuedTo_eq_nil_iff, ← exists_badge_iff]
  show insertAward a s = .ok (true, s') ↔ _
  unfold insertAward
  split
  · next htaken =>
    obtain ⟨x, hx, heq⟩ := List.any_eq_true.1 htaken
    simp only [Except.ok.injEq, Prod.mk.injEq, Bool.false_eq_true, false_and, false_iff]
    rintro ⟨-, hrow, htoken, -⟩
    simp only [Bool.or_eq_true, beq_iff_eq, Bool.and_eq_true] at heq
    rcases heq with heq | ⟨hb, hl⟩
    · exact htoken x hx heq
    · exact hrow x hx hb hl
  · next hfree =>
    have hfree' : ∀ x ∈ s.issued, x.token ≠ a.token ∧ (x.badge = a.badge → x.learner ≠ a.learner) :=
      fun x hx => by
        have hx' : ¬ (x.token == a.token || (x.badge == a.badge && x.learner == a.learner)) =
            true := fun h => hfree (List.any_eq_true.2 ⟨x, hx, h⟩)
        simpa only [Bool.or_eq_true, beq_iff_eq, Bool.and_eq_true, not_or, not_and] using hx'
    split
    · next hbadge =>
      simp only [Except.ok.injEq, Prod.mk.injEq, true_and, hbadge]
      constructor
      · rintro rfl
        exact ⟨fun x hx => (hfree' x hx).2, fun x hx => (hfree' x hx).1, rfl⟩
      · rintro ⟨-, -, rfl⟩
        rfl
    · next hbadge => simp [hbadge]

theorem effect_of_perform {op : Operation} {a : op.Answer} (h : perform op s = .ok (a, s')) :
    Effect s op a s' := by
  have hread {α : Type} {x : Except StoreError α} {b : α} (hx : x.map (·, s) = .ok (b, s')) :
      s' = s := by
    cases x with
    | error e => simp [Except.map] at hx
    | ok c =>
      simp only [Except.map, Except.ok.injEq, Prod.mk.injEq] at hx
      exact hx.2.symm
  cases op with
  | insertBadge new =>
    simp only [perform, insertBadge_eq, Except.ok.injEq] at h
    cases h
    exact .insertBadge new
  | badge | badges | criterionMet | metRecords | award | awards =>
    rw [hread h]
    exact .idle rfl
  | manualExists =>
    cases h
    exact .idle rfl
  | setStatus id status =>
    simp only [perform, setStatus] at h
    split at h
    · next hid =>
      simp only [Except.map, Except.ok.injEq, Prod.mk.injEq, true_and] at h
      exact h ▸ .setStatus (exists_badge_iff.1 hid)
    · cases h
  | deleteBadge id =>
    simp only [perform, deleteBadge] at h
    split at h
    · next hid =>
      simp only [Except.map, Except.ok.injEq, Prod.mk.injEq, true_and] at h
      exact h ▸ .deleteBadge (exists_badge_iff.1 hid)
    · cases h
  | addCriterion id record =>
    simp only [perform, addCriterion] at h
    split at h
    · cases h
    · cases h
    · next b hb =>
      split at h
      · cases h
      · next c hc =>
        simp only [Except.ok.injEq, Prod.mk.injEq] at h
        obtain ⟨rfl, rfl⟩ := h
        exact .addCriterion (c := c) hb hc
  | deleteCriterion id =>
    simp only [perform, deleteCriterion] at h
    split at h
    · cases h
    · next row hrow =>
      split at h
      · cases h
      · cases h
      · next b hb =>
        cases he : b.isEditable with
        | false => simp [he, Except.map] at h
        | true =>
          simp only [he, Bool.not_true, Bool.false_eq_true, if_false, Except.map, Except.ok.injEq,
            Prod.mk.injEq, true_and] at h
          exact h ▸ .deleteCriterion hrow hb he
  | markMet r =>
    simp only [perform, markMet] at h
    split at h
    · simp only [Except.ok.injEq, Prod.mk.injEq] at h
      obtain ⟨rfl, rfl⟩ := h
      exact .idle rfl
    · next hfree =>
      split at h
      · next hexist =>
        simp only [Except.ok.injEq, Prod.mk.injEq] at h
        simp only [Bool.and_eq_true, List.any_eq_true, beq_iff_eq] at hexist
        obtain ⟨rfl, rfl⟩ := h
        refine .markMet ?_ hexist.1 hexist.2
        simpa using hfree
      · cases h
  | recordManual m =>
    simp only [perform, recordManual] at h
    split at h
    · cases h
    · cases h
    · next b hb =>
      split at h
      · simp only [Except.ok.injEq, Prod.mk.injEq] at h
        obtain ⟨rfl, rfl⟩ := h
        exact .idle rfl
      · next hfree =>
        simp only [Except.ok.injEq, Prod.mk.injEq] at h
        obtain ⟨rfl, rfl⟩ := h
        refine .recordManual hb ?_
        simpa using hfree
  | insertAward w =>
    cases a with
    | true =>
      obtain ⟨hb, hw, htoken, rfl⟩ := perform_insertAward_true_iff.1 h
      exact .insertAward hb hw htoken
    | false =>
      simp only [perform, insertAward] at h
      split at h
      · simp only [Except.ok.injEq, Prod.mk.injEq, true_and] at h
        exact h ▸ .idle rfl
      · split at h
        · simp at h
        · cases h

end Tables

end Badging
