import Badging.Proofs.Register
import Badging.Proofs.Store.Path
import Badging.Store.Ledger

/-!
# What an operation does to a ledger

`Effect s op a s'` lists, operation by operation, what an operation that was answered with `a` has
done to the ledger `s`, together with what it found there first. An operation that only reads and an
insert of a row that was there already leave the ledger as it was. An invariant of ledgers is proved
by going through these cases once.
-/

namespace Badging

namespace Ledger

/-- The ledger `s'` is what an operation made of the ledger `s` that was answered with `a`. -/
inductive Effect (s : Ledger) : (op : Operation) → op.Answer → Ledger → Prop
  | idle {op : Operation} {a : op.Answer} (h : Store.Idle op a) : Effect s op a s
  | insertBadge (new : NewBadge) :
      Effect s (.insertBadge new) (.ofNew ⟨s.lastBadge + 1⟩ new) { s with
        lastBadge := s.lastBadge + 1
        badges := s.badges.insert ⟨s.lastBadge + 1⟩ (.ofNew ⟨s.lastBadge + 1⟩ new) }
  | setStatus {id : BadgeId} {status : Status} {b : Badge} (h : s.badges.get? id = some b) :
      Effect s (.setStatus id status) () { s with
        badges := s.badges.insert id { b with status := status } }
  | deleteBadge {id : BadgeId} {b : Badge} (h : s.badges.get? id = some b) :
      Effect s (.deleteBadge id) () { s with
        badges := s.badges.erase id
        met := s.met.filter fun _ r => r.badge ≠ id
        manual := s.manual.filter fun k _ => k.fst ≠ id
        awards := s.awards.filter fun k _ => k.fst ≠ id }
  | addCriterion {id : BadgeId} {record : Criterion.Record} {b : Badge} {c : Criterion}
      (h : s.badges.get? id = some b) (hc : b.prepare ⟨s.lastCriterion + 1⟩ record = .ok c) :
      Effect s (.addCriterion id record) c { s with
        lastCriterion := s.lastCriterion + 1
        badges := s.badges.insert id { b with criteria := b.criteria ++ [c] } }
  | deleteCriterion {id : CriterionId} {key : BadgeId} {b : Badge}
      (h : s.ownerOf? id = some (key, b)) (hb : b.isEditable = true) :
      Effect s (.deleteCriterion id) () { s with
        badges := s.badges.insert key { b with criteria := b.criteria.filter (·.id ≠ id) }
        met := s.met.filter fun k _ => k.fst ≠ id }
  | markMet {r : MetRecord} {b : Badge} (h : s.badges.get? r.badge = some b)
      (hc : ∃ c ∈ b.criteria, c.id = r.criterion)
      (hr : s.met.get? ⟨r.criterion, r.learner⟩ = none) :
      Effect s (.markMet r) true { s with met := s.met.insert ⟨r.criterion, r.learner⟩ r }
  | recordManual {a : ManualAward} {b : Badge} (h : s.badges.get? a.badge = some b)
      (ha : s.manual.get? ⟨a.badge, a.recipient, a.issuerRole⟩ = none) :
      Effect s (.recordManual a) true { s with
        manual := s.manual.insert ⟨a.badge, a.recipient, a.issuerRole⟩ a }
  | insertAward {a : Award} {b : Badge} (h : s.badges.get? a.badge = some b)
      (ha : s.awards.get? ⟨a.badge, a.learner⟩ = none) :
      Effect s (.insertAward a) true { s with awards := s.awards.insert ⟨a.badge, a.learner⟩ a }

theorem Effect.eq_of_idle {op : Operation} {a : op.Answer} {s s' : Ledger} (h : Effect s op a s')
    (ha : Store.Idle op a) : s' = s := by
  cases h with
  | idle => rfl
  | _ => cases ha

theorem perform_insertAward_true_iff {a : Award} {s s' : Ledger} :
    perform (.insertAward a) s = .ok (true, s') ↔
      (∃ b, s.badges.get? a.badge = some b) ∧ s.awards.get? ⟨a.badge, a.learner⟩ = none ∧
        s' = { s with awards := s.awards.insert ⟨a.badge, a.learner⟩ a } := by
  rw [← Register.contains_eq_true_iff, ← Register.contains_eq_false_iff]
  show insertAward a s = .ok (true, s') ↔ _
  unfold insertAward
  cases hb : s.badges.contains a.badge with
  | false => simp
  | true =>
    cases ha : s.awards.contains ⟨a.badge, a.learner⟩ with
    | true => simp [ha]
    | false => simpa [ha] using eq_comm

theorem perform_markMet {r : MetRecord} {s : Ledger} {b : Badge}
    (h : s.badges.get? r.badge = some b) (hc : ∃ c ∈ b.criteria, c.id = r.criterion) :
    perform (.markMet r) s = .ok (if s.met.contains ⟨r.criterion, r.learner⟩ then (false, s)
      else (true, { s with met := s.met.insert ⟨r.criterion, r.learner⟩ r })) := by
  have hany : b.criteria.any (·.id == r.criterion) = true := by simpa using hc
  show markMet r s = _
  simp only [markMet, h, hany, if_true]
  split <;> rfl

theorem perform_insertAward {a : Award} {s : Ledger} {b : Badge}
    (h : s.badges.get? a.badge = some b) :
    perform (.insertAward a) s = .ok (if s.awards.contains ⟨a.badge, a.learner⟩ then (false, s)
      else (true, { s with awards := s.awards.insert ⟨a.badge, a.learner⟩ a })) := by
  have hcontains : s.badges.contains a.badge = true := Register.contains_eq_true_iff.2 ⟨b, h⟩
  show insertAward a s = _
  simp only [insertAward, hcontains, if_true]
  split <;> rfl

/-- Whatever is answered has one of the effects. -/
theorem effect_of_perform {op : Operation} {a : op.Answer} {s s' : Ledger}
    (h : perform op s = .ok (a, s')) : Effect s op a s' := by
  cases op with
  | insertBadge new =>
    simp only [perform, Except.ok.injEq] at h
    cases h
    exact .insertBadge new
  | badge | badges | criterionMet | metRecords | manualExists | award | awards =>
    cases h
    exact .idle rfl
  | setStatus id status =>
    simp only [perform, setStatus] at h
    cases hb : s.badges.get? id with
    | none => simp [hb, Except.map] at h
    | some b =>
      simp only [hb, Except.map, Except.ok.injEq, Prod.mk.injEq, true_and] at h
      exact h ▸ .setStatus hb
  | deleteBadge id =>
    simp only [perform, deleteBadge] at h
    cases hb : s.badges.get? id with
    | none => simp [hb, Except.map] at h
    | some b =>
      simp only [hb, Except.map, Except.ok.injEq, Prod.mk.injEq, true_and] at h
      exact h ▸ .deleteBadge hb
  | addCriterion id record =>
    simp only [perform, addCriterion] at h
    cases hb : s.badges.get? id with
    | none => simp [hb] at h
    | some b =>
      simp only [hb] at h
      cases hc : b.prepare ⟨s.lastCriterion + 1⟩ record with
      | error e => simp [hc] at h
      | ok c =>
        simp only [hc, Except.ok.injEq, Prod.mk.injEq] at h
        obtain ⟨rfl, rfl⟩ := h
        exact .addCriterion hb hc
  | deleteCriterion id =>
    simp only [perform, deleteCriterion] at h
    cases ho : s.ownerOf? id with
    | none => simp [ho, Except.map] at h
    | some e =>
      obtain ⟨key, b⟩ := e
      cases hb : b.isEditable with
      | false => simp [ho, hb, Except.map] at h
      | true =>
        simp only [ho, hb, Bool.not_true, Bool.false_eq_true, if_false, Except.map,
          Except.ok.injEq, Prod.mk.injEq, true_and] at h
        exact h ▸ .deleteCriterion ho hb
  | markMet r =>
    simp only [perform, markMet] at h
    cases hb : s.badges.get? r.badge with
    | none => simp [hb] at h
    | some b =>
      cases hc : b.criteria.any (·.id == r.criterion) with
      | false => simp [hb, hc] at h
      | true =>
        cases hr : s.met.contains ⟨r.criterion, r.learner⟩ with
        | true =>
          simp only [hb, hc, hr, if_true, Except.ok.injEq, Prod.mk.injEq] at h
          obtain ⟨rfl, rfl⟩ := h
          exact .idle rfl
        | false =>
          simp only [hb, hc, hr, if_true, Bool.false_eq_true, if_false, Except.ok.injEq,
            Prod.mk.injEq] at h
          obtain ⟨rfl, rfl⟩ := h
          refine .markMet hb ?_ (Register.contains_eq_false_iff.1 hr)
          simpa using hc
  | recordManual m =>
    simp only [perform, recordManual] at h
    cases hb : s.badges.contains m.badge with
    | false => simp [hb] at h
    | true =>
      obtain ⟨b, hb'⟩ := Register.contains_eq_true_iff.1 hb
      cases hr : s.manual.contains ⟨m.badge, m.recipient, m.issuerRole⟩ with
      | true =>
        simp only [hb, hr, if_true, Except.ok.injEq, Prod.mk.injEq] at h
        obtain ⟨rfl, rfl⟩ := h
        exact .idle rfl
      | false =>
        simp only [hb, hr, if_true, Bool.false_eq_true, if_false, Except.ok.injEq,
          Prod.mk.injEq] at h
        obtain ⟨rfl, rfl⟩ := h
        exact .recordManual hb' (Register.contains_eq_false_iff.1 hr)
  | insertAward w =>
    cases a with
    | true =>
      obtain ⟨⟨b, hb⟩, hw, rfl⟩ := perform_insertAward_true_iff.1 h
      exact .insertAward hb hw
    | false =>
      simp only [perform, insertAward] at h
      split at h
      · split at h
        · simp only [Except.ok.injEq, Prod.mk.injEq, true_and] at h
          exact h ▸ .idle rfl
        · simp at h
      · simp at h

end Ledger

end Badging
