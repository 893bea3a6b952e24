import Badging.Proofs.Store.Mirror
import Badging.Store.Database

/-!
# Lookups

A lookup is an operation that only reads. A ledger answers every lookup, and tables that mirror it
answer with the same in the form in which it is read back. So what a change of a store does to all
lookups need only be found out for ledgers: `Store.AnswersBy f` says that a change makes `f op a` of
each answer `a`, and it carries over to tables when `f` respects the form.
-/

namespace Badging

/-- The answer to a lookup in the form in which tables read it back. -/
def Operation.shown : (op : Operation) → op.Answer → op.Answer
  | .badge _, b? => b?.map Badge.rebuilt
  | .badges, bs => bs.map Badge.rebuilt
  | .criterionMet _ _, r? => r?.map MetRecord.wholeSeconds
  | .metRecords _ _, rs => rs.map MetRecord.wholeSeconds
  | .award _ _, a? => a?.map Award.wholeSeconds
  | .awards _, as => as.map Award.wholeSeconds
  | _, a => a

/-- Every lookup is answered in both states, in the second with what `f` makes of the answer in the
first. -/
def Store.AnswersBy {σ : Type} [Store σ] (f : (op : Operation) → op.Answer → op.Answer)
    (s s' : σ) : Prop :=
  ∀ op : Operation, op.isReading = true →
    ∃ a, perform op s = .ok (a, s) ∧ perform op s' = .ok (f op a, s')

namespace Ledger

variable {s s' : Ledger} {f : (op : Operation) → op.Answer → op.Answer}

theorem exists_answer {op : Operation} (hop : op.isReading = true) (s : Ledger) :
    ∃ a, perform op s = .ok (a, s) := by
  cases op with
  | badge | badges | criterionMet | metRecords | manualExists | award | awards => exact ⟨_, rfl⟩
  | _ => cases hop

theorem answersBy (h : ∀ {op a a'}, op.isReading = true → perform op s = .ok (a, s) →
    perform op s' = .ok (a', s') → a' = f op a) : Store.AnswersBy f s s' := by
  intro op hop
  obtain ⟨a, ha⟩ := exists_answer hop s
  obtain ⟨a', ha'⟩ := exists_answer hop s'
  refine ⟨a, ha, ?_⟩
  rw [← h hop ha ha']
  exact ha'

end Ledger

namespace Mirrors

variable {s s' : Ledger} {t t' : Tables}

theorem lookup (M : Mirrors s t) (op : Operation) (hop : op.isReading = true) {a : op.Answer}
    (h : Ledger.perform op s = .ok (a, s)) : Tables.perform op t = .ok (op.shown a, t) := by
  have hbadges := M.sound.toBadgesSound
  have hrows := M.sound.toRowsSound
  cases op with
  | badge id =>
    cases h
    show (t.badge? id).map (·, t) = _
    rw [M.badge?_eq hbadges]
    rfl
  | badges =>
    cases h
    show (t.badges.mapM t.readBadge).map (·, t) = _
    rw [M.mapM_readBadge hbadges]
    rfl
  | criterionMet c l =>
    cases h
    show (t.criterionMet c l).map (·, t) = _
    rw [M.toMirrorsRows.criterionMet_eq hrows]
    rfl
  | metRecords b l =>
    cases h
    show (t.metRecords b l).map (·, t) = _
    rw [M.toMirrorsRows.metRecords_eq hrows]
    rfl
  | manualExists b l r =>
    cases h
    show Except.ok (t.manualExists b l r, t) = _
    rw [Tables.manualExists, M.toMirrorsRows.any_manual hrows]
    rfl
  | award b l =>
    cases h
    show (t.award? b l).map (·, t) = _
    rw [M.toMirrorsRows.award?_eq hrows]
    rfl
  | awards b =>
    cases h
    show (t.awardsOf b).map (·, t) = _
    rw [M.toMirrorsRows.awardsOf_eq hrows]
    rfl
  | _ => cases hop

/-- What a change does to the lookups of a ledger it does to those of the tables. -/
theorem answersBy (M : Mirrors s t) (M' : Mirrors s' t')
    {f f' : (op : Operation) → op.Answer → op.Answer}
    (hf : ∀ op a, op.shown (f op a) = f' op (op.shown a)) (h : Store.AnswersBy f s s') :
    Store.AnswersBy f' t t' := by
  intro op hop
  obtain ⟨a, ha, ha'⟩ := h op hop
  refine ⟨op.shown a, M.lookup op hop ha, ?_⟩
  rw [← hf]
  exact M'.lookup op hop ha'

end Mirrors

end Badging
