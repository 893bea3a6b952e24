import Badging.Proofs.Criterion.RoundTrip
import Badging.Proofs.Store.Tables.Rows

/-!
# Answers of two kinds of stores

Tables answer with what their rows hold: times in whole seconds, and criteria that are built again
from rendered records. `Operation.reread` makes any answer into one of this sort, and two outcomes
agree if they are the same error or answers that are reread as one. What is stored of a criterion is
legible, so a row that was written is always read, and as the reread form of what it was written
for.
-/

namespace Badging

def Expiry.wholeSeconds : Expiry → Expiry
  | .onDate t => .onDate t.wholeSeconds
  | e => e

def MetRecord.wholeSeconds (r : MetRecord) : MetRecord := { r with metAt := r.metAt.wholeSeconds }

def Award.wholeSeconds (a : Award) : Award :=
  { a with
    issuedAt := a.issuedAt.wholeSeconds
    expiresAt := a.expiresAt.map Instant.wholeSeconds }

theorem Award.wholeSeconds_comp : Award.wholeSeconds ∘ Award.wholeSeconds = Award.wholeSeconds := by
  funext a
  obtain ⟨badge, learner, issuedAt, expiresAt, token, visible⟩ := a
  cases expiresAt <;> rfl

/-- The badge with its date in whole seconds and each criterion built again from its record. -/
def Badge.reread (b : Badge) : Except Criterion.Error Badge :=
  (b.criteria.mapM Criterion.rebuild).map fun cs =>
    { b with expiry := b.expiry.wholeSeconds, criteria := cs }

/-- The answer with times in whole seconds and each criterion built again from its record. -/
def Operation.reread : (op : Operation) → op.Answer → Except Criterion.Error op.Answer
  | .insertBadge _, b => b.reread
  | .badge _, none => .ok none
  | .badge _, some b => b.reread.map some
  | .badges, bs => bs.mapM Badge.reread
  | .addCriterion _ _, c => c.rebuild
  | .criterionMet _ _, r? => .ok (r?.map MetRecord.wholeSeconds)
  | .metRecords _ _, rs => .ok (rs.map MetRecord.wholeSeconds)
  | .award _ _, a? => .ok (a?.map Award.wholeSeconds)
  | .awards _, as => .ok (as.map Award.wholeSeconds)
  | .setStatus _ _, a => .ok a
  | .deleteBadge _, a => .ok a
  | .deleteCriterion _, a => .ok a
  | .markMet _, a => .ok a
  | .recordManual _, a => .ok a
  | .manualExists _ _ _, a => .ok a
  | .insertAward _, a => .ok a

/-- Outcomes that say the same: one error, or answers that are reread as one. -/
inductive Operation.Agree (op : Operation) :
    Except StoreError op.Answer → Except StoreError op.Answer → Prop
  | answer {a a' b : op.Answer} (h : op.reread a = .ok b) (h' : op.reread a' = .ok b) :
      Agree op (.ok a) (.ok a')
  | refusal (e : StoreError) : Agree op (.error e) (.error e)

/-- A badge whose criteria can all be stated by records. -/
def Badge.Legible (b : Badge) : Prop := ∀ c ∈ b.criteria, c.kind.Legible

def Badge.rebuilt (b : Badge) : Badge :=
  { b with expiry := b.expiry.wholeSeconds, criteria := b.criteria.map Criterion.rebuilt }

namespace Badge

variable {b : Badge}

theorem mapM_rebuild (h : b.Legible) :
    b.criteria.mapM Criterion.rebuild = .ok (b.criteria.map Criterion.rebuilt) :=
  mapM_eq_ok_map fun c hc => Criterion.rebuild_eq (h c hc)

theorem reread_eq (h : b.Legible) : b.reread = .ok b.rebuilt := by
  rw [reread, mapM_rebuild h]
  rfl

theorem Legible.rebuilt (h : b.Legible) : b.rebuilt.Legible := by
  intro c' hc'
  obtain ⟨c, hc, rfl⟩ := List.mem_map.1 hc'
  exact (Criterion.Kind.rebuilt_spec (h c hc)).2.2

theorem rebuilt_rebuilt (h : b.Legible) : b.rebuilt.rebuilt = b.rebuilt := by
  have hcriteria : (b.criteria.map Criterion.rebuilt).map Criterion.rebuilt =
      b.criteria.map Criterion.rebuilt := by
    rw [List.map_map]
    exact List.map_congr_left fun c hc => Criterion.rebuilt_rebuilt (h c hc)
  have hexpiry : b.expiry.wholeSeconds.wholeSeconds = b.expiry.wholeSeconds := by
    cases b.expiry <;> rfl
  simp only [Badge.rebuilt, hcriteria, hexpiry]

theorem reread_rebuilt (h : b.Legible) : b.rebuilt.reread = .ok b.rebuilt := by
  rw [reread_eq h.rebuilt, rebuilt_rebuilt h]

theorem isSome_overall?_rebuilt (h : b.Legible) :
    b.rebuilt.overall?.isSome = b.overall?.isSome := by
  have hmem : (∃ c ∈ b.rebuilt.criteria, c.isOverall = true) ↔
      ∃ c ∈ b.criteria, c.isOverall = true := by
    constructor
    · rintro ⟨c', hc', ho⟩
      obtain ⟨c, hc, rfl⟩ := List.mem_map.1 hc'
      exact ⟨c, hc, by rwa [Criterion.isOverall_rebuilt (h c hc)] at ho⟩
    · rintro ⟨c, hc, ho⟩
      refine ⟨c.rebuilt, List.mem_map.2 ⟨c, hc, rfl⟩, ?_⟩
      rwa [Criterion.isOverall_rebuilt (h c hc)]
  rw [Bool.eq_iff_iff, overall?_isSome_iff, overall?_isSome_iff, hmem]

/-- Whether a criterion may be added to a badge can be asked of what was read back, and under any
identity. -/
theorem prepare_rebuilt (h : b.Legible) (id id' : CriterionId) (r : Criterion.Record) :
    b.rebuilt.prepare id' r = (b.prepare id r).map fun c => { c with id := id' } := by
  have hread : Criterion.ofRecord id' b.id r =
      (Criterion.ofRecord id b.id r).map fun c => { c with id := id' } := by
    unfold Criterion.ofRecord
    cases Criterion.Tag.parse r.criterionType with
    | error e => rfl
    | ok tag =>
      dsimp only [bind, Except.bind]
      cases Criterion.Kind.ofParams tag r.params <;> rfl
  have hid : b.rebuilt.id = b.id := rfl
  have hstatus : b.rebuilt.isEditable = b.isEditable := rfl
  simp only [prepare, hid, hstatus, hread, isSome_overall?_rebuilt h]
  split
  · rfl
  · cases Criterion.ofRecord id b.id r with
    | error e => rfl
    | ok c =>
      have hoverall : Criterion.isOverall { c with id := id' } = c.isOverall := rfl
      simp only [Except.map, hoverall]
      split <;> rfl

theorem prepare_ne_unavailable {id : CriterionId} {r : Criterion.Record} {reason : String} :
    b.prepare id r ≠ .error (.unavailable reason) := by
  intro h
  unfold prepare at h
  split at h
  · cases h
  · split at h
    · cases h
    · split at h <;> cases h

end Badge

namespace Tables

theorem readInstant_seconds (t : Instant) : readInstant t.seconds = .ok t.wholeSeconds := by
  simp [readInstant]

theorem MetRow.read_row (r : MetRecord) : r.row.read = .ok r.wholeSeconds := by
  simp only [MetRow.read, MetRecord.row, readInstant_seconds]
  rfl

theorem IssuedRow.read_row (a : Award) : a.row.read = .ok a.wholeSeconds := by
  obtain ⟨badge, learner, issuedAt, expiresAt, token, visible⟩ := a
  simp only [IssuedRow.read, Award.row, readInstant_seconds]
  cases expiresAt with
  | none => rfl
  | some t =>
    simp only [Option.map_some, readOptionalInstant, readInstant_seconds]
    rfl

theorem BadgeRow.read_row (b : Badge) (cs : List Criterion) :
    b.row.read cs = .ok { b with expiry := b.expiry.wholeSeconds, criteria := cs } := by
  obtain ⟨id, name, owner, status, expiry, criteria⟩ := b
  simp only [BadgeRow.read, Badge.row, Status.ofCode?_code]
  cases expiry with
  | onDate t =>
    simp only [BadgeRow.expiry, Expiry.columns, readInstant_seconds]
    cases owner <;> rfl
  | never | afterPeriod n => cases owner <;> rfl

theorem CriterionRow.read_row {c : Criterion} (h : c.kind.Legible) :
    c.row.read c.kind.params = .ok c.rebuilt := by
  have hread : Criterion.ofRecord c.id c.badge
      ⟨Number.integerText c.tag.code, c.method, c.description, c.kind.params⟩ = .ok c.rebuilt :=
    Criterion.ofRecord_of_params h (Criterion.Tag.parse_codeText c.tag)
  have hmethod : Method.ofCode? c.method.code = some c.method := by
    cases c.method <;> rfl
  simp only [CriterionRow.read, Criterion.row, hmethod, hread]

end Tables

end Badging
