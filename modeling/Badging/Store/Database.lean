import Badging.Store.Tables

/-!
# Databases

A database that was opened is a set of tables together with the right to change them. Without it,
every operation that would write is refused. What an operation reads before it writes, it still
reads: the criterion of a locked badge is refused for the lock, not for the missing right.
-/

namespace Badging

structure Database where
  tables : Tables
  isWritable : Bool
deriving DecidableEq, Repr

def StoreError.readOnly : StoreError := .unavailable "attempt to write a readonly database"

def Operation.isReading : Operation → Bool
  | .badge _ | .badges | .criterionMet _ _ | .metRecords _ _ | .manualExists _ _ _ | .award _ _
  | .awards _ => true
  | _ => false

/-- Whether an operation reads something before it writes, by which it can be refused. -/
def Operation.looksFirst : Operation → Bool
  | .addCriterion _ _ | .deleteCriterion _ | .recordManual _ => true
  | _ => false

namespace Database

def perform (op : Operation) (d : Database) : Except StoreError (op.Answer × Database) :=
  match Tables.perform op d.tables with
  | .ok (a, tables) =>
    if d.isWritable || op.isReading then .ok (a, { d with tables := tables })
    else .error .readOnly
  | .error e =>
    if d.isWritable || op.isReading || op.looksFirst then .error e else .error .readOnly

instance : Store Database := ⟨perform⟩

/-- With the right to write, a database is its tables. -/
theorem perform_of_isWritable {d : Database} (h : d.isWritable = true) (op : Operation) :
    d.perform op =
      (Tables.perform op d.tables).map fun p => (p.1, { d with tables := p.2 }) := by
  unfold perform
  rcases Tables.perform op d.tables with e | ⟨a, tables⟩ <;> simp [h, Except.map]

theorem tables_eq_of_isReading {op : Operation} {s s' : Tables} {a : op.Answer}
    (hop : op.isReading = true) (h : Tables.perform op s = .ok (a, s')) : s' = s := by
  have key {α : Type} {x : Except StoreError α} {b : α} (hx : x.map (·, s) = .ok (b, s')) :
      s' = s := by
    cases x with
    | error e => simp [Except.map] at hx
    | ok c =>
      simp only [Except.map, Except.ok.injEq, Prod.mk.injEq] at hx
      exact hx.2.symm
  cases op with
  | badge | badges | criterionMet | metRecords | award | awards => exact key h
  | manualExists =>
    simp only [Tables.perform, Except.ok.injEq, Prod.mk.injEq] at h
    exact h.2.symm
  | _ => simp [Operation.isReading] at hop

/-- Without the right to write, a database stays as it is. -/
theorem perform_of_not_isWritable {op : Operation} {d d' : Database} {a : op.Answer}
    (hd : d.isWritable = false) (h : d.perform op = .ok (a, d')) : d' = d := by
  unfold perform at h
  cases hp : Tables.perform op d.tables with
  | error e =>
    rw [hp] at h
    dsimp only at h
    split at h <;> simp at h
  | ok p =>
    obtain ⟨b, tables⟩ := p
    rw [hp] at h
    dsimp only at h
    split at h
    · next hr =>
      simp only [hd, Bool.false_or] at hr
      simp only [Except.ok.injEq, Prod.mk.injEq] at h
      rw [← h.2, tables_eq_of_isReading hr hp]
    · simp at h

end Database

end Badging
