import Badging.Store.Operation

/-!
# The ledger

A ledger is a store in memory: a register for each sort of row, keyed by what makes a row
unique, and the last identities that were given out. Identities are given out in ascending
order and never again, since the counters only move forward. An operation that is refused
gives no identity away.
-/

namespace Badging

/-- Badges and rows, each under the key that makes it unique. -/
structure Ledger where
  lastBadge : Int
  lastCriterion : Int
  badges : Register BadgeId Badge
  met : Register (Pair CriterionId LearnerId) MetRecord
  manual : Register (Pair BadgeId (Pair LearnerId RoleId)) ManualAward
  awards : Register (Pair BadgeId LearnerId) Award
deriving DecidableEq

namespace Ledger

def empty : Ledger := ⟨0, 0, .empty, .empty, .empty, .empty⟩

instance : Inhabited Ledger := ⟨empty⟩

def insertBadge (new : NewBadge) (s : Ledger) : Badge × Ledger :=
  let id : BadgeId := ⟨s.lastBadge + 1⟩
  let badge := Badge.ofNew id new
  (badge, { s with lastBadge := id.val, badges := s.badges.insert id badge })

def setStatus (id : BadgeId) (status : Status) (s : Ledger) : Except StoreError Ledger :=
  match s.badges.get? id with
  | none => .error .notFound
  | some b => .ok { s with badges := s.badges.insert id { b with status := status } }

/-- Removes a badge with all its rows. -/
def deleteBadge (id : BadgeId) (s : Ledger) : Except StoreError Ledger :=
  match s.badges.get? id with
  | none => .error .notFound
  | some _ =>
    .ok { s with
      badges := s.badges.erase id
      met := s.met.filter fun _ r => r.badge ≠ id
      manual := s.manual.filter fun k _ => k.fst ≠ id
      awards := s.awards.filter fun k _ => k.fst ≠ id }

def addCriterion (badge : BadgeId) (record : Criterion.Record) (s : Ledger) :
    Except StoreError (Criterion × Ledger) :=
  match s.badges.get? badge with
  | none => .error .notFound
  | some b =>
    let id : CriterionId := ⟨s.lastCriterion + 1⟩
    match b.prepare id record with
    | .error e => .error e
    | .ok c =>
      let grown := { b with criteria := b.criteria ++ [c] }
      .ok (c, { s with lastCriterion := id.val, badges := s.badges.insert badge grown })

def ownerOf? (id : CriterionId) (s : Ledger) : Option (BadgeId × Badge) :=
  s.badges.entries.find? fun e => e.2.criteria.any (·.id == id)

/-- Removes a criterion from its badge, with its met records. -/
def deleteCriterion (id : CriterionId) (s : Ledger) : Except StoreError Ledger :=
  match s.ownerOf? id with
  | none => .error .notFound
  | some (key, b) =>
    if !b.isEditable then .error (.locked b.id)
    else
      let shrunk := { b with criteria := b.criteria.filter (·.id ≠ id) }
      .ok { s with
        badges := s.badges.insert key shrunk
        met := s.met.filter fun k _ => k.fst ≠ id }

def metRecords (badge : BadgeId) (learner : LearnerId) (s : Ledger) : List MetRecord :=
  s.met.values.filter fun r => r.badge == badge && r.learner == learner

/-- Adds a met record, whose criterion has to be one of its badge's. -/
def markMet (r : MetRecord) (s : Ledger) : Except StoreError (Bool × Ledger) :=
  match s.badges.get? r.badge with
  | none => .error .notFound
  | some b =>
    if b.criteria.any (·.id == r.criterion) then
      let key : Pair CriterionId LearnerId := ⟨r.criterion, r.learner⟩
      if s.met.contains key then .ok (false, s)
      else .ok (true, { s with met := s.met.insert key r })
    else .error .notFound

def recordManual (a : ManualAward) (s : Ledger) : Except StoreError (Bool × Ledger) :=
  if s.badges.contains a.badge then
    let key : Pair BadgeId (Pair LearnerId RoleId) := ⟨a.badge, a.recipient, a.issuerRole⟩
    if s.manual.contains key then .ok (false, s)
    else .ok (true, { s with manual := s.manual.insert key a })
  else .error .notFound

def awardsOf (badge : BadgeId) (s : Ledger) : List Award :=
  s.awards.values.filter (·.badge == badge)

def insertAward (a : Award) (s : Ledger) : Except StoreError (Bool × Ledger) :=
  if s.badges.contains a.badge then
    let key : Pair BadgeId LearnerId := ⟨a.badge, a.learner⟩
    if s.awards.contains key then .ok (false, s)
    else .ok (true, { s with awards := s.awards.insert key a })
  else .error .notFound

def perform : (op : Operation) → Ledger → Except StoreError (op.Answer × Ledger)
  | .insertBadge new, s => .ok (s.insertBadge new)
  | .badge id, s => .ok (s.badges.get? id, s)
  | .badges, s => .ok (s.badges.values, s)
  | .setStatus id status, s => (s.setStatus id status).map (((), ·))
  | .deleteBadge id, s => (s.deleteBadge id).map (((), ·))
  | .addCriterion badge record, s => s.addCriterion badge record
  | .deleteCriterion id, s => (s.deleteCriterion id).map (((), ·))
  | .criterionMet c l, s => .ok (s.met.get? ⟨c, l⟩, s)
  | .metRecords b l, s => .ok (s.metRecords b l, s)
  | .markMet r, s => s.markMet r
  | .recordManual a, s => s.recordManual a
  | .manualExists b l r, s => .ok (s.manual.contains ⟨b, l, r⟩, s)
  | .award b l, s => .ok (s.awards.get? ⟨b, l⟩, s)
  | .awards b, s => .ok (s.awardsOf b, s)
  | .insertAward a, s => s.insertAward a

instance : Store Ledger := ⟨perform⟩

end Ledger

end Badging
