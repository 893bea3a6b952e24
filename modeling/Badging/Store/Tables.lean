import Badging.Store.Operation

/-!
# The tables

A relational store: six tables of rows that hold numbers and texts only. Times are whole
seconds, statuses, types and methods are codes, and a criterion is a row and one row for each
parameter of its record. So what is read differs from what was written in two ways: an instant
has lost the part below a second, and a criterion is the one that its rendered record
builds.

Rows are listed in the order in which they were inserted, which for badges and criteria is the
order of their identities. Deleting a row deletes the rows that refer to it. An insert that
would repeat a unique key is answered with `false`, before it is asked whether the rows that it
refers to exist. The unique keys of awards are two: the badge with the learner, and the
token alone.

Reading can fail, since a column could hold a number that stands for nothing.
-/

namespace Badging

namespace Tables

/-- A row of the badges: the owner and the policy in nullable columns. -/
structure BadgeRow where
  id : BadgeId
  name : String
  course : Option CourseId
  status : Nat
  expireDate : Option Int
  expirePeriod : Option Int
deriving DecidableEq, Repr

structure CriterionRow where
  id : CriterionId
  badge : BadgeId
  tag : Nat
  method : Nat
  description : Option String
deriving DecidableEq, Repr

structure ParamRow where
  criterion : CriterionId
  name : String
  value : String
deriving DecidableEq, Repr

structure MetRow where
  criterion : CriterionId
  badge : BadgeId
  learner : LearnerId
  metAt : Int
deriving DecidableEq, Repr

structure ManualRow where
  badge : BadgeId
  recipient : LearnerId
  issuer : LearnerId
  issuerRole : RoleId
  awardedAt : Int
deriving DecidableEq, Repr

structure IssuedRow where
  badge : BadgeId
  learner : LearnerId
  token : String
  issuedAt : Int
  expiresAt : Option Int
  visible : Bool
deriving DecidableEq, Repr

end Tables

open Tables in
/-- The tables, and the last identities that were given out. -/
structure Tables where
  lastBadge : Int
  lastCriterion : Int
  badges : List BadgeRow
  criteria : List CriterionRow
  params : List ParamRow
  met : List MetRow
  manual : List ManualRow
  issued : List IssuedRow
deriving DecidableEq, Repr

namespace Tables

def empty : Tables := ⟨0, 0, [], [], [], [], [], []⟩

instance : Inhabited Tables := ⟨empty⟩

/-- Puts a row in front of the first one with a larger key. -/
def insertBy {ρ : Type} (key : ρ → Int) (r : ρ) : List ρ → List ρ
  | [] => [r]
  | x :: xs => if key r ≤ key x then r :: x :: xs else x :: insertBy key r xs

/-- Rows in ascending order of a key; rows with equal keys stay in order. -/
def orderBy {ρ : Type} (key : ρ → Int) : List ρ → List ρ
  | [] => []
  | r :: rs => insertBy key r (orderBy key rs)

def readInstant (seconds : Int) : Except StoreError Instant :=
  match Instant.ofSeconds? seconds with
  | some t => .ok t
  | none => .error (.unavailable ("invalid stored timestamp " ++ Number.integerText seconds))

def readOptionalInstant : Option Int → Except StoreError (Option Instant)
  | none => .ok none
  | some seconds => (readInstant seconds).map some

def MetRow.read (r : MetRow) : Except StoreError MetRecord :=
  (readInstant r.metAt).map fun t => ⟨r.criterion, r.badge, r.learner, t⟩

def IssuedRow.read (r : IssuedRow) : Except StoreError Award := do
  let issuedAt ← readInstant r.issuedAt
  let expiresAt ← readOptionalInstant r.expiresAt
  return ⟨r.badge, r.learner, issuedAt, expiresAt, r.token, r.visible⟩

/-- The policy that the columns of a badge hold; a date counts before a period. -/
def BadgeRow.expiry (r : BadgeRow) : Except StoreError Expiry :=
  match r.expireDate, r.expirePeriod with
  | some date, _ => (readInstant date).map .onDate
  | none, some seconds => .ok (.afterPeriod seconds)
  | none, none => .ok .never

def BadgeRow.read (r : BadgeRow) (criteria : List Criterion) : Except StoreError Badge :=
  match Status.ofCode? r.status with
  | none =>
    .error (.unavailable
      ("badge " ++ r.id.text ++ " has unknown status " ++ Number.integerText r.status))
  | some status => do
    let expiry ← r.expiry
    let owner := match r.course with
      | none => .site
      | some c => .course c
    return ⟨r.id, r.name, owner, status, expiry, criteria⟩

def paramsOf (s : Tables) (c : CriterionId) : Register String String :=
  .ofList ((s.params.filter (·.criterion == c)).map fun p => (p.name, p.value))

def CriterionRow.read (r : CriterionRow) (params : Register String String) :
    Except StoreError Criterion :=
  match Method.ofCode? r.method with
  | none =>
    .error (.unavailable
      ("criterion " ++ r.id.text ++ " has unknown method " ++ Number.integerText r.method))
  | some method =>
    match Criterion.ofRecord r.id r.badge
        ⟨Number.integerText r.tag, method, r.description, params⟩ with
    | .error e => .error (.criterion e)
    | .ok c => .ok c

def criteriaOf (s : Tables) (b : BadgeId) : Except StoreError (List Criterion) :=
  (s.criteria.filter (·.badge == b)).mapM fun r => r.read (s.paramsOf r.id)

def readBadge (s : Tables) (r : BadgeRow) : Except StoreError Badge := do
  let criteria ← s.criteriaOf r.id
  r.read criteria

def badge? (s : Tables) (id : BadgeId) : Except StoreError (Option Badge) :=
  match s.badges.find? (·.id == id) with
  | none => .ok none
  | some r => (s.readBadge r).map some

def insertBadge (new : NewBadge) (s : Tables) : Badge × Tables :=
  let id : BadgeId := ⟨s.lastBadge + 1⟩
  let course := match new.owner with
    | .site => none
    | .course c => some c
  let (expireDate, expirePeriod) := match new.expiry with
    | .never => (none, none)
    | .onDate t => (some t.seconds, none)
    | .afterPeriod n => (none, some n)
  let row : BadgeRow := ⟨id, new.name, course, Status.draft.code, expireDate, expirePeriod⟩
  (Badge.ofNew id new, { s with lastBadge := id.val, badges := s.badges ++ [row] })

def setStatus (id : BadgeId) (status : Status) (s : Tables) : Except StoreError Tables :=
  if s.badges.any (·.id == id) then
    .ok { s with badges := s.badges.map fun r =>
      if r.id = id then { r with status := status.code } else r }
  else .error .notFound

/-- Removes a badge and the rows that refer to it or to its criteria. -/
def deleteBadge (id : BadgeId) (s : Tables) : Except StoreError Tables :=
  if s.badges.any (·.id == id) then
    let gone (c : CriterionId) : Bool := s.criteria.any fun r => r.id == c && r.badge == id
    .ok { s with
      badges := s.badges.filter (·.id ≠ id)
      criteria := s.criteria.filter (·.badge ≠ id)
      params := s.params.filter fun r => !gone r.criterion
      met := s.met.filter fun r => r.badge ≠ id && !gone r.criterion
      manual := s.manual.filter (·.badge ≠ id)
      issued := s.issued.filter (·.badge ≠ id) }
  else .error .notFound

/-- Adds a criterion to a badge under the next identity. The answer is the criterion as it was
given; the rows hold its rendered record. -/
def addCriterion (badge : BadgeId) (record : Criterion.Record) (s : Tables) :
    Except StoreError (Criterion × Tables) :=
  match s.badge? badge with
  | .error e => .error e
  | .ok none => .error .notFound
  | .ok (some b) =>
    match b.prepare ⟨0⟩ record with
    | .error e => .error e
    | .ok prepared =>
      let id : CriterionId := ⟨s.lastCriterion + 1⟩
      let c := { prepared with id := id }
      let row : CriterionRow := ⟨id, badge, c.tag.code, c.method.code, c.description⟩
      let params := c.toRecord.params.entries.map fun e => ⟨id, e.1, e.2⟩
      .ok (c, { s with
        lastCriterion := id.val
        criteria := s.criteria ++ [row]
        params := s.params ++ params })

def deleteCriterion (id : CriterionId) (s : Tables) : Except StoreError Tables :=
  match s.criteria.find? (·.id == id) with
  | none => .error .notFound
  | some row =>
    match s.badge? row.badge with
    | .error e => .error e
    | .ok none => .error .notFound
    | .ok (some b) =>
      if !b.isEditable then .error (.locked row.badge)
      else
        .ok { s with
          criteria := s.criteria.filter (·.id ≠ id)
          params := s.params.filter (·.criterion ≠ id)
          met := s.met.filter (·.criterion ≠ id) }

def criterionMet (c : CriterionId) (l : LearnerId) (s : Tables) :
    Except StoreError (Option MetRecord) :=
  match s.met.find? fun r => r.criterion == c && r.learner == l with
  | none => .ok none
  | some r => r.read.map some

/-- The met records of a learner that name a badge, by criterion. -/
def metRecords (b : BadgeId) (l : LearnerId) (s : Tables) : Except StoreError (List MetRecord) :=
  (orderBy (·.criterion.val) (s.met.filter fun r => r.badge == b && r.learner == l)).mapM
    MetRow.read

def markMet (r : MetRecord) (s : Tables) : Except StoreError (Bool × Tables) :=
  if s.met.any fun x => x.criterion == r.criterion && x.learner == r.learner then .ok (false, s)
  else if s.criteria.any (·.id == r.criterion) && s.badges.any (·.id == r.badge) then
    let row : MetRow := ⟨r.criterion, r.badge, r.learner, r.metAt.seconds⟩
    .ok (true, { s with met := s.met ++ [row] })
  else .error .notFound

def recordManual (a : ManualAward) (s : Tables) : Except StoreError (Bool × Tables) :=
  match s.badge? a.badge with
  | .error e => .error e
  | .ok none => .error .notFound
  | .ok (some _) =>
    if s.manual.any fun x =>
        x.badge == a.badge && x.recipient == a.recipient && x.issuerRole == a.issuerRole then
      .ok (false, s)
    else
      let row : ManualRow :=
        ⟨a.badge, a.recipient, a.issuer, a.issuerRole, a.awardedAt.seconds⟩
      .ok (true, { s with manual := s.manual ++ [row] })

def manualExists (b : BadgeId) (l : LearnerId) (r : RoleId) (s : Tables) : Bool :=
  s.manual.any fun x => x.badge == b && x.recipient == l && x.issuerRole == r

def award? (b : BadgeId) (l : LearnerId) (s : Tables) : Except StoreError (Option Award) :=
  match s.issued.find? fun r => r.badge == b && r.learner == l with
  | none => .ok none
  | some r => r.read.map some

def awardsOf (b : BadgeId) (s : Tables) : Except StoreError (List Award) :=
  (orderBy (·.learner.val) (s.issued.filter (·.badge == b))).mapM IssuedRow.read

def insertAward (a : Award) (s : Tables) : Except StoreError (Bool × Tables) :=
  if s.issued.any fun x => x.token == a.token || (x.badge == a.badge && x.learner == a.learner)
  then .ok (false, s)
  else if s.badges.any (·.id == a.badge) then
    let row : IssuedRow := ⟨a.badge, a.learner, a.token, a.issuedAt.seconds,
      a.expiresAt.map (·.seconds), a.visible⟩
    .ok (true, { s with issued := s.issued ++ [row] })
  else .error .notFound

def perform : (op : Operation) → Tables → Except StoreError (op.Answer × Tables)
  | .insertBadge new, s => .ok (s.insertBadge new)
  | .badge id, s => (s.badge? id).map (·, s)
  | .badges, s => (s.badges.mapM s.readBadge).map (·, s)
  | .setStatus id status, s => (s.setStatus id status).map (((), ·))
  | .deleteBadge id, s => (s.deleteBadge id).map (((), ·))
  | .addCriterion badge record, s => s.addCriterion badge record
  | .deleteCriterion id, s => (s.deleteCriterion id).map (((), ·))
  | .criterionMet c l, s => (s.criterionMet c l).map (·, s)
  | .metRecords b l, s => (s.metRecords b l).map (·, s)
  | .markMet r, s => s.markMet r
  | .recordManual a, s => s.recordManual a
  | .manualExists b l r, s => .ok (s.manualExists b l r, s)
  | .award b l, s => (s.award? b l).map (·, s)
  | .awards b, s => (s.awardsOf b).map (·, s)
  | .insertAward a, s => s.insertAward a

instance : Store Tables := ⟨perform⟩

end Tables

end Badging
