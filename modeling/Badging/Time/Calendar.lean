/-!
# The calendar

Dates of the proleptic Gregorian calendar and their number of days from 1970-01-01. The
calendar repeats every 400 years, that is every 146097 days, and a year is counted from the
first of March, so that the leap day is the last day of its year and the lengths of the
months follow the line `(153 * m + 2) / 5`.
-/

namespace Badging

/-- A year, a month and a day, in the order in which dates compare. -/
structure Date where
  year : Int
  month : Nat
  day : Nat
deriving DecidableEq, Repr

namespace Date

def isLeapYear (year : Int) : Bool :=
  year % 4 == 0 && (year % 100 != 0 || year % 400 == 0)

def monthLength (year : Int) : Nat → Nat
  | 1 | 3 | 5 | 7 | 8 | 10 | 12 => 31
  | 4 | 6 | 9 | 11 => 30
  | 2 => if isLeapYear year then 29 else 28
  | _ => 0

/-- The first and the last year that instants reach. -/
def firstYear : Int := -262143

@[inherit_doc firstYear]
def lastYear : Int := 262142

/-- The dates that occur in the calendar, in a year that instants reach. -/
def Valid (d : Date) : Prop :=
  firstYear ≤ d.year ∧ d.year ≤ lastYear ∧ 1 ≤ d.day ∧ d.day ≤ monthLength d.year d.month

instance (d : Date) : Decidable d.Valid := by unfold Valid; infer_instance

def make? (year : Int) (month day : Nat) : Option Date :=
  let d : Date := ⟨year, month, day⟩
  if d.Valid then some d else none

/-- The day within a year that starts on the first of March. -/
def dayOfYear (month day : Nat) : Nat :=
  let m := if 2 < month then month - 3 else month + 9
  (153 * m + 2) / 5 + (day - 1)

def toDays (d : Date) : Int :=
  let y := if d.month ≤ 2 then d.year - 1 else d.year
  let era := y / 400
  let yearOfEra := y % 400
  let dayOfEra := 365 * yearOfEra + yearOfEra / 4 - yearOfEra / 100 + dayOfYear d.month d.day
  146097 * era + dayOfEra - 719468

def ofDays (days : Int) : Date :=
  let z := days + 719468
  let era := z / 146097
  let dayOfEra := z % 146097
  let yearOfEra :=
    (dayOfEra - dayOfEra / 1460 + dayOfEra / 36524 - dayOfEra / 146096) / 365
  let rest := (dayOfEra - (365 * yearOfEra + yearOfEra / 4 - yearOfEra / 100)).toNat
  let m := (5 * rest + 2) / 153
  let day := rest - (153 * m + 2) / 5 + 1
  let month := if m < 10 then m + 3 else m - 9
  ⟨yearOfEra + 400 * era + (if month ≤ 2 then 1 else 0), month, day⟩

theorem toDays_epoch : toDays ⟨1970, 1, 1⟩ = 0 := by decide

theorem toDays_first : toDays ⟨firstYear, 1, 1⟩ = -96465292 := by decide

theorem toDays_last : toDays ⟨lastYear, 12, 31⟩ = 95026236 := by decide

end Date

end Badging
