import Badging.Ident
import Badging.Time.Instant

/-!
# Owners and expiry

A badge belongs to the whole site or to one course, and its policy says when an award of it
expires: never, on a date, or some time after it was issued.

A period is added to the time of issue only if it can be measured at all: periods are kept
in milliseconds of 64 bits, so a period of more seconds than `longestPeriod` in either
direction has no measure, and that is an error of its own kind. A period that can be
measured but whose end lies outside the calendar has no end.
-/

namespace Badging

inductive Owner where
  | site
  | course (course : CourseId)
deriving DecidableEq, Repr

/-- When the awards of a badge expire. -/
inductive Expiry where
  | never
  | onDate (date : Instant)
  | afterPeriod (seconds : Int)
deriving DecidableEq, Repr

/-- A period, in seconds, that is too long to be measured. -/
structure PeriodOverflow where
  seconds : Int
deriving DecidableEq, Repr

namespace Expiry

def longestPeriod : Int := 9223372036854775

/-- The policies whose period, if there is one, can be measured. -/
def Measurable : Expiry → Prop
  | .afterPeriod n => -longestPeriod ≤ n ∧ n ≤ longestPeriod
  | _ => True

instance (e : Expiry) : Decidable e.Measurable := by
  cases e <;> unfold Measurable <;> infer_instance

/-- The end of an award issued at a time; `none` if it does not end. -/
def endOf (issued : Instant) (e : Expiry) : Except PeriodOverflow (Option Instant) :=
  match e with
  | .never => .ok none
  | .onDate date => .ok (some date)
  | .afterPeriod n =>
    if -longestPeriod ≤ n ∧ n ≤ longestPeriod then .ok (issued.addSeconds? n)
    else .error ⟨n⟩

@[simp] theorem endOf_never (t : Instant) : never.endOf t = .ok none := rfl

@[simp] theorem endOf_onDate (t d : Instant) : (onDate d).endOf t = .ok (some d) := rfl

theorem endOf_eq_ok_iff {t : Instant} {e : Expiry} :
    (∃ x, e.endOf t = .ok x) ↔ e.Measurable := by
  cases e with
  | never => simp [Measurable]
  | onDate d => simp [Measurable]
  | afterPeriod n =>
    simp only [endOf, Measurable]
    split <;> simp_all

theorem endOf_eq_error_iff {t : Instant} {e : Expiry} {p : PeriodOverflow} :
    e.endOf t = .error p ↔ e = .afterPeriod p.seconds ∧ ¬ e.Measurable := by
  cases e with
  | never => simp
  | onDate d => simp
  | afterPeriod n =>
    obtain ⟨seconds⟩ := p
    simp only [endOf, Measurable, afterPeriod.injEq]
    split
    · next h => simp [h]
    · next h => simp [h]

end Expiry

end Badging
