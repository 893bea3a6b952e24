import Badging.Award

/-!
# When an award has expired

Policies speak of time in unbounded integers, awards carry an instant of the calendar. The two
agree as long as the end of the period is not before the calendar. An end after the calendar is no
instant either, but then no instant is late enough, so an award without an end is right. An end
before the calendar is earlier than every instant, and the award, which has no end, counts as one
that never expires.

Leap seconds have no place in the count of nanoseconds and are left out.
-/

namespace Badging

namespace Instant

/-- The nanoseconds since the epoch. -/
def elapsed (t : Instant) : Int := t.seconds * 1000000000 + t.nanos

/-- An instant that is not within a leap second. -/
def Ordinary (t : Instant) : Prop := t.nanos < 1000000000

instance (t : Instant) : Decidable t.Ordinary := inferInstanceAs (Decidable (_ < _))

theorem le_iff_elapsed_le {t u : Instant} (ht : t.Ordinary) (hu : u.Ordinary) :
    t ≤ u ↔ t.elapsed ≤ u.elapsed := by
  simp only [Ordinary, elapsed, le_iff] at *
  omega

theorem addSeconds?_of_ordinary {t : Instant} (n : Int) (ht : t.Ordinary) :
    t.addSeconds? n = make? (t.seconds + n) t.nanos :=
  if_pos ht

theorem addSeconds?_eq_none_iff {t : Instant} {n : Int} (ht : t.Ordinary) :
    t.addSeconds? n = none ↔ t.seconds + n < firstSecond ∨ lastSecond < t.seconds + n := by
  have hnanos : t.nanos < 2000000000 ∧ ¬ 1000000000 ≤ t.nanos := by
    simp only [Ordinary] at ht
    omega
  rw [addSeconds?_of_ordinary n ht, make?]
  simp only [hnanos, false_implies, and_true, dite_eq_right_iff, reduceCtorEq, imp_false]
  omega

end Instant

namespace Expiry

/-- By this policy an award issued at one time has come to its end at another. -/
def Ended (issued now : Instant) : Expiry → Prop
  | .never => False
  | .onDate date => date ≤ now
  | .afterPeriod n => issued.elapsed + n * 1000000000 ≤ now.elapsed

/-- The period of an award issued at a time ends before the calendar begins. -/
def EndsBeforeCalendar (issued : Instant) : Expiry → Prop
  | .afterPeriod n => issued.seconds + n < Instant.firstSecond
  | _ => False

instance decidableEnded (issued now : Instant) : (e : Expiry) → Decidable (e.Ended issued now)
  | .never => .isFalse id
  | .onDate date => inferInstanceAs (Decidable (date ≤ now))
  | .afterPeriod n => Int.decLe (issued.elapsed + n * 1000000000) now.elapsed

instance decidableEndsBeforeCalendar (issued : Instant) :
    (e : Expiry) → Decidable (e.EndsBeforeCalendar issued)
  | .never | .onDate _ => .isFalse id
  | .afterPeriod n => Int.decLt (issued.seconds + n) Instant.firstSecond

variable {issued now : Instant} {e : Expiry}

/-- The instant that a measurable policy gives for the end is reached when the policy says so,
except that there is none for an end before the calendar. -/
theorem reached_endOf_iff (hissued : issued.Ordinary) (hnow : now.Ordinary) {end? : Option Instant}
    (hend : e.endOf issued = .ok end?) :
    (∃ t ∈ end?, t ≤ now) ↔ e.Ended issued now ∧ ¬ e.EndsBeforeCalendar issued := by
  cases e with
  | never =>
    cases hend
    simp [Ended]
  | onDate d =>
    cases hend
    simp [Ended, EndsBeforeCalendar]
  | afterPeriod n =>
    have hadd : issued.addSeconds? n = end? := by
      simp only [endOf] at hend
      split at hend
      · exact Except.ok.inj hend
      · cases hend
    cases end? with
    | none =>
      -- Either the end is before the calendar, or it is after every instant.
      have houtside := (Instant.addSeconds?_eq_none_iff hissued).1 hadd
      have hlast := now.le_last
      simp only [Ended, EndsBeforeCalendar, Instant.elapsed, Instant.Ordinary, Option.mem_def,
        reduceCtorEq, false_and, exists_false, false_iff] at *
      omega
    | some t =>
      rw [Instant.addSeconds?_of_ordinary n hissued, Instant.make?_eq_some] at hadd
      obtain ⟨hseconds, hnanos⟩ := hadd
      have hfirst := t.first_le
      have ht : t.Ordinary := by rwa [Instant.Ordinary, hnanos]
      simp only [Option.mem_def, Option.some.injEq, exists_eq_left',
        Instant.le_iff_elapsed_le ht hnow]
      simp only [Ended, EndsBeforeCalendar, Instant.elapsed, hseconds, hnanos] at *
      omega

end Expiry

namespace Award

theorem isExpired_eq_true_iff {a : Award} {now : Instant} :
    a.isExpired now = true ↔ ∃ t ∈ a.expiresAt, t ≤ now := by
  unfold isExpired
  cases a.expiresAt <;> simp

/-- A badge with a policy that can be measured is issued, and its award has expired at a time if
the policy says so, unless the period ends before the calendar begins. -/
theorem isExpired_iff_ended (b : Badge) (l : LearnerId) (token : String) {issued now : Instant}
    (hissued : issued.Ordinary) (hnow : now.Ordinary) (he : b.expiry.Measurable) :
    ∃ a, issue b l issued token = .ok a ∧
      (a.isExpired now = true ↔
        b.expiry.Ended issued now ∧ ¬ b.expiry.EndsBeforeCalendar issued) := by
  obtain ⟨end?, hend⟩ := Expiry.endOf_eq_ok_iff.2 he
  refine ⟨⟨b.id, l, issued, end?, token, true⟩, issue_eq_ok_iff.2 ⟨end?, hend, rfl⟩, ?_⟩
  rw [isExpired_eq_true_iff]
  exact Expiry.reached_endOf_iff hissued hnow hend

/-- An award that is good for a day has expired a day after it was issued. -/
theorem isExpired_iff_ended_day :
    let epoch : Instant := ⟨0, 0, by decide, by decide, by decide, by decide⟩
    let nextDay : Instant := ⟨86400, 0, by decide, by decide, by decide, by decide⟩
    let b : Badge := ⟨⟨1⟩, "Daily", .site, .active, .afterPeriod 86400, []⟩
    epoch.Ordinary ∧ nextDay.Ordinary ∧ b.expiry.Measurable ∧
      ∃ a, issue b ⟨7⟩ epoch "token" = .ok a ∧ a.isExpired nextDay = true := by
  intro epoch nextDay b
  have hepoch : epoch.Ordinary := by decide
  have hnext : nextDay.Ordinary := by decide
  have he : b.expiry.Measurable := by decide
  obtain ⟨a, hissue, hiff⟩ := isExpired_iff_ended b ⟨7⟩ "token" hepoch hnext he
  exact ⟨hepoch, hnext, he, a, hissue, hiff.2 (by decide)⟩

/-- A period of nine million million seconds backwards ends before the calendar. Its award is past
its end when it is issued, and counts as one that has not expired, then and at every other time. -/
theorem award_past_calendar_never_expires :
    let epoch : Instant := ⟨0, 0, by decide, by decide, by decide, by decide⟩
    let b : Badge := ⟨⟨1⟩, "Expired", .site, .active, .afterPeriod (-9000000000000), []⟩
    epoch.Ordinary ∧ b.expiry.Measurable ∧ b.expiry.Ended epoch epoch ∧
      ∃ a, issue b ⟨7⟩ epoch "token" = .ok a ∧ ∀ now, a.isExpired now = false := by
  intro epoch b
  exact ⟨by decide, by decide, by decide, ⟨⟨1⟩, ⟨7⟩, epoch, none, "token", true⟩,
    issue_eq_ok_iff.2 ⟨none, rfl, rfl⟩, fun _ => rfl⟩

end Award

end Badging
