import Badging.Time.Calendar

/-!
# Instants

An instant is a count of seconds from 1970-01-01T00:00:00Z and a count of nanoseconds within
the second. The range is that of the calendar. A leap second has no number of its own: it is
the last second of its minute with a billion nanoseconds or more, so it lies after that
second and before the next, and the order of instants is the lexicographic order of the two
counts.

The bounds and the place of leap seconds are fields of the type, so every function below
that makes an instant out of numbers answers with an option.
-/

namespace Badging

def Instant.firstSecond : Int := -8334601228800

def Instant.lastSecond : Int := 8210266876799

/-- A point in time, in whole seconds from the epoch and nanoseconds within the second. -/
structure Instant where
  seconds : Int
  nanos : Nat
  first_le : Instant.firstSecond ≤ seconds
  le_last : seconds ≤ Instant.lastSecond
  nanos_lt : nanos < 2000000000
  leap_last : 1000000000 ≤ nanos → seconds % 60 = 59
deriving DecidableEq, Repr

namespace Instant

theorem firstSecond_eq : firstSecond = Date.toDays ⟨Date.firstYear, 1, 1⟩ * 86400 := by decide

theorem lastSecond_eq : lastSecond = Date.toDays ⟨Date.lastYear, 12, 31⟩ * 86400 + 86399 := by
  decide

@[ext] theorem ext {t u : Instant} (hs : t.seconds = u.seconds) (hn : t.nanos = u.nanos) :
    t = u := by
  cases t; cases u; simp_all

def make? (seconds : Int) (nanos : Nat) : Option Instant :=
  if h : firstSecond ≤ seconds ∧ seconds ≤ lastSecond ∧ nanos < 2000000000 ∧
      (1000000000 ≤ nanos → seconds % 60 = 59) then
    some ⟨seconds, nanos, h.1, h.2.1, h.2.2.1, h.2.2.2⟩
  else none

def ofSeconds? (seconds : Int) : Option Instant := make? seconds 0

def ofDate? (d : Date) (secondOfDay : Int) : Option Instant :=
  ofSeconds? (d.toDays * 86400 + secondOfDay)

def date (t : Instant) : Date := Date.ofDays (t.seconds / 86400)

def wholeSeconds (t : Instant) : Instant :=
  ⟨t.seconds, 0, t.first_le, t.le_last, by omega, by omega⟩

/-- No later than: fewer seconds, or as many and no more nanoseconds. -/
def le (t u : Instant) : Bool :=
  t.seconds < u.seconds || (t.seconds == u.seconds && t.nanos ≤ u.nanos)

instance : LE Instant := ⟨fun t u => t.le u = true⟩

instance (t u : Instant) : Decidable (t ≤ u) := inferInstanceAs (Decidable (_ = true))

theorem le_iff {t u : Instant} :
    t ≤ u ↔ t.seconds < u.seconds ∨ (t.seconds = u.seconds ∧ t.nanos ≤ u.nanos) := by
  show t.le u = true ↔ _
  simp [le]

theorem le_refl (t : Instant) : t ≤ t := le_iff.2 (Or.inr ⟨rfl, Nat.le_refl _⟩)

theorem le_trans {t u v : Instant} (h : t ≤ u) (h' : u ≤ v) : t ≤ v := by
  rw [le_iff] at *; omega

theorem le_total (t u : Instant) : t ≤ u ∨ u ≤ t := by
  rw [le_iff, le_iff]; omega

/-- The instant a number of seconds later, or earlier for a negative number. Time that leaves a
leap second leaves it at the end towards which it goes: forwards the leap second counts as
the second before it, backwards as the second after it. -/
def addSeconds? (t : Instant) (n : Int) : Option Instant :=
  if t.nanos < 1000000000 then make? (t.seconds + n) t.nanos
  else if 0 < n then make? (t.seconds + n) (t.nanos - 1000000000)
  else if n < 0 then make? (t.seconds + 1 + n) (t.nanos - 1000000000)
  else some t

theorem make?_eq_some {seconds : Int} {nanos : Nat} {t : Instant} :
    make? seconds nanos = some t ↔ t.seconds = seconds ∧ t.nanos = nanos := by
  unfold make?
  constructor
  · intro h
    split at h
    · cases h; exact ⟨rfl, rfl⟩
    · cases h
  · rintro ⟨rfl, rfl⟩
    rw [dif_pos ⟨t.first_le, t.le_last, t.nanos_lt, t.leap_last⟩]

@[simp] theorem make?_self (t : Instant) : make? t.seconds t.nanos = some t :=
  make?_eq_some.2 ⟨rfl, rfl⟩

@[simp] theorem wholeSeconds_wholeSeconds (t : Instant) :
    t.wholeSeconds.wholeSeconds = t.wholeSeconds := rfl

@[simp] theorem ofSeconds?_seconds (t : Instant) :
    ofSeconds? t.seconds = some t.wholeSeconds :=
  make?_eq_some.2 ⟨rfl, rfl⟩

end Instant

end Badging
