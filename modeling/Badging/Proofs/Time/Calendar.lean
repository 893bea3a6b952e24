import Badging.Time.Instant
import Mathlib.Data.Int.Init

/-!
# Dates and their day numbers

A day within a period of 400 years is a number of centuries, of leap cycles within the century, of
years within the cycle, and a day of the year. With these four the year that `ofDays` computes
is linear, and the day of the year is left over. Only the last year of a cycle has a 366th
day, and of the last cycles of a century only the one that ends the period.

Within a year the months are a table of 366 lines.
-/

namespace Badging

namespace Date

/-- The parts of a day of a period: centuries, cycles of four years, years, and days that are
left. -/
theorem exists_parts {dayOfEra : Int} (hfirst : 0 ≤ dayOfEra) (hlast : dayOfEra < 146097) :
    ∃ century cycle year day : Int,
      dayOfEra = 36524 * century + 1461 * cycle + 365 * year + day ∧
      (0 ≤ century ∧ century ≤ 3) ∧ (0 ≤ cycle ∧ cycle ≤ 24) ∧ (0 ≤ year ∧ year ≤ 3) ∧
      (0 ≤ day ∧ day ≤ 365) ∧ (day = 365 → year = 3 ∧ (cycle = 24 → century = 3)) := by
  have hcentury : ∃ century rest : Int, dayOfEra = 36524 * century + rest ∧
      (0 ≤ century ∧ century ≤ 3) ∧ 0 ≤ rest ∧ (rest < 36524 ∨ rest = 36524 ∧ century = 3) := by
    by_cases hend : dayOfEra = 146096
    · exact ⟨3, 36524, by omega, by omega, by omega, by omega⟩
    · exact ⟨dayOfEra / 36524, dayOfEra % 36524, by omega, by omega, by omega, by omega⟩
  obtain ⟨century, rest, hrest, hcentury, hrest₀, hrest₁⟩ := hcentury
  have hyear : ∃ year day : Int, rest % 1461 = 365 * year + day ∧ (0 ≤ year ∧ year ≤ 3) ∧
      0 ≤ day ∧ (day < 365 ∨ day = 365 ∧ year = 3) := by
    by_cases hend : rest % 1461 = 1460
    · exact ⟨3, 365, by omega, by omega, by omega, by omega⟩
    · exact ⟨rest % 1461 / 365, rest % 1461 % 365, by omega, by omega, by omega, by omega⟩
  obtain ⟨year, day, hday, hyear, hday₀, hday₁⟩ := hyear
  exact ⟨century, rest / 1461, year, day, by omega, hcentury, by omega, hyear, by omega, by omega⟩

def yearOfEra (dayOfEra : Int) : Int :=
  (dayOfEra - dayOfEra / 1460 + dayOfEra / 36524 - dayOfEra / 146096) / 365

theorem yearOfEra_eq {century cycle year day : Int} (hcentury : 0 ≤ century ∧ century ≤ 3)
    (hcycle : 0 ≤ cycle ∧ cycle ≤ 24) (hyear : 0 ≤ year ∧ year ≤ 3) (hday : 0 ≤ day ∧ day ≤ 365)
    (hlast : day = 365 → year = 3 ∧ (cycle = 24 → century = 3)) :
    yearOfEra (36524 * century + 1461 * cycle + 365 * year + day) =
      100 * century + 4 * cycle + year := by
  obtain ⟨dayOfEra, hdayOfEra⟩ : ∃ n, n = 36524 * century + 1461 * cycle + 365 * year + day :=
    ⟨_, rfl⟩
  rw [← hdayOfEra, yearOfEra]
  have hcenturies : dayOfEra / 36524 - dayOfEra / 146096 = century := by
    have hwithin : dayOfEra < 36524 * (century + 1) ∨ dayOfEra = 146096 := by omega
    rcases hwithin with hwithin | hwithin
    · have hquotient : dayOfEra / 36524 = century := by omega
      omega
    · omega
  -- The leap days so far are one too many from some day of the last year of a cycle on.
  by_cases hlate : 24 * century + cycle + 365 * year + day < 1460
  · have hcycles : dayOfEra / 1460 = 25 * century + cycle := by omega
    omega
  · have hcycles : dayOfEra / 1460 = 25 * century + cycle + 1 := by omega
    omega

def monthOf (rest : Nat) : Nat :=
  let m := (5 * rest + 2) / 153
  if m < 10 then m + 3 else m - 9

def dayOf (rest : Nat) : Nat := rest - (153 * ((5 * rest + 2) / 153) + 2) / 5 + 1

def ofYearDay (year : Int) (rest : Nat) : Date :=
  ⟨year + (if monthOf rest ≤ 2 then 1 else 0), monthOf rest, dayOf rest⟩

theorem monthLength_eq (year : Int) (month : Nat) :
    monthLength year month =
      if isLeapYear year then monthLength 0 month else monthLength 1 month := by
  have hleap : isLeapYear 0 = true := by decide
  have hcommon : isLeapYear 1 = false := by decide
  unfold monthLength
  split <;> simp [hleap, hcommon]

theorem dayOf_monthOf : ∀ rest < 366,
    dayOfYear (monthOf rest) (dayOf rest) = rest ∧ 1 ≤ dayOf rest ∧
      dayOf rest ≤ monthLength 0 (monthOf rest) ∧
      (rest ≠ 365 → dayOf rest ≤ monthLength 1 (monthOf rest)) ∧
      (monthOf rest ≤ 2 ↔ 306 ≤ rest) ∧ monthOf rest ≤ 12 := by
  decide +kernel

/-- The number of days before a year that starts in March, from the first of March of year zero. -/
def daysBefore (year : Int) : Int :=
  146097 * (year / 400) + (365 * (year % 400) + year % 400 / 4 - year % 400 / 100)

theorem toDays_ofYearDay (year : Int) {rest : Nat} (hrest : rest < 366) :
    (ofYearDay year rest).toDays = daysBefore year + rest - 719468 := by
  obtain ⟨hday, -⟩ := dayOf_monthOf rest hrest
  simp only [toDays, ofYearDay, hday, daysBefore]
  split
  · rw [Int.add_sub_cancel]
    omega
  · rw [Int.add_zero]
    omega

/-- A number of days makes a date whose day number it is. In a year of 366 days, counted from March,
the year that follows is a leap year. -/
theorem exists_ofYearDay (days : Int) : ∃ (year : Int) (rest : Nat), rest < 366 ∧
    (rest = 365 → isLeapYear (year + 1)) ∧ ofDays days = ofYearDay year rest ∧
    daysBefore year + rest - 719468 = days := by
  obtain ⟨era, hera⟩ : ∃ n, n = (days + 719468) / 146097 := ⟨_, rfl⟩
  obtain ⟨dayOfEra, hdayOfEra⟩ : ∃ n, n = (days + 719468) % 146097 := ⟨_, rfl⟩
  have hfirst : 0 ≤ dayOfEra := by omega
  have hbound : dayOfEra < 146097 := by omega
  obtain ⟨century, cycle, year, day, hparts, hcentury, hcycle, hyear, hday, hlast⟩ :=
    exists_parts hfirst hbound
  have hyearOfEra := yearOfEra_eq hcentury hcycle hyear hday hlast
  rw [← hparts] at hyearOfEra
  generalize hy : yearOfEra dayOfEra = y at hyearOfEra
  have hcycles : y / 4 = 25 * century + cycle := by omega
  have hcenturies : y / 100 = century := by omega
  have hera' : (y + 400 * era) / 400 = era := by omega
  have hy' : (y + 400 * era) % 400 = y := by omega
  have hrest : dayOfEra - (365 * y + y / 4 - y / 100) = day := by omega
  refine ⟨y + 400 * era, day.toNat, by omega, fun hleap => ?_, ?_, ?_⟩
  · obtain ⟨hthree, hend⟩ := hlast (by omega)
    have hfour : (y + 400 * era + 1) % 4 = 0 := by omega
    simp only [isLeapYear, hfour, Bool.and_eq_true, Bool.or_eq_true, bne_iff_ne, beq_iff_eq]
    refine ⟨trivial, ?_⟩
    by_cases hcycle' : cycle = 24
    · have hcentury' := hend hcycle'
      omega
    · have hwithin : (y + 1) % 100 = 4 * cycle + 4 := by omega
      omega
  · subst hera hdayOfEra hy
    rw [← hrest]
    rfl
  · rw [daysBefore, hera', hy']
    omega

theorem toDays_ofDays (days : Int) : (ofDays days).toDays = days := by
  obtain ⟨year, rest, hrest, -, hdate, hdays⟩ := exists_ofYearDay days
  rw [hdate, toDays_ofYearDay year hrest, hdays]

theorem daysBefore_add_one (year : Int) : daysBefore year + 365 ≤ daysBefore (year + 1) := by
  simp only [daysBefore]
  by_cases hend : year % 400 = 399
  · have hnext : (year + 1) / 400 = year / 400 + 1 ∧ (year + 1) % 400 = 0 := by omega
    rw [hnext.1, hnext.2, hend]
    omega
  · have hnext : (year + 1) / 400 = year / 400 ∧ (year + 1) % 400 = year % 400 + 1 := by omega
    rw [hnext.1, hnext.2]
    omega

theorem daysBefore_mono {year year' : Int} (h : year ≤ year') :
    daysBefore year ≤ daysBefore year' := by
  induction year', h using Int.leInduction with
  | base => exact Int.le_refl _
  | succ year' _ ih =>
    have hyear := daysBefore_add_one year'
    omega

theorem valid_ofDays {days : Int} (hfirst : toDays ⟨firstYear, 1, 1⟩ ≤ days)
    (hlast : days ≤ toDays ⟨lastYear, 12, 31⟩) : (ofDays days).Valid := by
  obtain ⟨year, rest, hrest, hleap, hdate, hdays⟩ := exists_ofYearDay days
  obtain ⟨-, hday, hlength, hcommon, hwinter, -⟩ := dayOf_monthOf rest hrest
  rw [toDays_first] at hfirst
  rw [toDays_last] at hlast
  have hfirstYear : daysBefore (-262144) = -95746130 := by decide
  have hlastYear : daysBefore 262142 = 95745399 := by decide
  -- Years start in March here, so the first and the last year of the calendar are cut in two.
  have hyear₀ : -262144 ≤ year := by
    refine Int.not_lt.1 fun hlt => ?_
    have hyear := daysBefore_add_one year
    have hmono : daysBefore (year + 1) ≤ daysBefore (-262144) := daysBefore_mono (by omega)
    omega
  have hyear₁ : year ≤ 262142 := by
    refine Int.not_lt.1 fun hlt => ?_
    have hyear := daysBefore_add_one 262142
    have hmono : daysBefore (262142 + 1) ≤ daysBefore year := daysBefore_mono (by omega)
    omega
  rw [hdate]
  refine ⟨?_, ?_, hday, ?_⟩
  · simp only [ofYearDay, firstYear]
    split
    · omega
    · have hne : year ≠ -262144 := by
        rintro rfl
        omega
      omega
  · simp only [ofYearDay, lastYear]
    split
    · have hne : year ≠ 262142 := by
        rintro rfl
        omega
      omega
    · omega
  · show dayOf rest ≤ monthLength (ofYearDay year rest).year (monthOf rest)
    rw [monthLength_eq]
    by_cases hleapYear : isLeapYear (ofYearDay year rest).year = true
    · rwa [if_pos hleapYear]
    · rw [if_neg hleapYear]
      -- The 29th of February comes last, and then the year that follows is a leap year.
      refine hcommon fun hend => hleapYear ?_
      rw [ofYearDay, if_pos (hwinter.2 (by omega))]
      exact hleap hend

end Date

end Badging
