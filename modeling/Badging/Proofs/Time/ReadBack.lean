import Badging.Proofs.Number.ReadBack
import Badging.Proofs.Time.Calendar
import Badging.Time.Reading
import Badging.Time.Writing
import Mathlib.Data.List.TakeWhile

/-!
# Instants read back from their text

The text of an instant is a row of digits and separators. Each step of the lenient grammar takes
one number or one separator off its front and leaves the rest, so the parts are found again
one by one, whatever the year. They name the date, of which the calendar has one for each day, and
the second of the day, with second 60 for a leap second.
-/

namespace Badging

-- Powers of natural numbers are those of `Nat`, whatever else is in sight.
attribute [local instance (2000)] instPowNat

namespace Number

theorem isDigit_of_mem_padded {width n : Nat} {c : Char} (h : c ∈ padded width n) :
    c.isDigit = true := by
  rcases List.mem_append.1 h with h | h
  · rw [List.eq_of_mem_replicate h]
    decide
  · exact isDigit_of_mem_digits h

theorem digitsValue_padded (width n : Nat) : digitsValue (padded width n) = n := by
  rw [padded, digitsValue_zeros_append, digitsValue_digits]

theorem padded_ne_nil (width n : Nat) : padded width n ≠ [] :=
  List.append_ne_nil_of_right_ne_nil _ (digits_ne_nil n)

theorem length_padded {width n : Nat} (hwidth : 0 < width) (h : n < 10 ^ width) :
    (padded width n).length = width := by
  have hle : (digits n).length ≤ width := (Nat.length_toDigits_le_iff (by decide) hwidth).2 h
  rw [padded, List.length_append, List.length_replicate, Nat.sub_add_cancel hle]

end Number

namespace Time

open Number

theorem takeNumber?_padded {least width n : Nat} (hleast : least ≤ width) (hwidth : 0 < width)
    (h : n < 10 ^ width) (rest : List Char) :
    takeNumber? least width (padded width n ++ rest) = some (n, rest) := by
  have hlength := length_padded hwidth h
  have htake : (padded width n ++ rest).take width = padded width n := by
    rw [List.take_append_of_le_length (Nat.le_of_eq hlength.symm),
      List.take_of_length_le (Nat.le_of_eq hlength)]
  have hdigits : (padded width n).takeWhile Char.isDigit = padded width n :=
    List.takeWhile_eq_self_iff.2 fun c hc => isDigit_of_mem_padded hc
  have hdrop : (padded width n ++ rest).drop width = rest := by
    rw [List.drop_append_of_le_length (Nat.le_of_eq hlength.symm),
      List.drop_of_length_le (Nat.le_of_eq hlength), List.nil_append]
  simp only [takeNumber?, htake, hdigits, hlength, Nat.not_lt.2 hleast, if_false,
    digitsValue_padded, hdrop]

theorem dropBlanks_padded (width n : Nat) (rest : List Char) :
    Text.dropBlanks (padded width n ++ rest) = padded width n ++ rest := by
  obtain ⟨c, cs, hcs⟩ := List.exists_cons_of_ne_nil (padded_ne_nil width n)
  have hc : c.isDigit = true := isDigit_of_mem_padded (hcs ▸ List.mem_cons_self)
  rw [hcs, List.cons_append, Text.dropBlanks_of_not_blank (Text.isBlank_of_isDigit hc)]

theorem takePair?_padded {n : Nat} (h : n < 100) (rest : List Char) :
    takePair? (padded 2 n ++ rest) = some (n, rest) := by
  rw [takePair?, dropBlanks_padded]
  exact takeNumber?_padded (by decide) (by decide) h rest

theorem takeSpaced?_self {c : Char} (hc : Text.isBlank c = false) (rest : List Char) :
    takeSpaced? c (c :: rest) = some rest := by
  rw [takeSpaced?, Text.dropBlanks_of_not_blank hc, take?, if_pos rfl]

theorem takeDigits?_padded (width n : Nat) {c : Char} (hc : c.isDigit = false) (rest : List Char) :
    takeDigits? (padded width n ++ c :: rest) = some (n, c :: rest) := by
  obtain ⟨htake, hdrop⟩ := Binary64.span_digits (c :: rest)
    (fun c (hc : c ∈ padded width n) => isDigit_of_mem_padded hc) fun d hd => by
      cases hd
      exact hc
  simp only [takeDigits?, htake, hdrop, padded_ne_nil, if_false, digitsValue_padded]

/-- A year of four digits, or one with a sign, up to the hyphen behind it. -/
theorem takeYear?_yearChars (year : Int) (rest : List Char) :
    takeYear? (Date.yearChars year ++ '-' :: rest) = some (year, '-' :: rest) := by
  unfold Date.yearChars
  split
  · next hshort =>
    have hyear : year.toNat < 10 ^ 4 := by omega
    obtain ⟨c, cs, hcs⟩ := List.exists_cons_of_ne_nil (padded_ne_nil 4 year.toNat)
    have hc : c.isDigit = true := isDigit_of_mem_padded (hcs ▸ List.mem_cons_self)
    have htake : takeNumber? 1 4 (padded 4 year.toNat ++ '-' :: rest) =
        some (year.toNat, '-' :: rest) := takeNumber?_padded (by decide) (by decide) hyear _
    rw [takeYear?, dropBlanks_padded]
    split
    · next hsign =>
      rw [hcs] at hsign
      cases hsign
      cases hc
    · next hsign =>
      rw [hcs] at hsign
      cases hsign
      cases hc
    · rw [htake, Option.map_some]
      exact congrArg (fun n => some (n, _)) (Int.toNat_of_nonneg hshort.1)
  · next hlong =>
    have htake := takeDigits?_padded 4 year.natAbs (c := '-') (by decide) rest
    by_cases hneg : year < 0
    · have hvalue : -(year.natAbs : Int) = year := by omega
      rw [if_pos hneg, takeYear?, List.cons_append, Text.dropBlanks_of_not_blank (by decide)]
      simp only [htake, Option.map_some, hvalue]
    · have hvalue : (year.natAbs : Int) = year := by omega
      rw [if_neg hneg, takeYear?, List.cons_append, Text.dropBlanks_of_not_blank (by decide)]
      simp only [htake, Option.map_some, hvalue]

theorem takeFraction?_padded {width n : Nat} (hwidth : 0 < width) (hnine : width ≤ 9)
    (h : n < 10 ^ width) {c : Char} (hc : c.isDigit = false) (rest : List Char) :
    takeFraction? (padded width n ++ c :: rest) = some (n * 10 ^ (9 - width), c :: rest) := by
  obtain ⟨htake, hdrop⟩ := Binary64.span_digits (c :: rest)
    (fun c (hc : c ∈ padded width n) => isDigit_of_mem_padded hc) fun d hd => by
      cases hd
      exact hc
  have hlength := length_padded hwidth h
  have hkept : (padded width n).take 9 = padded width n :=
    List.take_of_length_le (by rw [hlength]; exact hnine)
  simp only [takeFraction?, htake, hdrop, padded_ne_nil, if_false, hkept, hlength,
    digitsValue_padded]

theorem takeOptionalFraction?_fractionChars {nanos : Nat} (h : nanos < 1000000000)
    (rest : List Char) :
    takeOptionalFraction? (Instant.fractionChars nanos ++ 'Z' :: rest) =
      some (nanos, 'Z' :: rest) := by
  unfold Instant.fractionChars
  split
  · next hzero =>
    rw [hzero]
    rfl
  · have hstart (cs : List Char) : takeOptionalFraction? ('.' :: cs) = takeFraction? cs := rfl
    split
    · next hmillis =>
      have hn : nanos / 1000000 < 10 ^ 3 := by omega
      rw [List.cons_append, hstart, takeFraction?_padded (by decide) (by decide) hn (by decide)]
      congr 2
      omega
    · split
      · next hmicros =>
        have hn : nanos / 1000 < 10 ^ 6 := by omega
        rw [List.cons_append, hstart, takeFraction?_padded (by decide) (by decide) hn (by decide)]
        congr 2
        omega
      · rw [List.cons_append, hstart, takeFraction?_padded (by decide) (by decide) h (by decide)]
        congr 2
        omega

end Time

theorem Date.Valid.lt_hundred {d : Date} (h : d.Valid) : d.month < 100 ∧ d.day < 100 := by
  obtain ⟨-, -, hpos, hle⟩ := h
  have hlength : monthLength d.year d.month ≤ 31 := by
    unfold monthLength
    split <;> (try split) <;> decide
  refine ⟨Nat.lt_of_not_le fun hmonth => ?_, by omega⟩
  have hzero : monthLength d.year d.month = 0 := by
    unfold monthLength
    split <;> omega
  omega

namespace Instant

open Time

variable (t : Instant)

def secondOfDay : Nat := (t.seconds % 86400).toNat

/-- The parts that the text of an instant is written from. -/
def parts : Parts :=
  ⟨t.date.year, t.date.month, t.date.day, t.secondOfDay / 3600, t.secondOfDay / 60 % 60,
    t.secondOfDay % 60 + t.nanos / 1000000000, t.nanos % 1000000000, 0⟩

theorem date_valid : t.date.Valid := by
  have hfirst := t.first_le
  have hlast := t.le_last
  rw [firstSecond_eq] at hfirst
  rw [lastSecond_eq] at hlast
  exact Date.valid_ofDays (by omega) (by omega)

theorem secondOfDay_lt : t.secondOfDay < 86400 := by
  unfold secondOfDay
  omega

theorem toDays_date_add_secondOfDay : t.date.toDays * 86400 + t.secondOfDay = t.seconds := by
  rw [date, Date.toDays_ofDays, secondOfDay]
  omega

theorem secondOfDay_mod_of_leap (h : 1000000000 ≤ t.nanos) : t.secondOfDay % 60 = 59 := by
  have hleap := t.leap_last h
  unfold secondOfDay
  omega

/-- The grammar finds the parts that were written, and nothing is left. -/
theorem takeLenient?_chars : takeLenient? t.chars = some (t.parts, []) := by
  have hdate := t.date_valid.lt_hundred
  have hday := t.secondOfDay_lt
  have hnanos := t.nanos_lt
  have hhour : t.secondOfDay / 3600 < 100 := by omega
  have hminute : t.secondOfDay / 60 % 60 < 100 := by omega
  have hsecond : t.secondOfDay % 60 + t.nanos / 1000000000 < 100 := by omega
  have hfraction : t.nanos % 1000000000 < 1000000000 := by omega
  -- Associated to the right, the text is one number or separator in front of the rest.
  have hchars : t.chars = Date.yearChars t.date.year ++ '-' :: (Number.padded 2 t.date.month ++
      '-' :: (Number.padded 2 t.date.day ++ 'T' :: (Number.padded 2 (t.secondOfDay / 3600) ++
      ':' :: (Number.padded 2 (t.secondOfDay / 60 % 60) ++
      ':' :: (Number.padded 2 (t.secondOfDay % 60 + t.nanos / 1000000000) ++
      (fractionChars (t.nanos % 1000000000) ++ ['Z'])))))) := by
    simp only [chars, Date.chars, secondOfDay, List.append_assoc, List.cons_append]
  have hhyphen : Text.isBlank '-' = false := by decide
  have hcolon : Text.isBlank ':' = false := by decide
  have hdivider (cs : List Char) : takeDivider? ('T' :: cs) = some cs := rfl
  have hoffset : takeLenientOffset? (Text.dropBlanks ['Z']) = some (0, []) := by decide
  simp only [takeLenient?, hchars, takeYear?_yearChars, takeSpaced?_self hhyphen,
    takePair?_padded hdate.1, takePair?_padded hdate.2, hdivider, takePair?_padded hhour,
    takeSpaced?_self hcolon, takePair?_padded hminute, takePair?_padded hsecond,
    takeOptionalFraction?_fractionChars hfraction, hoffset, Option.bind_eq_bind,
    Option.bind_some, parts]

/-- The parts name the instant. Second 60 is written for a leap second and only for one. -/
theorem instant?_parts : t.parts.instant? = some t := by
  have hday := t.secondOfDay_lt
  have hnanos := t.nanos_lt
  have hsum := t.toDays_date_add_secondOfDay
  have hdate : Date.make? t.date.year t.date.month t.date.day = some t.date :=
    if_pos t.date_valid
  rw [Parts.instant?, parts, hdate, Option.bind_some, if_pos (by dsimp only; omega)]
  -- Second 60 is read as second 59 and a billion nanoseconds more.
  by_cases hleap : 1000000000 ≤ t.nanos
  · have hlast := t.secondOfDay_mod_of_leap hleap
    have hsixty : t.secondOfDay % 60 + t.nanos / 1000000000 = 60 := by omega
    dsimp only
    rw [if_pos hsixty]
    exact make?_eq_some.2 ⟨by dsimp only; omega, by dsimp only; omega⟩
  · have hsecond : ¬t.secondOfDay % 60 + t.nanos / 1000000000 = 60 := by omega
    dsimp only
    rw [if_neg hsecond]
    exact make?_eq_some.2 ⟨by dsimp only; omega, by dsimp only; omega⟩

theorem read?_chars : read? t.chars = some t := by
  rw [read?, takeLenient?_chars, Option.bind_some]
  exact t.instant?_parts

/-- The last leap second of the calendar has a sign in front of its year, and second 60. -/
example : chars ⟨lastSecond, 1999999999, by decide, by decide, by decide, by decide⟩ =
    "+262142-12-31T23:59:60.999999999Z".toList := by decide

end Instant

end Badging
