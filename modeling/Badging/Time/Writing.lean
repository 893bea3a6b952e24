import Badging.Number.Integer
import Badging.Time.Instant

/-!
# Instants and dates as text

The written form of an instant is `YYYY-MM-DDTHH:MM:SS`, a fraction where it is needed, and
`Z`. A year from 0 to 9999 has four digits and no sign, any other has its sign and at least
four digits, a later one at least five by its size. The fraction has three, six or nine digits, the
fewest that lose nothing, and is left out when it is zero. A leap second is second 60.
-/

namespace Badging

open Number

namespace Date

def yearChars (year : Int) : List Char :=
  if 0 ≤ year ∧ year ≤ 9999 then padded 4 year.toNat
  else (if year < 0 then '-' else '+') :: padded 4 year.natAbs

def chars (d : Date) : List Char :=
  yearChars d.year ++ '-' :: padded 2 d.month ++ '-' :: padded 2 d.day

def text (d : Date) : String := String.ofList d.chars

end Date

namespace Instant

/-- The fraction of a second, with its point, in the fewest groups of three digits. -/
def fractionChars (nanos : Nat) : List Char :=
  if nanos = 0 then []
  else if nanos % 1000000 = 0 then '.' :: padded 3 (nanos / 1000000)
  else if nanos % 1000 = 0 then '.' :: padded 6 (nanos / 1000)
  else '.' :: padded 9 nanos

def chars (t : Instant) : List Char :=
  let secondOfDay := (t.seconds % 86400).toNat
  let hour := secondOfDay / 3600
  let minute := secondOfDay / 60 % 60
  let second := secondOfDay % 60 + t.nanos / 1000000000
  t.date.chars ++ 'T' :: padded 2 hour ++ ':' :: padded 2 minute ++ ':' :: padded 2 second ++
    fractionChars (t.nanos % 1000000000) ++ ['Z']

def text (t : Instant) : String := String.ofList t.chars

end Instant

end Badging
