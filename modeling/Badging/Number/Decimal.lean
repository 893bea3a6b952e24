import Badging.Number.Binary64
import Badging.Number.Integer
import Badging.Text.Case

/-!
# Binary numbers in decimal text

A decimal is a natural number times a power of ten. Reading rounds the exact value to the
nearest binary number. Writing picks the decimal with the fewest digits that reads back:
for one digit, two digits and so on, the two neighbours of the value among the decimals
with so many digits are tried, the first length with a hit is taken, of two hits the
nearer, and of two equally near the upper one. The text is positional whatever the size,
so there is never an exponent, and a whole number has no point.

If no length up to seventeen should do, the exact value is written. So that the text reads
back needs no argument about seventeen digits: every decimal that is chosen was read first.
-/

namespace Badging

-- Powers of natural numbers are those of `Nat`, whatever else is in sight.
attribute [local instance (2000)] instPowNat

/-- The decimal number `significand * 10 ^ exponent`. -/
structure Decimal where
  significand : Nat
  exponent : Int
deriving DecidableEq, Repr

namespace Decimal

/-- Where the leading digit stands: the value is below `10 ^ magnitude`. -/
def magnitude (d : Decimal) : Int := d.exponent + (Number.digits d.significand).length

/-- The binary number nearest to a decimal. Beyond four hundred places on either side of the
point there is nothing to compute: the value is far outside the format or far below half a
unit. -/
def toBinary64 (negative : Bool) (d : Decimal) : Binary64 :=
  if d.significand = 0 then .ofUnits negative 0
  else if 400 < d.magnitude then .infinite negative
  else if d.magnitude < -400 then .ofUnits negative 0
  else match d.exponent with
    | .ofNat e => .ofQuotient negative (d.significand * 10 ^ e * Binary64.one) 1
    | .negSucc e => .ofQuotient negative (d.significand * Binary64.one) (10 ^ (e + 1))

/-- Moves zeros at the end of the significand into the exponent, at most `fuel` of them. -/
def strip : Nat → Decimal → Decimal
  | 0, d => d
  | fuel + 1, d =>
    if d.significand % 10 = 0 then strip fuel ⟨d.significand / 10, d.exponent + 1⟩ else d

def reduce (d : Decimal) : Decimal := strip (Number.digits d.significand).length d

def chars (d : Decimal) : List Char :=
  let ds := Number.digits d.significand
  match d.exponent with
  | .ofNat e => ds ++ List.replicate e '0'
  | .negSucc e =>
    let places := e + 1
    if places < ds.length then
      ds.take (ds.length - places) ++ '.' :: ds.drop (ds.length - places)
    else '0' :: '.' :: (List.replicate (places - ds.length) '0' ++ ds)

end Decimal

namespace Binary64

def leadingZeros : Nat → Nat → Nat
  | 0, _ => 0
  | fuel + 1, units => if one ≤ 10 * units then 0 else leadingZeros fuel (10 * units) + 1

def magnitude (units : Nat) : Int :=
  if one ≤ units then (Number.digits (units / one)).length
  else -(leadingZeros 400 units : Int)

/-- The value as a quotient, counted in steps of `10 ^ exponent`. -/
def steps (units : Nat) : Int → Nat × Nat
  | .ofNat e => (units, one * 10 ^ e)
  | .negSucc e => (units * 10 ^ (e + 1), one)

/-- A decimal of `length` digits next to the value that reads back as the value: the nearer
if both neighbours do, the upper if they are equally near. -/
def neighbour? (units length : Nat) : Option Decimal :=
  let e := magnitude units - length
  let (num, den) := steps units e
  let below : Decimal := ⟨num / den, e⟩
  let above : Decimal := ⟨num / den + 1, e⟩
  let readsBack (d : Decimal) : Bool := d.toBinary64 false = ofUnits false units
  if readsBack below ∧ (readsBack above → 2 * num < (2 * (num / den) + 1) * den) then some below
  else if readsBack above then some above
  else none

def exactDecimal (units : Nat) : Decimal := ⟨units * 5 ^ (1074 : Nat), -1074⟩

/-- The shortest decimal that reads back as the value. -/
def shortest (units : Nat) : Decimal :=
  (((List.range' 1 17).findSome? (neighbour? units)).getD (exactDecimal units)).reduce

def chars : Binary64 → List Char
  | .nan => ['N', 'a', 'N']
  | .infinite s => (if s then ['-'] else []) ++ ['i', 'n', 'f']
  | .finite s u _ =>
    (if s then ['-'] else []) ++ (if u = 0 then ['0'] else (shortest u).chars)

def text (x : Binary64) : String := String.ofList x.chars

def readExponent? : List Char → Option Int
  | [] => some 0
  | c :: cs => if c = 'e' ∨ c = 'E' then Number.readInteger? cs else none

/-- A number in digits: a whole part, a part after a point, a power of ten, of which either
of the first two may be missing but not both. -/
def readDigits? (negative : Bool) (cs : List Char) : Option Binary64 :=
  let whole := cs.takeWhile Char.isDigit
  let afterWhole := cs.dropWhile Char.isDigit
  let (places, afterPlaces) := match afterWhole with
    | '.' :: rest => (rest.takeWhile Char.isDigit, rest.dropWhile Char.isDigit)
    | rest => ([], rest)
  if whole ++ places = [] then none
  else (readExponent? afterPlaces).map fun e =>
    Decimal.toBinary64 negative ⟨Number.digitsValue (whole ++ places), e - places.length⟩

def readUnsigned? (negative : Bool) (cs : List Char) : Option Binary64 :=
  let word := Text.lower (String.ofList cs)
  if word = "inf" ∨ word = "infinity" then some (.infinite negative)
  else if word = "nan" then some .nan
  else readDigits? negative cs

def read? : List Char → Option Binary64
  | '-' :: cs => readUnsigned? true cs
  | '+' :: cs => readUnsigned? false cs
  | cs => readUnsigned? false cs

end Binary64

end Badging
