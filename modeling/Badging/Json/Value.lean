import Badging.Number.Decimal

/-!
# JSON values

A value keeps what its text says and judges nothing: the fields of an object stay in order
and may repeat, and a number stays a row of digits. What a repeated field or a number too
large means is for the reader of the value to say, since a reader that ignores a field
ignores such faults in it too.

For the same reason the content of a string is an option: a string may hold one half of
an escaped pair, which is the spelling of no text, and that is a fault only where the string is
kept.
-/

namespace Badging

-- Powers of natural numbers are those of `Nat`, whatever else is in sight.
attribute [local instance (2000)] instPowNat

/-- The spelling of a JSON number. -/
structure Numeral where
  negative : Bool
  whole : List Char
  places : Option (List Char)
  exponent : Option Int
deriving DecidableEq, Repr

/-- A JSON value; strings and keys are `none` where they spell no text. -/
inductive Json where
  | null
  | bool (b : Bool)
  | number (n : Numeral)
  | string (s : Option String)
  | array (items : List Json)
  | object (fields : List (Option String × Json))
deriving Repr

namespace Numeral

def ofInt (n : Int) : Numeral := ⟨n < 0, Number.digits n.natAbs, none, none⟩

/-- Spelled with neither a point nor a power of ten. -/
def isWhole (n : Numeral) : Bool := n.places.isNone && n.exponent.isNone

/-- The whole number of 64 bits that is spelled. Zero has no sign here. -/
def int64? (n : Numeral) : Option Int :=
  let m := Number.digitsValue n.whole
  if n.isWhole ∧ ¬ (n.negative ∧ m = 0) then
    (some (if n.negative then -(m : Int) else m)).filter fun k => decide (Number.InInt64 k)
  else none

/-- The digits that are gathered: their value, which stays within 64 bits, and the power of
ten it is to be scaled by. -/
structure Gathered where
  significand : Nat
  exponent : Int
deriving DecidableEq, Repr

def limit : Nat := 18446744073709551615

/-- Gathers the digits of the whole part. From the first digit for which there is no room on,
digits only raise the power of ten. -/
def gatherWhole : Gathered → List Char → Gathered
  | g, [] => g
  | g, c :: cs =>
    let next := 10 * g.significand + (c.toNat - 48)
    if next ≤ limit then gatherWhole ⟨next, 0⟩ cs
    else ⟨g.significand, (c :: cs).length⟩

/-- Gathers the digits after the point. From the first digit for which there is no room on,
digits are dropped. -/
def gatherPlaces : Gathered → List Char → Gathered
  | g, [] => g
  | g, c :: cs =>
    let next := 10 * g.significand + (c.toNat - 48)
    if next ≤ limit then gatherPlaces ⟨next, g.exponent - 1⟩ cs else g

def powerOfTen (n : Nat) : Binary64 := Binary64.ofNat (10 ^ n)

/-- Scales by a power of ten in steps of at most 308 places, each of them rounded. There is no
result if it would be infinite. -/
def scale? : Nat → Binary64 → Int → Option Binary64
  | 0, x, _ => some x
  | fuel + 1, x, e =>
    if 0 ≤ e then
      if e ≤ 308 then
        (some (x.scaleUp (powerOfTen e.toNat))).filter (·.isFinite)
      else if x = .zero then some x else none
    else if -308 ≤ e then some (x.scaleDown (powerOfTen e.natAbs))
    else if x = .zero then some x
    else scale? fuel (x.scaleDown (powerOfTen 308)) (e + 308)

/-- The binary number that is spelled. A whole number within 64 bits is rounded once; any other
number is its first digits, as many as fit 64 bits, rounded and then scaled, which may miss
the nearest number. There is none for a number beyond the format. -/
def binary64? (n : Numeral) : Option Binary64 :=
  let whole := gatherWhole ⟨0, 0⟩ n.whole
  let all := gatherPlaces whole (n.places.getD [])
  let e := n.exponent.getD 0
  let magnitude : Option Binary64 :=
    if 2147483647 < e ∧ all.significand ≠ 0 then none
    else if 2147483647 < e ∨ e < -2147483647 then some .zero
    else scale? 4 (.ofNat all.significand) (all.exponent + e)
  magnitude.map fun x => if n.negative then x.neg else x

end Numeral

namespace Json

def int (n : Int) : Json := .number (.ofInt n)

def text (s : String) : Json := .string (some s)

def record (fields : List (String × Json)) : Json :=
  .object (fields.map fun f => (some f.1, f.2))

/-- `null` for nothing, else the value. -/
def option {α : Type} (f : α → Json) : Option α → Json
  | none => .null
  | some a => f a

def list {α : Type} (f : α → Json) (as : List α) : Json := .array (as.map f)

end Json

end Badging
