/-!
# Binary floating-point numbers of 64 bits

Grades are binary floating-point numbers. Every finite one is a whole multiple of the unit
`2 ^ -1074`, so a finite number is a sign and a natural number of units, and the format
says which natural numbers occur: those of at most 2098 binary digits whose digits after
the leading 53 are all zero. With that view comparing is comparing integers, and rounding
is one function on quotients of natural numbers, `roundUnits`, to nearest with ties to the
even neighbour.

There are two zeros. They are two values of the type, and neither is less than the other.
A number that is not a number is less than nothing and greater than nothing.
-/

namespace Badging

-- Powers of natural numbers are those of `Nat`, whatever else is in sight.
attribute [local instance (2000)] instPowNat

/-- The natural numbers of units that the format has a place for. -/
def Binary64.Fits (units : Nat) : Prop :=
  units.log2 < 2098 ∧ units % 2 ^ (units.log2 - 52) = 0

instance (units : Nat) : Decidable (Binary64.Fits units) := by
  unfold Binary64.Fits; infer_instance

/-- A binary floating-point number of 64 bits; a finite one counts units of `2 ^ -1074`. -/
inductive Binary64 where
  | nan
  | infinite (negative : Bool)
  | finite (negative : Bool) (units : Nat) (fits : Binary64.Fits units)
deriving DecidableEq

namespace Binary64

def one : Nat := 2 ^ (1074 : Nat)

/-- The number of binary digits that `units` has beyond the leading 53. -/
def excess (units : Nat) : Nat := units.log2 - 52

/-- The whole number nearest to `num / den`, and of two such the even one. -/
def roundQuotient (num den : Nat) : Nat :=
  let q := num / den
  let twice := 2 * (num % den)
  if twice < den then q
  else if den < twice then q + 1
  else if q % 2 = 0 then q else q + 1

/-- The quotient `num / den`, counted in units and rounded to 53 binary digits. -/
def roundUnits (num den : Nat) : Nat :=
  let s := excess (num / den)
  roundQuotient num (den * 2 ^ s) * 2 ^ s

/-- The number with the given count of units; a count beyond the format is infinite. -/
def ofUnits (negative : Bool) (units : Nat) : Binary64 :=
  if h : Fits units then .finite negative units h else .infinite negative

def ofQuotient (negative : Bool) (num den : Nat) : Binary64 :=
  ofUnits negative (roundUnits num den)

def ofNat (n : Nat) : Binary64 := ofQuotient false (n * one) 1

def neg : Binary64 → Binary64
  | .nan => .nan
  | .infinite s => .infinite (!s)
  | .finite s u h => .finite (!s) u h

/-- The rounded product of two positive numbers; used for scaling by powers of ten. -/
def scaleUp (x p : Binary64) : Binary64 :=
  match x, p with
  | .finite s u _, .finite _ v _ => ofQuotient s (u * v) one
  | x, _ => x

def scaleDown (x p : Binary64) : Binary64 :=
  match x, p with
  | .finite s u _, .finite _ v _ => ofQuotient s (u * one) v
  | x, _ => x

/-- The finite numbers as integers, counted in units; both zeros are zero. -/
def signedUnits (negative : Bool) (units : Nat) : Int :=
  if negative then -(units : Int) else units

/-- The order of the numbers. No number compares with the one that is not a number. -/
def le : Binary64 → Binary64 → Bool
  | .nan, _ => false
  | _, .nan => false
  | .infinite true, _ => true
  | _, .infinite false => true
  | .infinite false, _ => false
  | _, .infinite true => false
  | .finite s u _, .finite t v _ => signedUnits s u ≤ signedUnits t v

def isFinite : Binary64 → Bool
  | .finite _ _ _ => true
  | _ => false

def zero : Binary64 := .finite false 0 (by decide)

/-- The numbers that serve as a lowest grade: finite and not below zero. -/
def isGrade (x : Binary64) : Bool := x.isFinite && le zero x

theorem le_nan_right (x : Binary64) : le x .nan = false := by cases x <;> rfl

theorem le_nan_left (x : Binary64) : le .nan x = false := by cases x <;> rfl

theorem le_trans {x y z : Binary64} (hxy : le x y = true) (hyz : le y z = true) :
    le x z = true := by
  rcases x with _ | ⟨_ | _⟩ | ⟨s, u, hu⟩ <;> rcases y with _ | ⟨_ | _⟩ | ⟨t, v, hv⟩ <;>
    rcases z with _ | ⟨_ | _⟩ | ⟨r, w, hw⟩ <;> simp_all [le]
  omega

end Binary64

end Badging
