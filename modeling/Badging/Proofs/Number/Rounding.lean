import Badging.Number.Binary64

/-!
# Rounding quotients

Rounding looks at a quotient and not at the pair of numbers that states it, so a common factor of
the two changes nothing. A number of units that the format has a place for is a quotient that needs
no rounding.
-/

namespace Badging

-- Powers of natural numbers are those of `Nat`, whatever else is in sight.
attribute [local instance (2000)] instPowNat

namespace Binary64

variable {k : Nat}

theorem roundQuotient_mul_left (hk : 0 < k) (num den : Nat) :
    roundQuotient (k * num) (k * den) = roundQuotient num den := by
  have hquotient : k * num / (k * den) = num / den := Nat.mul_div_mul_left num den hk
  have htwice : 2 * (k * num % (k * den)) = k * (2 * (num % den)) := by
    rw [Nat.mul_mod_mul_left, Nat.mul_left_comm]
  simp only [roundQuotient, hquotient, htwice, Nat.mul_lt_mul_left hk]

/-- A common factor of the two numbers does not change the rounded quotient. -/
theorem roundUnits_mul_left (hk : 0 < k) (num den : Nat) :
    roundUnits (k * num) (k * den) = roundUnits num den := by
  have hquotient : k * num / (k * den) = num / den := Nat.mul_div_mul_left num den hk
  simp only [roundUnits, hquotient, Nat.mul_assoc, roundQuotient_mul_left hk]

theorem ofQuotient_mul_left (hk : 0 < k) (negative : Bool) (num den : Nat) :
    ofQuotient negative (k * num) (k * den) = ofQuotient negative num den := by
  rw [ofQuotient, ofQuotient, roundUnits_mul_left hk]

theorem roundQuotient_of_dvd {num den : Nat} (hden : 0 < den) (h : num % den = 0) :
    roundQuotient num den = num / den := by
  simp [roundQuotient, h, hden]

/-- A number of units that the format has a place for is not rounded. -/
theorem roundUnits_one {units : Nat} (h : Fits units) : roundUnits units 1 = units := by
  have hpos : 0 < 2 ^ (units.log2 - 52) := Nat.two_pow_pos _
  have hmod : units % 2 ^ (units.log2 - 52) = 0 := h.2
  simp only [roundUnits, excess, Nat.div_one, Nat.one_mul, roundQuotient_of_dvd hpos hmod]
  exact Nat.div_mul_cancel (Nat.dvd_of_mod_eq_zero hmod)

theorem ofUnits_of_fits {units : Nat} (negative : Bool) (h : Fits units) :
    ofUnits negative units = .finite negative units h :=
  dif_pos h

theorem ofUnits_true (units : Nat) : ofUnits true units = (ofUnits false units).neg := by
  unfold ofUnits
  split <;> rfl

end Binary64

end Badging
