/-!
# Tokens

A token is printed on an issued badge and lets others verify it. Its form is sixty-four
hexadecimal digits in small letters. A supply of tokens is made from a starting number by
steps of one odd length, modulo the number of tokens that there are. An odd step passes
through all of them before it comes back, so the tokens at different positions are different,
and one as long as the golden section of the range keeps neighbours far apart.
-/

namespace Badging

-- Powers of natural numbers are those of `Nat`, whatever else is in sight.
attribute [local instance (2000)] instPowNat

namespace Token

def length : Nat := 64

def count : Nat := 16 ^ length

/-- The token of a number; what the form has no place for is left away. -/
def ofNat (n : Nat) : String :=
  let ds := Nat.toDigits 16 (n % count)
  String.ofList (List.replicate (length - ds.length) '0' ++ ds)

def stride : Nat := 0x9e3779b97f4a7c15f39cc0605cedc8341082276bf3a27251f86c6a11d0c18e95

def supply (start : Nat) : Nat → String := fun i => ofNat (start + i * stride)

/-- Positions below the number of tokens lead to different numbers. -/
theorem stride_injective {start i j : Nat} (hi : i < count) (hj : j < count)
    (h : (start + i * stride) % count = (start + j * stride) % count) : i = j := by
  have hc : Nat.Coprime count stride := by
    refine Nat.Coprime.pow_left _ ?_
    decide
  have key : ∀ {a b : Nat}, a ≤ b → b < count →
      (start + a * stride) % count = (start + b * stride) % count → a = b := by
    intro a b hab hb h
    have hd : count ∣ (start + b * stride) - (start + a * stride) :=
      Nat.dvd_of_mod_eq_zero (Nat.sub_mod_eq_zero_of_mod_eq h.symm)
    have he : (start + b * stride) - (start + a * stride) = (b - a) * stride := by
      rw [Nat.sub_mul]; omega
    rw [he] at hd
    have hd' : count ∣ b - a := hc.dvd_of_dvd_mul_right hd
    have := Nat.eq_zero_of_dvd_of_lt hd' (by omega)
    omega
  rcases Nat.le_total i j with hij | hij
  · exact key hij hj h
  · exact (key hij hi h.symm).symm

end Token

end Badging
