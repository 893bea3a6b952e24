/-!
# Letter case

Names of networks, row kinds and settings are compared without regard to the case of the
twenty-six ASCII letters, and only of those: `Ä` and `ä` stay two letters. `lower` is the
representative of such a class of texts, so two texts are alike when their representatives
are equal.
-/

namespace Badging

namespace Text

def lower (s : String) : String := String.ofList (s.toList.map Char.toLower)

def alike (s t : String) : Bool := lower s == lower t

theorem alike_iff {s t : String} : alike s t = true ↔ lower s = lower t := by
  simp [alike]

@[simp] theorem alike_self (s : String) : alike s s = true := by
  simp [alike]

/-- The small form of a letter is its own small form. -/
theorem toLower_toLower (c : Char) : c.toLower.toLower = c.toLower := by
  have hlarge (c : Char) (h : c.val ≥ 'A'.val ∧ c.val ≤ 'Z'.val) :
      c.toLower.val = c.val + ('a'.val - 'A'.val) := congrArg Char.val (dif_pos h)
  have hother (c : Char) (h : ¬ (c.val ≥ 'A'.val ∧ c.val ≤ 'Z'.val)) : c.toLower = c := dif_neg h
  by_cases h : c.val ≥ 'A'.val ∧ c.val ≤ 'Z'.val
  · have hA : 'A'.val = 65 := by decide
    have hZ : 'Z'.val = 90 := by decide
    have hshift : 'a'.val - 'A'.val = 32 := by decide
    have h65 : (65 : UInt32).toNat = 65 := by decide
    have h90 : (90 : UInt32).toNat = 90 := by decide
    have h32 : (32 : UInt32).toNat = 32 := by decide
    apply hother
    rw [hlarge c h, hshift]
    simp only [hA, hZ, UInt32.le_iff_toNat_le, ge_iff_le, UInt32.toNat_add] at h ⊢
    omega
  · rw [hother c h, hother c h]

@[simp] theorem lower_lower (s : String) : lower (lower s) = lower s := by
  simp only [lower, String.toList_ofList, List.map_map]
  congr 1
  exact List.map_congr_left fun c _ => toLower_toLower c

theorem toLower_of_isDigit {c : Char} (h : c.isDigit = true) : c.toLower = c := by
  have hA : ('A'.val).toNat = 65 := by decide
  simp only [Char.isDigit, Bool.and_eq_true, decide_eq_true_eq, UInt32.le_iff_toNat_le] at h
  have hhigh : c.val.toNat ≤ 57 := h.2
  refine dif_neg fun hcapital => ?_
  have hlow := UInt32.le_iff_toNat_le.1 hcapital.1
  omega

end Text

end Badging
