/-!
# Blank characters

`isBlank` is the Unicode property White_Space: twenty-five characters, of which six
are ASCII. Trimming a text means dropping the blanks at its two ends, and it is defined
on the list of characters, so that the trimmed text is a contiguous piece of the given
one and nothing has to be said about byte positions.
-/

namespace Badging

namespace Text

/-- The characters with the Unicode property White_Space. -/
def isBlank (c : Char) : Bool :=
  let n := c.toNat
  (9 ≤ n && n ≤ 13) || n == 0x20 || n == 0x85 || n == 0xA0 || n == 0x1680 ||
    (0x2000 ≤ n && n ≤ 0x200A) || n == 0x2028 || n == 0x2029 || n == 0x202F ||
    n == 0x205F || n == 0x3000

def dropBlanks (cs : List Char) : List Char := cs.dropWhile isBlank

def trimChars (cs : List Char) : List Char :=
  (dropBlanks (dropBlanks cs).reverse).reverse

def trim (s : String) : String := String.ofList (trimChars s.toList)

@[simp] theorem dropBlanks_nil : dropBlanks [] = [] := rfl

theorem dropBlanks_cons (c : Char) (cs : List Char) :
    dropBlanks (c :: cs) = if isBlank c then dropBlanks cs else c :: cs := by
  simp only [dropBlanks, List.dropWhile_cons]

theorem isBlank_head_dropBlanks {cs rest : List Char} {c : Char}
    (h : dropBlanks cs = c :: rest) : isBlank c = false := by
  induction cs with
  | nil => simp at h
  | cons d ds ih =>
    rw [dropBlanks_cons] at h
    by_cases hd : isBlank d
    · exact ih (by simpa [hd] using h)
    · simp only [hd, Bool.false_eq_true, if_false, List.cons.injEq] at h
      simpa [h.1] using hd

theorem dropBlanks_of_not_blank {c : Char} {cs : List Char} (h : isBlank c = false) :
    dropBlanks (c :: cs) = c :: cs := by
  simp [dropBlanks_cons, h]

theorem dropBlanks_dropBlanks (cs : List Char) : dropBlanks (dropBlanks cs) = dropBlanks cs := by
  cases h : dropBlanks cs with
  | nil => rfl
  | cons c rest => exact dropBlanks_of_not_blank (isBlank_head_dropBlanks h)

theorem dropBlanks_of_forall {cs : List Char} (h : ∀ c ∈ cs, isBlank c = false) :
    dropBlanks cs = cs := by
  cases cs with
  | nil => rfl
  | cons c cs => exact dropBlanks_of_not_blank (h c List.mem_cons_self)

theorem trimChars_of_forall {cs : List Char} (h : ∀ c ∈ cs, isBlank c = false) :
    trimChars cs = cs := by
  have hreverse : ∀ c ∈ cs.reverse, isBlank c = false := fun c hc => h c (List.mem_reverse.1 hc)
  rw [trimChars, dropBlanks_of_forall h, dropBlanks_of_forall hreverse, List.reverse_reverse]

theorem isBlank_of_isDigit {c : Char} (h : c.isDigit = true) : isBlank c = false := by
  simp only [Char.isDigit, Bool.and_eq_true, decide_eq_true_eq, UInt32.le_iff_toNat_le] at h
  have hlow : 48 ≤ c.toNat := h.1
  have hhigh : c.toNat ≤ 57 := h.2
  simp only [isBlank, Bool.or_eq_false_iff, Bool.and_eq_false_iff, decide_eq_false_iff_not,
    beq_eq_false_iff_ne]
  omega

end Text

end Badging
