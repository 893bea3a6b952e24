import Badging.Number.Decimal
import Badging.Proofs.Number.Rounding
import Badging.Text.Blank

/-!
# Numbers read back from their text

The text of a binary number is that of a decimal that reads back as the number. Three facts carry
this: a zero at the end of the significand can be traded for one step of the exponent without a
change of what is read, so neither taking the zeros away nor writing them out matters; the exact
decimal of a number reads back since it is the number times a common factor; and reading positional
text finds the significand and the exponent again.
-/

namespace Badging

-- Powers of natural numbers are those of `Nat`, whatever else is in sight.
attribute [local instance (2000)] instPowNat

namespace Number

theorem length_digits_mul_ten {n : Nat} (h : n ≠ 0) :
    (digits (n * 10)).length = (digits n).length + 1 := by
  have hle : 10 ≤ n * 10 := by omega
  rw [digits, Nat.toDigits_of_base_le (by decide) hle, List.length_append,
    Nat.mul_div_cancel n (by decide)]
  rfl

theorem digitsValue_append (ds es : List Char) :
    digitsValue (ds ++ es) = Nat.ofDigitChars 10 es (digitsValue ds) :=
  Nat.ofDigitChars_append 0

theorem digitsValue_append_zeros (ds : List Char) (n : Nat) :
    digitsValue (ds ++ List.replicate n '0') = digitsValue ds * 10 ^ n := by
  rw [digitsValue_append, Nat.ofDigitChars_replicate_zero, Nat.mul_comm]

theorem digitsValue_zeros_append (n : Nat) (ds : List Char) :
    digitsValue (List.replicate n '0' ++ ds) = digitsValue ds := by
  have hzeros : digitsValue (List.replicate n '0') = 0 := by
    rw [digitsValue, Nat.ofDigitChars_replicate_zero, Nat.mul_zero]
  rw [digitsValue_append, hzeros, digitsValue]

end Number

namespace Decimal

open Number

theorem magnitude_mul_ten {s : Nat} (hs : s ≠ 0) (e : Int) :
    magnitude ⟨s * 10, e⟩ = magnitude ⟨s, e + 1⟩ := by
  simp only [magnitude, length_digits_mul_ten hs]
  omega

theorem toBinary64_mul_ten (negative : Bool) (s : Nat) (e : Int) :
    toBinary64 negative ⟨s * 10, e⟩ = toBinary64 negative ⟨s, e + 1⟩ := by
  by_cases hs : s = 0
  · simp [toBinary64, hs]
  · have hs' : s * 10 ≠ 0 := by omega
    simp only [toBinary64, hs, hs', if_false, magnitude_mul_ten hs]
    congr 2
    cases e with
    | ofNat n =>
      show Binary64.ofQuotient negative (s * 10 * 10 ^ n * Binary64.one) 1 =
        Binary64.ofQuotient negative (s * 10 ^ (n + 1) * Binary64.one) 1
      rw [Nat.pow_succ', Nat.mul_assoc s 10]
    | negSucc n =>
      have hscale : s * 10 * Binary64.one = 10 * (s * Binary64.one) := by
        rw [Nat.mul_comm s 10, Nat.mul_assoc]
      cases n with
      | zero =>
        show Binary64.ofQuotient negative (s * 10 * Binary64.one) (10 * 1) =
          Binary64.ofQuotient negative (s * 1 * Binary64.one) 1
        rw [hscale, Binary64.ofQuotient_mul_left (by decide), Nat.mul_one]
      | succ n =>
        show Binary64.ofQuotient negative (s * 10 * Binary64.one) (10 ^ (n + 1 + 1)) =
          Binary64.ofQuotient negative (s * Binary64.one) (10 ^ (n + 1))
        rw [hscale, Nat.pow_succ', Binary64.ofQuotient_mul_left (by decide)]

theorem toBinary64_mul_pow_ten (negative : Bool) (s n : Nat) (e : Int) :
    toBinary64 negative ⟨s * 10 ^ n, e⟩ = toBinary64 negative ⟨s, e + n⟩ := by
  induction n generalizing e with
  | zero => simp
  | succ n ih =>
    have hexponent : e + 1 + (n : Int) = e + ((n + 1 : Nat) : Int) := by omega
    rw [Nat.pow_succ, ← Nat.mul_assoc, toBinary64_mul_ten, ih, hexponent]

/-- Taking zeros away from the significand does not change what is read. -/
theorem toBinary64_strip (negative : Bool) (fuel : Nat) (d : Decimal) :
    (strip fuel d).toBinary64 negative = d.toBinary64 negative := by
  induction fuel generalizing d with
  | zero => rfl
  | succ fuel ih =>
    obtain ⟨s, e⟩ := d
    rw [strip]
    split
    · next hzero =>
      have hs : s / 10 * 10 = s := Nat.div_mul_cancel (Nat.dvd_of_mod_eq_zero hzero)
      rw [ih, ← toBinary64_mul_ten, hs]
    · rfl

@[simp] theorem toBinary64_reduce (negative : Bool) (d : Decimal) :
    d.reduce.toBinary64 negative = d.toBinary64 negative :=
  toBinary64_strip negative _ d

theorem toBinary64_true (d : Decimal) : d.toBinary64 true = (d.toBinary64 false).neg := by
  unfold toBinary64
  split
  · exact Binary64.ofUnits_true 0
  · split
    · rfl
    · split
      · exact Binary64.ofUnits_true 0
      · split <;> exact Binary64.ofUnits_true _

/-- The digits of the positional text: those of the significand, with zeros on one side. -/
theorem chars_eq (d : Decimal) :
    (∃ e : Nat, d.exponent = e ∧ d.chars = digits d.significand ++ List.replicate e '0') ∨
      ∃ whole places : List Char, d.exponent = -(places.length : Int) ∧ places ≠ [] ∧
        whole ≠ [] ∧ digitsValue (whole ++ places) = d.significand ∧
        (∀ c ∈ whole ++ places, c.isDigit = true) ∧ d.chars = whole ++ '.' :: places := by
  obtain ⟨s, e⟩ := d
  have hdigits : ∀ c ∈ digits s, c.isDigit = true := fun c hc => isDigit_of_mem_digits hc
  cases e with
  | ofNat n => exact .inl ⟨n, rfl, rfl⟩
  | negSucc n =>
    right
    by_cases hlong : n + 1 < (digits s).length
    -- The point stands between two digits of the significand.
    · refine ⟨(digits s).take ((digits s).length - (n + 1)),
        (digits s).drop ((digits s).length - (n + 1)), ?_, ?_, ?_, ?_, ?_, ?_⟩
      · rw [List.length_drop]
        show Int.negSucc n = _
        omega
      · apply List.ne_nil_of_length_pos
        rw [List.length_drop]
        omega
      · apply List.ne_nil_of_length_pos
        rw [List.length_take]
        omega
      · rw [List.take_append_drop, digitsValue_digits]
      · rwa [List.take_append_drop]
      · simp only [chars, if_pos hlong]
    -- The value is below one: a zero stands in front of the point, and zeros may stand behind it.
    · refine ⟨['0'], List.replicate (n + 1 - (digits s).length) '0' ++ digits s,
        ?_, ?_, ?_, ?_, ?_, ?_⟩
      · rw [List.length_append, List.length_replicate]
        show Int.negSucc n = _
        omega
      · simp [digits_ne_nil]
      · simp
      · rw [← List.append_assoc]
        have hzeros : ['0'] ++ List.replicate (n + 1 - (digits s).length) '0' =
            List.replicate (n + 1 - (digits s).length + 1) '0' := rfl
        rw [hzeros, digitsValue_zeros_append, digitsValue_digits]
      · intro c hc
        rcases List.mem_append.1 hc with hc | hc
        · rw [List.mem_singleton.1 hc]
          decide
        · rcases List.mem_append.1 hc with hc | hc
          · rw [List.eq_of_mem_replicate hc]
            decide
          · exact hdigits c hc
      · simp only [chars, if_neg hlong]
        rfl

end Decimal

namespace Binary64

open Number Decimal

theorem span_digits {ds : List Char} (rest : List Char) (hds : ∀ c ∈ ds, c.isDigit = true)
    (hrest : ∀ c, rest.head? = some c → c.isDigit = false) :
    (ds ++ rest).takeWhile Char.isDigit = ds ∧ (ds ++ rest).dropWhile Char.isDigit = rest := by
  rw [List.takeWhile_append_of_pos hds, List.dropWhile_append_of_pos hds]
  cases rest with
  | nil => simp
  | cons c cs => simp [hrest c rfl]

theorem readDigits?_whole (negative : Bool) {ds : List Char} (hne : ds ≠ [])
    (hds : ∀ c ∈ ds, c.isDigit = true) :
    readDigits? negative ds = some (toBinary64 negative ⟨digitsValue ds, 0⟩) := by
  obtain ⟨htake, hdrop⟩ := span_digits [] hds (fun c h => by cases h)
  rw [List.append_nil] at htake hdrop
  simp [readDigits?, htake, hdrop, hne, readExponent?]

theorem readDigits?_places (negative : Bool) {whole places : List Char} (hne : whole ≠ [])
    (hds : ∀ c ∈ whole ++ places, c.isDigit = true) :
    readDigits? negative (whole ++ '.' :: places) =
      some (toBinary64 negative ⟨digitsValue (whole ++ places), -(places.length : Int)⟩) := by
  have hwhole : ∀ c ∈ whole, c.isDigit = true := fun c hc => hds c (List.mem_append_left _ hc)
  have hplaces : ∀ c ∈ places, c.isDigit = true := fun c hc => hds c (List.mem_append_right _ hc)
  obtain ⟨htake, hdrop⟩ := span_digits ('.' :: places) hwhole (fun c h => by
    cases h
    decide)
  obtain ⟨htake', hdrop'⟩ := span_digits [] hplaces (fun c h => by cases h)
  rw [List.append_nil] at htake' hdrop'
  simp [readDigits?, htake, hdrop, htake', hdrop', hne, readExponent?]

theorem readDigits?_chars (negative : Bool) (d : Decimal) :
    readDigits? negative d.chars = some (d.toBinary64 negative) := by
  rcases d.chars_eq with ⟨e, he, hchars⟩ | ⟨whole, places, he, -, hne, hvalue, hds, hchars⟩
  · have hds : ∀ c ∈ digits d.significand ++ List.replicate e '0', c.isDigit = true := by
      intro c hc
      rcases List.mem_append.1 hc with hc | hc
      · exact isDigit_of_mem_digits hc
      · rw [List.eq_of_mem_replicate hc]
        decide
    have hd : d = ⟨d.significand, 0 + (e : Int)⟩ := by
      rw [Int.zero_add, ← he]
    rw [hchars, readDigits?_whole negative (by simp [digits_ne_nil]) hds,
      digitsValue_append_zeros, digitsValue_digits, toBinary64_mul_pow_ten, ← hd]
  · rw [hchars, readDigits?_places negative hne hds, hvalue, ← he]

/-- A neighbour that is chosen was read first. -/
theorem toBinary64_of_neighbour? {units length : Nat} {d : Decimal}
    (h : neighbour? units length = some d) : d.toBinary64 false = ofUnits false units := by
  unfold neighbour? at h
  dsimp only at h
  split at h
  · next hbelow =>
    cases h
    exact of_decide_eq_true hbelow.1
  · split at h
    · next habove =>
      cases h
      exact of_decide_eq_true habove
    · cases h

theorem length_digits_mul_five_pow {u n k m : Nat} (hlog : u.log2 < 8 * k + n) (hu : u ≠ 0)
    (hn : n = 3 * m) :
    2 * m < (digits (u * 5 ^ n)).length ∧ (digits (u * 5 ^ n)).length ≤ 3 * k + n := by
  have hupper : u * 5 ^ n < 10 ^ (3 * k + n) :=
    calc u * 5 ^ n
      _ < 2 ^ (8 * k + n) * 5 ^ n :=
        Nat.mul_lt_mul_of_pos_right (Nat.lt_of_lt_of_le Nat.lt_log2_self
          (Nat.pow_le_pow_right (by decide) hlog)) (Nat.pow_pos (by decide))
      _ = 2 ^ (8 * k) * (2 * 5) ^ n := by
        rw [Nat.pow_add, Nat.mul_assoc, ← Nat.mul_pow]
      _ ≤ 10 ^ (3 * k) * 10 ^ n := by
        rw [Nat.pow_mul, Nat.pow_mul]
        exact Nat.mul_le_mul_right _ (Nat.pow_le_pow_left (by decide) k)
      _ = 10 ^ (3 * k + n) := (Nat.pow_add 10 (3 * k) n).symm
  have hlower : 10 ^ (2 * m) ≤ u * 5 ^ n :=
    calc 10 ^ (2 * m)
      _ ≤ 5 ^ n := by
        rw [hn, Nat.pow_mul, Nat.pow_mul]
        exact Nat.pow_le_pow_left (by decide) m
      _ ≤ u * 5 ^ n := Nat.le_mul_of_pos_left _ (Nat.pos_of_ne_zero hu)
  have hpos : 0 < 3 * k + n := by omega
  constructor
  · by_cases hm : m = 0
    · rw [hm, Nat.mul_zero]
      exact List.length_pos_iff.2 (digits_ne_nil _)
    · refine Nat.lt_of_not_le fun hle => ?_
      have hlt := (Nat.length_toDigits_le_iff (by decide) (by omega)).1 hle
      exact Nat.not_lt.2 hlower hlt
  · exact (Nat.length_toDigits_le_iff (by decide) hpos).2 hupper

theorem toBinary64_places (negative : Bool) {d : Decimal} {n : Nat} (hs : d.significand ≠ 0)
    (hn : 0 < n) (he : d.exponent = -(n : Int)) (hlow : -400 ≤ d.magnitude)
    (hhigh : d.magnitude ≤ 400) :
    d.toBinary64 negative = ofQuotient negative (d.significand * one) (10 ^ n) := by
  rw [toBinary64, if_neg hs, if_neg (Int.not_lt.2 hhigh), if_neg (Int.not_lt.2 hlow)]
  cases n with
  | zero => cases hn
  | succ n =>
    have he' : d.exponent = .negSucc n := he
    rw [he']

/-- The exact decimal reads back: it is the number with a common factor in both parts. -/
theorem toBinary64_exactDecimal {u : Nat} (h : Fits u) (hu : u ≠ 0) :
    (exactDecimal u).toBinary64 false = ofUnits false u := by
  have hlength := length_digits_mul_five_pow (n := 1074) (k := 128) (m := 358) h.1 hu rfl
  have hmagnitude : (exactDecimal u).magnitude =
      -1074 + ((digits (u * 5 ^ (1074 : Nat))).length : Int) := rfl
  -- The steps are stated for any number of places, so that no power is ever worked out.
  have hpow (n : Nat) : 5 ^ n ≠ 0 := Nat.ne_of_gt (Nat.pow_pos (by decide))
  have hsignificand : (exactDecimal u).significand ≠ 0 := Nat.mul_ne_zero hu (hpow 1074)
  have hscale (n : Nat) : u * 5 ^ n * 2 ^ n = 10 ^ n * u := by
    rw [Nat.mul_assoc, ← Nat.mul_pow, Nat.mul_comm]
  have hone : (exactDecimal u).significand * one = 10 ^ (1074 : Nat) * u := by
    unfold exactDecimal one
    exact hscale 1074
  have hround (n : Nat) : ofQuotient false (10 ^ n * u) (10 ^ n) = ofUnits false u := by
    have hmul := ofQuotient_mul_left (Nat.pow_pos (by decide) : 0 < 10 ^ n) false u 1
    rw [Nat.mul_one] at hmul
    rw [hmul, ofQuotient, roundUnits_one h]
  rw [toBinary64_places false hsignificand (n := 1074) (by decide) rfl (by omega) (by omega), hone]
  exact hround 1074

theorem toBinary64_shortest {units : Nat} (h : Fits units) (hunits : units ≠ 0) :
    (shortest units).toBinary64 false = ofUnits false units := by
  rw [shortest, toBinary64_reduce]
  cases hfound : (List.range' 1 17).findSome? (neighbour? units) with
  | none => exact toBinary64_exactDecimal h hunits
  | some d =>
    obtain ⟨length, -, hd⟩ := List.exists_of_findSome?_eq_some hfound
    exact toBinary64_of_neighbour? hd

theorem readDigits?_shortest (negative : Bool) {u : Nat} (h : Fits u) :
    readDigits? negative (if u = 0 then ['0'] else (shortest u).chars) =
      some (.finite negative u h) := by
  by_cases hu : u = 0
  · subst hu
    have hzero : ∀ c ∈ ['0'], c.isDigit = true := by
      intro c hc
      rw [List.mem_singleton.1 hc]
      rfl
    rw [if_pos rfl, readDigits?_whole negative (List.cons_ne_nil _ _) hzero]
    exact congrArg some (ofUnits_of_fits negative h)
  · rw [if_neg hu, readDigits?_chars]
    cases negative with
    | false => rw [toBinary64_shortest h hu, ofUnits_of_fits]
    | true => rw [toBinary64_true, toBinary64_shortest h hu, ← ofUnits_true, ofUnits_of_fits]

/-- The text of a finite number without its sign: a digit, and further digits and points. -/
theorem chars_finite (negative : Bool) {u : Nat} (h : Fits u) :
    ∃ c cs, c.isDigit = true ∧ (∀ d ∈ c :: cs, d.isDigit = true ∨ d = '.') ∧
      (if u = 0 then ['0'] else (shortest u).chars) = c :: cs ∧
      readDigits? negative (c :: cs) = some (.finite negative u h) := by
  have hread := readDigits?_shortest negative h
  by_cases hu : u = 0
  · rw [if_pos hu] at hread ⊢
    refine ⟨'0', [], rfl, fun d hd => ?_, rfl, hread⟩
    rw [List.mem_singleton.1 hd]
    exact .inl rfl
  · rw [if_neg hu] at hread ⊢
    rcases (shortest u).chars_eq with ⟨e, -, hchars⟩ | ⟨whole, places, -, -, hne, -, hds, hchars⟩
    · obtain ⟨c, cs, hcs⟩ := List.exists_cons_of_ne_nil (digits_ne_nil (shortest u).significand)
      rw [hcs, List.cons_append] at hchars
      rw [hchars] at hread
      have hc : c ∈ digits (shortest u).significand := hcs ▸ List.mem_cons_self
      refine ⟨c, cs ++ List.replicate e '0', isDigit_of_mem_digits hc, fun d hd => ?_, hchars,
        hread⟩
      rw [← List.cons_append, ← hcs] at hd
      rcases List.mem_append.1 hd with hd | hd
      · exact .inl (isDigit_of_mem_digits hd)
      · rw [List.eq_of_mem_replicate hd]
        decide
    · obtain ⟨c, cs, rfl⟩ := List.exists_cons_of_ne_nil hne
      rw [hchars] at hread
      refine ⟨c, cs ++ '.' :: places, hds c List.mem_cons_self, fun d hd => ?_, hchars, hread⟩
      rw [← List.cons_append] at hd
      rcases List.mem_append.1 hd with hd | hd
      · exact .inl (hds d (List.mem_append_left _ hd))
      · rcases List.mem_cons.1 hd with rfl | hd
        · exact .inr rfl
        · exact .inl (hds d (List.mem_append_right _ hd))

theorem readUnsigned?_of_isDigit (negative : Bool) {c : Char} (cs : List Char)
    (hc : c.isDigit = true) :
    readUnsigned? negative (c :: cs) = readDigits? negative (c :: cs) := by
  have hword {w : String} {d : Char} {ds : List Char} (hw : w.toList = d :: ds)
      (hd : d.isDigit = false) : Text.lower (String.ofList (c :: cs)) ≠ w := by
    intro h
    have hlist := congrArg String.toList h
    rw [hw, Text.lower, String.toList_ofList, String.toList_ofList, List.map_cons,
      Text.toLower_of_isDigit hc] at hlist
    rw [List.cons.inj hlist |>.1, hd] at hc
    cases hc
  have hinf : Text.lower (String.ofList (c :: cs)) ≠ "inf" := hword rfl rfl
  have hinfinity : Text.lower (String.ofList (c :: cs)) ≠ "infinity" := hword rfl rfl
  have hnan : Text.lower (String.ofList (c :: cs)) ≠ "nan" := hword rfl rfl
  simp only [readUnsigned?, hinf, hinfinity, hnan, or_self, if_false]

/-- Every number is read back from its text. -/
theorem read?_chars (x : Binary64) : read? x.chars = some x := by
  cases x with
  | nan => decide
  | infinite s => cases s <;> decide
  | finite s u h =>
    obtain ⟨c, cs, hc, -, heq, hread⟩ := chars_finite s h
    rw [chars, heq]
    cases s with
    | true =>
      show readUnsigned? true (c :: cs) = _
      rw [readUnsigned?_of_isDigit true cs hc, hread]
    | false =>
      have hminus : c ≠ '-' := by
        rintro rfl
        cases hc
      have hplus : c ≠ '+' := by
        rintro rfl
        cases hc
      have hstart : read? (c :: cs) = readUnsigned? false (c :: cs) := by
        unfold read?
        split
        · next heq => exact absurd (List.cons.inj heq).1 hminus
        · next heq => exact absurd (List.cons.inj heq).1 hplus
        · rfl
      show read? (c :: cs) = _
      rw [hstart, readUnsigned?_of_isDigit false cs hc, hread]

theorem isBlank_of_mem_chars {x : Binary64} (hx : x.isFinite = true) :
    ∀ c ∈ x.chars, Text.isBlank c = false := by
  cases x with
  | nan => cases hx
  | infinite s => cases hx
  | finite s u h =>
    obtain ⟨c, cs, -, hcs, heq, -⟩ := chars_finite s h
    intro d hd
    rw [chars, heq] at hd
    rcases List.mem_append.1 hd with hd | hd
    · cases s with
      | true =>
        rw [List.mem_singleton.1 hd]
        decide
      | false => cases hd
    · rcases hcs d hd with hd | rfl
      · exact Text.isBlank_of_isDigit hd
      · decide

end Binary64

end Badging
