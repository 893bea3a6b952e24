/-!
# Whole numbers as text

Identities, instants and periods are whole numbers of 64 bits with a sign. They are kept as
unbounded integers, because nothing here wraps around, and `InInt64` says which of them have
a place in 64 bits: every reader of outside text asks for it.

`readInteger?` takes what a person would call a whole number: an optional sign and at least
one digit, with as many zeros in front as one likes. `digits` and `integerText` write the
number without any of that freedom, so reading what was written gives the number back.
-/

namespace Badging

namespace Number

def InInt64 (n : Int) : Prop := -9223372036854775808 ≤ n ∧ n ≤ 9223372036854775807

instance (n : Int) : Decidable (InInt64 n) := by unfold InInt64; infer_instance

/-- The decimal digits of a natural number, without zeros in front. -/
def digits (n : Nat) : List Char := Nat.toDigits 10 n

def digitsValue (ds : List Char) : Nat := Nat.ofDigitChars 10 ds 0

def readNatural? (ds : List Char) : Option Nat :=
  if ds ≠ [] ∧ ds.all Char.isDigit then some (digitsValue ds) else none

def readUnsigned? : List Char → Option Nat
  | '+' :: ds => readNatural? ds
  | ds => readNatural? ds

/-- A whole number with an optional sign of either kind. -/
def readInteger? : List Char → Option Int
  | '-' :: ds => (readNatural? ds).map fun n => -(n : Int)
  | '+' :: ds => (readNatural? ds).map fun n => (n : Int)
  | ds => (readNatural? ds).map fun n => (n : Int)

def readInt64? (cs : List Char) : Option Int :=
  (readInteger? cs).filter fun n => decide (InInt64 n)

def readWord64? (cs : List Char) : Option Nat :=
  (readUnsigned? cs).filter (· ≤ 18446744073709551615)

def hexValue? (c : Char) : Option Nat :=
  if c.isDigit then some (c.toNat - 48)
  else if 'a' ≤ c ∧ c ≤ 'f' then some (c.toNat - 87)
  else if 'A' ≤ c ∧ c ≤ 'F' then some (c.toNat - 55)
  else none

/-- The number that a list of hexadecimal digits stands for, on top of `n` read before. -/
def hexDigitsValue? (n : Nat) : List Char → Option Nat
  | [] => some n
  | c :: cs => (hexValue? c).bind fun d => hexDigitsValue? (16 * n + d) cs

def readHexInteger? : List Char → Option Int
  | [] => none
  | '-' :: c :: cs => (hexDigitsValue? 0 (c :: cs)).map fun n => -(n : Int)
  | '+' :: c :: cs => (hexDigitsValue? 0 (c :: cs)).map fun n => (n : Int)
  | cs => (hexDigitsValue? 0 cs).map fun n => (n : Int)

def integerChars : Int → List Char
  | .ofNat n => digits n
  | .negSucc n => '-' :: digits (n + 1)

def integerText (n : Int) : String := String.ofList (integerChars n)

/-- A number in at least `width` digits, with zeros in front where it is short. -/
def padded (width n : Nat) : List Char :=
  List.replicate (width - (digits n).length) '0' ++ digits n

theorem digitsValue_digits (n : Nat) : digitsValue (digits n) = n :=
  Nat.ofDigitChars_toDigits (by decide) (by decide)

theorem digits_ne_nil (n : Nat) : digits n ≠ [] := Nat.toDigits_ne_nil

theorem isDigit_of_mem_digits {n : Nat} {c : Char} (h : c ∈ digits n) : c.isDigit = true :=
  Nat.isDigit_of_mem_toDigits (by decide) (by decide) h

theorem readNatural?_digits (n : Nat) : readNatural? (digits n) = some n := by
  have hall : (digits n).all Char.isDigit = true :=
    List.all_eq_true.2 fun c hc => isDigit_of_mem_digits hc
  simp [readNatural?, digits_ne_nil, hall, digitsValue_digits]

/-- Digits start with no sign, so they are read as they stand. -/
theorem readInteger?_digits (n : Nat) : readInteger? (digits n) = some (n : Int) := by
  unfold readInteger?
  split
  · rename_i ds h
    have := isDigit_of_mem_digits (n := n) (c := '-') (by simp [h])
    simp at this
  · rename_i ds h
    have := isDigit_of_mem_digits (n := n) (c := '+') (by simp [h])
    simp at this
  · simp [readNatural?_digits]

theorem readInteger?_integerChars (n : Int) : readInteger? (integerChars n) = some n := by
  cases n with
  | ofNat n => exact readInteger?_digits n
  | negSucc n =>
    show (readNatural? (digits (n + 1))).map (fun n => -(n : Int)) = _
    rw [readNatural?_digits]
    rfl

theorem readInt64?_integerChars {n : Int} (h : InInt64 n) :
    readInt64? (integerChars n) = some n := by
  simp [readInt64?, readInteger?_integerChars, h]

end Number

end Badging
