/-!
# Texts as bytes

A text can be counted in bytes, of which a character has one to four, and it can be cut at a
position that is counted in bytes. Such a cut is possible only between two characters; the
positions inside of a character are the ones at which `cutAt?` finds nothing.

Bytes that come from elsewhere need not be a text. `ofBytes` reads them with the replacement
character U+FFFD in place of each piece that is the beginning of no character or breaks off.
-/

namespace Badging

namespace Text

def byteLength : List Char → Nat
  | [] => 0
  | c :: cs => c.utf8Size + byteLength cs

/-- Cuts a list of characters behind a number of bytes, if a character ends there. -/
def cutAt? : Nat → List Char → Option (List Char × List Char)
  | 0, cs => some ([], cs)
  | _ + 1, [] => none
  | n + 1, c :: cs =>
    if c.utf8Size ≤ n + 1 then
      (cutAt? (n + 1 - c.utf8Size) cs).map fun p => (c :: p.1, p.2)
    else none

/-- The characters between two positions in bytes, if characters end at both. -/
def slice? (first last : Nat) (cs : List Char) : Option (List Char) := do
  let (_, rest) ← cutAt? first cs
  let (piece, _) ← cutAt? (last - first) rest
  return piece

@[simp] theorem byteLength_nil : byteLength [] = 0 := rfl

theorem byteLength_append (cs ds : List Char) :
    byteLength (cs ++ ds) = byteLength cs + byteLength ds := by
  induction cs with
  | nil => simp
  | cons c cs ih => simp [byteLength, ih, Nat.add_assoc]

/-- A cut loses nothing, and its first part has the number of bytes that was asked for. -/
theorem append_of_cutAt? {n : Nat} {cs front back : List Char}
    (h : cutAt? n cs = some (front, back)) : front ++ back = cs ∧ byteLength front = n := by
  fun_induction cutAt? n cs generalizing front back with
  | case1 cs =>
    obtain ⟨rfl, rfl⟩ := Prod.mk.inj (Option.some.inj h)
    exact ⟨rfl, rfl⟩
  | case2 => simp at h
  | case3 n c cs hc ih =>
    obtain ⟨⟨front', back'⟩, hp, hq⟩ := Option.map_eq_some_iff.1 h
    obtain ⟨rfl, rfl⟩ := Prod.mk.inj hq
    obtain ⟨h₁, h₂⟩ := ih hp
    exact ⟨by rw [List.cons_append, h₁], by simp only [byteLength, h₂]; omega⟩
  | case4 => simp at h

theorem cutAt?_byteLength (front back : List Char) :
    cutAt? (byteLength front) (front ++ back) = some (front, back) := by
  induction front with
  | nil => simp [cutAt?]
  | cons c cs ih =>
    obtain ⟨n, hn⟩ : ∃ n, byteLength (c :: cs) = n + 1 :=
      ⟨byteLength (c :: cs) - 1, by have := c.utf8Size_pos; simp only [byteLength]; omega⟩
    have hsum : c.utf8Size + byteLength cs = n + 1 := hn
    rw [hn, List.cons_append, cutAt?, if_pos (by omega),
      show n + 1 - c.utf8Size = byteLength cs by omega, ih]
    rfl

/-! ### Reading bytes -/

/-- What the first byte of a character of several bytes says: its share of the code point, the
number of bytes that follow, and between which two the next of them lies. -/
structure Lead where
  share : Nat
  more : Nat
  low : Nat
  high : Nat

/-- What a byte says that starts a character of several bytes. The bounds keep out what could be
written shorter, what is no character, and what lies beyond the last one. -/
def Lead.ofByte? (b : Nat) : Option Lead :=
  if 0xC2 ≤ b ∧ b ≤ 0xDF then some ⟨b - 0xC0, 1, 0x80, 0xBF⟩
  else if b = 0xE0 then some ⟨0, 2, 0xA0, 0xBF⟩
  else if b = 0xED then some ⟨0xD, 2, 0x80, 0x9F⟩
  else if 0xE1 ≤ b ∧ b ≤ 0xEF then some ⟨b - 0xE0, 2, 0x80, 0xBF⟩
  else if b = 0xF0 then some ⟨0, 3, 0x90, 0xBF⟩
  else if 0xF1 ≤ b ∧ b ≤ 0xF3 then some ⟨b - 0xF0, 3, 0x80, 0xBF⟩
  else if b = 0xF4 then some ⟨4, 3, 0x80, 0x8F⟩
  else none

def replacement : Char := '\uFFFD'

/-- Where the reading of bytes stands: between two characters, or inside of one, with the share of
the code point so far and what has to follow. -/
inductive BytePlace where
  | between
  | inside (pending : Lead)

def readBytes : BytePlace → List UInt8 → List Char
  | .between, [] => []
  | .inside _, [] => [replacement]
  | place, b :: bs =>
    let n := b.toNat
    let fresh : Option Char × BytePlace :=
      if n < 0x80 then (some (Char.ofNat n), .between)
      else match Lead.ofByte? n with
        | some lead => (none, .inside lead)
        | none => (some replacement, .between)
    match place with
    | .between => fresh.1.toList ++ readBytes fresh.2 bs
    | .inside p =>
      if p.low ≤ n ∧ n ≤ p.high then
        let share := 64 * p.share + (n - 0x80)
        if p.more ≤ 1 then Char.ofNat share :: readBytes .between bs
        else readBytes (.inside ⟨share, p.more - 1, 0x80, 0xBF⟩) bs
      else replacement :: (fresh.1.toList ++ readBytes fresh.2 bs)

def ofBytes (bs : List UInt8) : List Char := readBytes .between bs

end Text

end Badging
