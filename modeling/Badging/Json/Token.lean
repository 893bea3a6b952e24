import Badging.Json.Value

/-!
# The tokens of JSON text

`tokens? cs` cuts a text into tokens. The scanner reads one character at a time and carries
what it is in the middle of, so it is a recursion on the text. A number is cut off where no
character of a number follows, and a word where no letter follows; only then the spelling is
judged.

Inside a string the scanner gathers code numbers. An escape may name one half of a surrogate
pair, and a code number from D800 to DFFF arises in no other way, so `joinHalves?` can put
the pairs together afterwards and find the halves that were left alone.
-/

namespace Badging

inductive Json.Token where
  | openArray
  | closeArray
  | openObject
  | closeObject
  | comma
  | colon
  | string (s : Option String)
  | scalar (v : Json)
deriving Repr

namespace Numeral

/-- Takes the digits in front; a whole part has no zero in front of other digits. -/
def readWhole? (cs : List Char) : Option (List Char × List Char) :=
  match cs.takeWhile Char.isDigit with
  | [] => none
  | '0' :: _ :: _ => none
  | ds => some (ds, cs.dropWhile Char.isDigit)

/-- Takes a point and the digits after it, if there is a point. -/
def readPlaces? : List Char → Option (Option (List Char) × List Char)
  | '.' :: cs =>
    match cs.takeWhile Char.isDigit with
    | [] => none
    | ds => some (some ds, cs.dropWhile Char.isDigit)
  | cs => some (none, cs)

def readExponent? : List Char → Option (Option Int)
  | [] => some none
  | c :: cs => if c = 'e' ∨ c = 'E' then (Number.readInteger? cs).map some else none

def readUnsigned? (negative : Bool) (cs : List Char) : Option Numeral := do
  let (whole, cs) ← readWhole? cs
  let (places, cs) ← readPlaces? cs
  let exponent ← readExponent? cs
  some ⟨negative, whole, places, exponent⟩

def read? : List Char → Option Numeral
  | '-' :: cs => readUnsigned? true cs
  | cs => readUnsigned? false cs

end Numeral

namespace Json

/-- Puts escaped pairs of halves together; there is no text if a half stands alone. -/
def joinHalves? : List Nat → Option (List Char)
  | [] => some []
  | n :: rest =>
    if 0xD800 ≤ n ∧ n < 0xDC00 then
      match rest with
      | m :: rest =>
        if 0xDC00 ≤ m ∧ m < 0xE000 then
          (joinHalves? rest).map (Char.ofNat (0x10000 + (n - 0xD800) * 0x400 + (m - 0xDC00)) :: ·)
        else none
      | [] => none
    else if 0xDC00 ≤ n ∧ n < 0xE000 then none
    else (joinHalves? rest).map (Char.ofNat n :: ·)

def escape? : Char → Option Char
  | '"' => some '"'
  | '\\' => some '\\'
  | '/' => some '/'
  | 'b' => some '\x08'
  | 'f' => some '\x0c'
  | 'n' => some '\n'
  | 'r' => some '\r'
  | 't' => some '\t'
  | _ => none

def word? : List Char → Option Json
  | ['t', 'r', 'u', 'e'] => some (.bool true)
  | ['f', 'a', 'l', 's', 'e'] => some (.bool false)
  | ['n', 'u', 'l', 'l'] => some .null
  | _ => none

def isNumeric (c : Char) : Bool :=
  c.isDigit || c == '-' || c == '+' || c == '.' || c == 'e' || c == 'E'

/-- What the scanner is in the middle of; characters are gathered last one first. -/
inductive Scan where
  | between
  | number (gathered : List Char)
  | word (gathered : List Char)
  | string (gathered : List Nat)
  | escape (gathered : List Nat)
  | hex (gathered : List Nat) (missing code : Nat)
deriving Repr

/-- The token that is complete when no further character belongs to it. -/
def Scan.close? : Scan → Option (List Token)
  | .between => some []
  | .number cs => (Numeral.read? cs.reverse).map fun n => [.scalar (.number n)]
  | .word cs => (word? cs.reverse).map fun v => [.scalar v]
  | _ => none

def Scan.start? (c : Char) : Option (Scan × List Token) :=
  if c = ' ' ∨ c = '\t' ∨ c = '\n' ∨ c = '\r' then some (.between, [])
  else if c = '[' then some (.between, [.openArray])
  else if c = ']' then some (.between, [.closeArray])
  else if c = '\x7b' then some (.between, [.openObject])
  else if c = '\x7d' then some (.between, [.closeObject])
  else if c = ',' then some (.between, [.comma])
  else if c = ':' then some (.between, [.colon])
  else if c = '"' then some (.string [], [])
  else if c.isDigit ∨ c = '-' then some (.number [c], [])
  else if c.isAlpha then some (.word [c], [])
  else none

/-- Reads one character: the state after it and the tokens that it completes, last one first. -/
def Scan.step? (c : Char) : Scan → Option (Scan × List Token)
  | .between => start? c
  | .number cs =>
    if isNumeric c then some (.number (c :: cs), [])
    else do
      let done ← close? (.number cs)
      let (next, more) ← start? c
      some (next, more ++ done)
  | .word cs =>
    if c.isAlpha then some (.word (c :: cs), [])
    else do
      let done ← close? (.word cs)
      let (next, more) ← start? c
      some (next, more ++ done)
  | .string ns =>
    if c = '"' then
      some (.between, [.string ((joinHalves? ns.reverse).map String.ofList)])
    else if c = '\\' then some (.escape ns, [])
    else if c.toNat < 0x20 then none
    else some (.string (c.toNat :: ns), [])
  | .escape ns =>
    if c = 'u' then some (.hex ns 4 0, [])
    else (escape? c).map fun d => (.string (d.toNat :: ns), [])
  | .hex ns missing code =>
    (Number.hexValue? c).map fun d =>
      let code := 16 * code + d
      if missing ≤ 1 then (.string (code :: ns), []) else (.hex ns (missing - 1) code, [])

/-- Scans the characters from a state on; `done` holds the tokens so far, last one first. -/
def scan? (state : Scan) (done : List Token) : List Char → Option (List Token)
  | [] => state.close?.map fun last => (last ++ done).reverse
  | c :: cs =>
    match state.step? c with
    | none => none
    | some (next, more) => scan? next (more ++ done) cs

def tokens? (cs : List Char) : Option (List Token) := scan? .between [] cs

end Json

end Badging
