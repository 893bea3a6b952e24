/-!
# Pieces of a pattern

A pattern describes texts: most characters stand for themselves, and some have a meaning.
A `Piece` is the smallest part that a repetition can follow. Which pieces have a meaning depends on
the flags that are set where they stand. With `u`, as at the beginning, a pattern is about
characters, of which nothing is known but their code points: there are no classes such as
the digits among all characters, no edges of words, and no letters that differ in case alone.
Without it a pattern is about bytes, where these are known for ASCII; but then nothing
may stand for a byte beyond ASCII, since such a byte alone is no text.
-/

namespace Badging

namespace Pattern

/-- The flags that decide which pieces have a meaning: `i`, `u` and `x`. -/
structure Flags where
  caseless : Bool
  unicode : Bool
  spaced : Bool
deriving DecidableEq, Repr

def Flags.standard : Flags := ⟨false, true, false⟩

def flagLetters : List Char := ['i', 'm', 's', 'U', 'u', 'R', 'x']

def Flags.put (f : Flags) (isSet : Bool) : Char → Flags
  | 'i' => { f with caseless := isSet }
  | 'u' => { f with unicode := isSet }
  | 'x' => { f with spaced := isSet }
  | _ => f

/-- Sets the flags of letters, and clears those behind a hyphen. -/
def Flags.apply (f : Flags) (isSet : Bool) : List Char → Flags
  | [] => f
  | c :: cs => if c = '-' then f.apply false cs else (f.put isSet c).apply isSet cs

/-- The smallest parts of a pattern: a character, which may have been written as a byte; a class
of characters with a letter of its own; the edge of a line or of the text; the edge of a word;
and any character. -/
inductive Piece where
  | char (c : Char) (isByte : Bool)
  | shorthand (isNegated : Bool)
  | edge
  | wordEdge
  | any
deriving DecidableEq, Repr

namespace Piece

def isKnown (f : Flags) : Piece → Bool
  | char c isByte => if f.unicode then !f.caseless else !isByte || c.toNat < 128
  | shorthand isNegated => !f.unicode && !isNegated
  | edge => true
  | wordEdge => !f.unicode
  | any => f.unicode

def isMember (f : Flags) : Piece → Bool
  | char c _ => if f.unicode then !f.caseless else c.toNat < 128
  | shorthand isNegated => !f.unicode && !isNegated
  | _ => false

/-- The piece that an unescaped character outside of sets is, if it opens nothing and repeats
nothing. -/
def ofChar (c : Char) : Piece :=
  if c = '.' then any else if c = '^' ∨ c = '$' then edge else char c false

/-- The piece that a character behind a backslash is. Digits, letters without a meaning and what is
beyond ASCII cannot be escaped; no property of characters is known, hence neither `p` nor `P`. -/
def ofEscaped? (c : Char) : Option Piece :=
  match c with
  | 'd' | 's' | 'w' => some (shorthand false)
  | 'D' | 'S' | 'W' => some (shorthand true)
  | 'A' | 'z' => some edge
  | 'b' | 'B' | '<' | '>' => some wordEdge
  | 'a' => some (char '\x07' false)
  | 'f' => some (char '\x0C' false)
  | 'n' => some (char '\n' false)
  | 'r' => some (char '\r' false)
  | 't' => some (char '\t' false)
  | 'v' => some (char '\x0B' false)
  | _ => if c.toNat < 128 && !c.isAlphanum then some (char c false) else none

def ofCode? (n : Nat) (isByte : Bool) : Option Piece :=
  if n.isValidChar then some (char (Char.ofNat n) isByte) else none

def hexLength? : Char → Option Nat
  | 'x' => some 2
  | 'u' => some 4
  | 'U' => some 8
  | _ => none

end Piece

/-- The names of the classes that can be members of a set, as they stand behind a bracket. -/
def classNames : List String :=
  ["alnum", "alpha", "ascii", "blank", "cntrl", "digit", "graph", "lower", "print", "punct",
    "space", "upper", "word", "xdigit"]

/-- What a class in a set is made of: whether it is negated, and how many characters it has after
its bracket. -/
def className? (rest : List Char) : Option (Bool × Nat) :=
  classNames.findSome? fun name =>
    let plain := (":" ++ name ++ ":]").toList
    let negated := (":^" ++ name ++ ":]").toList
    if plain.isPrefixOf rest then some (false, plain.length)
    else if negated.isPrefixOf rest then some (true, negated.length)
    else none

/-! ### Heights -/

def heightLimit : Nat := 250

/-- The height of parts that stand together, in a row or as a choice: a single part has only
its own. -/
def heightOf : List Nat → Nat
  | [] => 0
  | [h] => h
  | hs => 1 + hs.foldl max 0

end Pattern

end Badging
