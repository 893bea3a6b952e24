import Badging.Number.Integer
import Badging.Text.Blank
import Badging.Time.Instant

/-!
# Instants and dates read from text

Two grammars read an instant. The strict one is the usual form with fixed widths, an
optional fraction and an offset with a colon. The lenient one is what documents may hold:
numbers may have blanks in front and fewer digits, a year may have a sign and then as many
digits as it likes, and the offset may be spelled in several ways. A third grammar
reads a date alone.

A step of a grammar takes characters and answers what it read and the characters left over.
Both grammars end in `ofParts?`, which decides whether the parts make a date, a time of day and an
offset at all. Second 60 stands for a leap second whatever the minute.
-/

namespace Badging

-- Powers of natural numbers are those of `Nat`, whatever else is in sight.
attribute [local instance (2000)] instPowNat

open Number Text

namespace Time

/-- The parts of a written instant; the offset is in seconds east of Greenwich. -/
structure Parts where
  year : Int
  month : Nat
  day : Nat
  hour : Nat
  minute : Nat
  second : Nat
  nanos : Nat
  offset : Int
deriving DecidableEq, Repr

/-- The instant that the parts name, if they name one: the date in local time and the instant
both have to lie in the calendar. -/
def Parts.instant? (p : Parts) : Option Instant :=
  (Date.make? p.year p.month p.day).bind fun d =>
    if p.hour < 24 ∧ p.minute < 60 ∧ p.second ≤ 60 ∧ -86400 < p.offset ∧ p.offset < 86400 then
      let (second, leap) := if p.second = 60 then (59, 1000000000) else (p.second, 0)
      let secondOfDay := p.hour * 3600 + p.minute * 60 + second
      Instant.make? (d.toDays * 86400 + secondOfDay - p.offset) (p.nanos + leap)
    else none

def take? (c : Char) : List Char → Option (List Char)
  | d :: cs => if d = c then some cs else none
  | [] => none

/-- Takes at least `least` and at most `most` digits. -/
def takeNumber? (least most : Nat) (cs : List Char) : Option (Nat × List Char) :=
  let ds := (cs.take most).takeWhile Char.isDigit
  if ds.length < least then none else some (digitsValue ds, cs.drop ds.length)

def takeDigits? (cs : List Char) : Option (Nat × List Char) :=
  let ds := cs.takeWhile Char.isDigit
  if ds = [] then none else some (digitsValue ds, cs.dropWhile Char.isDigit)

/-- Takes the digits of a fraction and counts nanoseconds: nine digits count, further ones are
cut off. -/
def takeFraction? (cs : List Char) : Option (Nat × List Char) :=
  let ds := cs.takeWhile Char.isDigit
  if ds = [] then none
  else
    let kept := ds.take 9
    some (digitsValue kept * 10 ^ (9 - kept.length), cs.dropWhile Char.isDigit)

def takeOptionalFraction? : List Char → Option (Nat × List Char)
  | '.' :: cs => takeFraction? cs
  | cs => some (0, cs)

/-- Takes an offset: `Z`, or a sign, two digits of hours, the separator, two digits of minutes.
The minus sign may be the hyphen or the character U+2212. -/
def takeOffset? (separator : List Char → Option (List Char)) :
    List Char → Option (Int × List Char)
  | [] => none
  | c :: cs =>
    if c = 'Z' ∨ c = 'z' then some (0, cs)
    else if c = '+' ∨ c = '-' ∨ c = '\u2212' then do
      let (hours, cs) ← takeNumber? 2 2 cs
      let cs ← separator cs
      let (minutes, cs) ← takeNumber? 2 2 cs
      if 60 ≤ minutes then none
      else
        let seconds : Int := hours * 3600 + minutes * 60
        some (if c = '+' then seconds else -seconds, cs)
    else none

/-- Takes a year: with a sign any number of digits, without one at most four. -/
def takeYear? (cs : List Char) : Option (Int × List Char) :=
  match dropBlanks cs with
  | '-' :: cs => (takeDigits? cs).map fun (n, rest) => (-(n : Int), rest)
  | '+' :: cs => (takeDigits? cs).map fun (n, rest) => ((n : Int), rest)
  | cs => (takeNumber? 1 4 cs).map fun (n, rest) => ((n : Int), rest)

/-- Takes a number of one or two digits with blanks in front of it. -/
def takePair? (cs : List Char) : Option (Nat × List Char) := takeNumber? 1 2 (dropBlanks cs)

def takeSpaced? (c : Char) (cs : List Char) : Option (List Char) := take? c (dropBlanks cs)

def takeDivider? : List Char → Option (List Char)
  | c :: cs => if c = 'T' ∨ c = 't' ∨ c = ' ' then some cs else none
  | [] => none

/-- Takes the offset of the lenient grammar: also the word `UTC`, and between hours and minutes
any colons and blanks. -/
def takeLenientOffset? (cs : List Char) : Option (Int × List Char) :=
  if (cs.take 3).map Char.toLower = ['u', 't', 'c'] then some (0, cs.drop 3)
  else takeOffset? (fun cs => some (cs.dropWhile fun c => c = ':' || isBlank c)) cs

def takeLenient? (cs : List Char) : Option (Parts × List Char) := do
  let (year, cs) ← takeYear? cs
  let cs ← takeSpaced? '-' cs
  let (month, cs) ← takePair? cs
  let cs ← takeSpaced? '-' cs
  let (day, cs) ← takePair? cs
  let cs ← takeDivider? cs
  let (hour, cs) ← takePair? cs
  let cs ← takeSpaced? ':' cs
  let (minute, cs) ← takePair? cs
  let cs ← takeSpaced? ':' cs
  let (second, cs) ← takePair? cs
  let (nanos, cs) ← takeOptionalFraction? cs
  let (offset, cs) ← takeLenientOffset? (dropBlanks cs)
  some (⟨year, month, day, hour, minute, second, nanos, offset⟩, cs)

def takeStrict? (cs : List Char) : Option (Parts × List Char) := do
  let (year, cs) ← takeNumber? 4 4 cs
  let cs ← take? '-' cs
  let (month, cs) ← takeNumber? 2 2 cs
  let cs ← take? '-' cs
  let (day, cs) ← takeNumber? 2 2 cs
  let cs ← takeDivider? cs
  let (hour, cs) ← takeNumber? 2 2 cs
  let cs ← take? ':' cs
  let (minute, cs) ← takeNumber? 2 2 cs
  let cs ← take? ':' cs
  let (second, cs) ← takeNumber? 2 2 cs
  let (nanos, cs) ← takeOptionalFraction? cs
  let (offset, cs) ← takeOffset? (take? ':') cs
  some (⟨year, month, day, hour, minute, second, nanos, offset⟩, cs)

end Time

/-- Reads a date: blanks may stand in front of each of the three numbers. -/
def Date.read? (cs : List Char) : Option Date := do
  let (year, cs) ← Time.takeYear? cs
  let cs ← Time.take? '-' cs
  let (month, cs) ← Time.takePair? cs
  let cs ← Time.take? '-' cs
  let (day, cs) ← Time.takePair? cs
  if cs = [] then Date.make? year month day else none

namespace Instant

/-- Reads an instant in the lenient grammar; blanks may follow it. -/
def read? (cs : List Char) : Option Instant :=
  (Time.takeLenient? cs).bind fun (parts, rest) =>
    if dropBlanks rest = [] then parts.instant? else none

def readStrict? (cs : List Char) : Option Instant :=
  (Time.takeStrict? cs).bind fun (parts, rest) =>
    if rest = [] then parts.instant? else none

/-- Reads an instant out of an export: in the strict grammar, as a date, which stands for its
midnight, or as seconds from the epoch. -/
def readExported? (cs : List Char) : Option Instant :=
  match readStrict? cs with
  | some t => some t
  | none => match Date.read? cs with
    | some d => ofDate? d 0
    | none => (readInt64? cs).bind ofSeconds?

end Instant

end Badging
