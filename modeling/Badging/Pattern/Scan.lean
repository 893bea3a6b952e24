import Badging.Number.Integer
import Badging.Pattern.Piece
import Badging.Text.Blank
import Badging.Text.Letter

/-!
# Well-formed patterns

A pattern is scanned from left to right. The state of the scan is a place, which says what may
come next, the flags that are set there, and the groups and sets that are open; of what was
read it keeps only the heights. `isWellFormed` says whether the scan gets to the end of a text
with nothing left open.

A pattern is read out of a text where it ends at the first closing brace, and so nothing is known
here of what stands in braces: an opening one is a fault, unless it is escaped or in a set.
-/

namespace Badging

namespace Pattern

/-- Where a piece that was read belongs: in a row of pieces, in a set, or at the end of a range in a
set. -/
inductive Slot where
  | row
  | member
  | rangeEnd (first : Char)
deriving DecidableEq, Repr

inductive Place where
  | row
  | repeated
  | group
  | mark
  | named (name : List Char)
  | flags (letters : List Char)
  | escape (slot : Slot)
  | hex (slot : Slot) (isByte : Bool) (left value : Nat)
  | opening (canNegate hasHyphen : Bool)
  | set
  | behindMember (first : Option Char)
  | range (first : Char)
  | skip (count : Nat)
deriving DecidableEq, Repr

/-- An open set: the heights of its members, and that of what stands left of an operator. -/
structure OpenSet where
  members : List Nat
  left : Option Nat

def OpenSet.height (s : OpenSet) : Nat :=
  match s.left with
  | none => heightOf s.members
  | some h => 1 + max h (heightOf s.members)

/-- What stands around a group: the heights of the row, with none for a setting of flags, those of
the other choices, and the flags. -/
structure Around where
  row : List (Option Nat)
  choices : List Nat
  flags : Flags

structure State where
  place : Place
  inComment : Bool
  flags : Flags
  row : List (Option Nat)
  choices : List Nat
  groups : List Around
  sets : List OpenSet
  names : List (List Char)

namespace State

def start : State := ⟨.row, false, .standard, [], [], [], [], []⟩

/-- The height of the choices so far, of which the row is the last. -/
def height (s : State) : Nat := heightOf (heightOf (s.row.map (·.getD 0)) :: s.choices)

def addPart (s : State) (h : Nat) : State := { s with place := .row, row := some h :: s.row }

/-- Repeats the last part of the row, which must not be a setting of flags. -/
def repeatLast? (s : State) : Option State :=
  match s.row with
  | some h :: row => some { s with place := .repeated, row := some (h + 1) :: row }
  | _ => none

def addChoice (s : State) : State :=
  { s with place := .row, row := [], choices := heightOf (s.row.map (·.getD 0)) :: s.choices }

def openGroup (s : State) (f : Flags) : State :=
  { s with
    place := .row, flags := f, row := [], choices := []
    groups := ⟨s.row, s.choices, s.flags⟩ :: s.groups }

def closeGroup? (s : State) : Option State :=
  match s.groups with
  | [] => none
  | g :: groups =>
    some { s with
      place := .row, flags := g.flags, choices := g.choices, groups := groups
      row := some (s.height + 1) :: g.row }

def openSet (s : State) : State :=
  { s with place := .opening true false, sets := ⟨[], none⟩ :: s.sets }

def addMember (s : State) (place : Place) (h : Nat) : State :=
  match s.sets with
  | [] => s
  | x :: sets => { s with place := place, sets := { x with members := h :: x.members } :: sets }

/-- Makes what was read of the last set the left side of an operator of two characters. -/
def addOperator (s : State) : State :=
  match s.sets with
  | [] => s
  | x :: sets => { s with place := .skip 1, sets := ⟨[], some x.height⟩ :: sets }

def closeSet? (s : State) : Option State :=
  match s.sets with
  | [] => none
  | [x] => some ({ s with sets := [] }.addPart (x.height + 1))
  | x :: sets => some ({ s with sets := sets }.addMember .set (x.height + 1))

def place? (s : State) (p : Piece) : Slot → Option State
  | .row => if p.isKnown s.flags then some (s.addPart 0) else none
  | .member =>
    if p.isMember s.flags then
      some { s with place := .behindMember (match p with
        | .char c _ => some c
        | _ => none) }
    else none
  | .rangeEnd first =>
    match p with
    | .char c _ =>
      if p.isMember s.flags && decide (first ≤ c) then some (s.addMember .set 0) else none
    | _ => none

def allowsBlanks (s : State) : Bool :=
  s.flags.spaced && match s.place with
  | .row | .group | .hex _ _ _ _ | .opening _ _ | .set | .behindMember _ | .range _ => true
  | _ => false

/-- The next character behind a hyphen in a set. Blanks are passed over, and so is one sign of a
comment but not its text. -/
def beyond? (spaced passesSign : Bool) : List Char → Option Char
  | [] => none
  | c :: cs =>
    if spaced && Text.isBlank c then beyond? spaced passesSign cs
    else if spaced && passesSign && c == '#' then beyond? spaced false cs
    else some c

def stepRow? (s : State) (c : Char) : Option State :=
  match c with
  | '(' => some { s with place := .group }
  | ')' => s.closeGroup?
  | '|' => some s.addChoice
  | '[' => some s.openSet
  | '?' | '*' | '+' => s.repeatLast?
  | '\\' => some { s with place := .escape .row }
  | '{' => none
  | _ => s.place? (.ofChar c) .row

def stepSet? (s : State) (c : Char) (rest : List Char) : Option State :=
  if c = ']' then s.closeSet?
  else if c = '[' then
    match className? rest with
    | some (isNegated, count) =>
      if if s.flags.unicode then s.flags.caseless else isNegated then none
      else some (s.addMember (.skip count) 0)
    | none => some s.openSet
  else if (c = '&' ∨ c = '-' ∨ c = '~') ∧ rest.head? = some c then some s.addOperator
  else if c = '\\' then some { s with place := .escape .member }
  else s.place? (.char c false) .member

/-- A step at the beginning of a set, where a circumflex negates it, hyphens stand for themselves,
and so does a bracket that closes nothing. -/
def stepOpening? (s : State) (canNegate hasHyphen : Bool) (c : Char) (rest : List Char) :
    Option State :=
  if c = '^' ∧ canNegate then
    if s.flags.unicode then some { s with place := .opening false false } else none
  else if c = '-' ∨ c = ']' ∧ !hasHyphen then
    if Piece.isMember s.flags (.char c false) then
      some (s.addMember (if c = '-' then .opening false true else .set) 0)
    else none
  else s.stepSet? c rest

/-- A step behind a member of a set: a hyphen makes it the first of a range, unless the set ends
behind it or it belongs to an operator. -/
def stepBehindMember? (s : State) (first : Option Char) (c : Char) (rest : List Char) :
    Option State :=
  let next := beyond? s.flags.spaced true rest
  if c = '-' ∧ next ≠ some ']' ∧ next ≠ some '-' then
    first.map fun f => { s with place := .range f }
  else (s.addMember .set 0).stepSet? c rest

def isNameChar (name : List Char) (c : Char) : Bool :=
  if name.isEmpty then c == '_' || Text.isLetter c
  else c == '_' || c == '.' || c == '[' || c == ']' || Text.isLetterOrNumeral c

def stepNamed? (s : State) (name : List Char) (c : Char) : Option State :=
  if c = '>' then
    if name.isEmpty || s.names.contains name then none
    else some ({ s with names := name :: s.names }.openGroup s.flags)
  else if isNameChar name c then some { s with place := .named (c :: name) }
  else none

/-- A step among the letters of flags, the latest of which is the first. -/
def stepFlags? (s : State) (letters : List Char) (c : Char) : Option State :=
  if c = ')' ∨ c = ':' then
    if letters.head? = some '-' ∨ c = ')' ∧ letters = [] then none
    else
      let flags := s.flags.apply true letters.reverse
      if c = ':' then some (s.openGroup flags)
      else some { s with place := .row, flags := flags, row := none :: s.row }
  else if (c = '-' ∨ c ∈ flagLetters) ∧ c ∉ letters then
    some { s with place := .flags (c :: letters) }
  else none

def stepEscape? (s : State) (slot : Slot) (c : Char) : Option State :=
  match Piece.hexLength? c with
  | some count => some { s with place := .hex slot (c == 'x') count 0 }
  | none => (Piece.ofEscaped? c).bind fun p => s.place? p slot

def stepHex? (s : State) (slot : Slot) (isByte : Bool) (left value : Nat) (c : Char) :
    Option State := do
  let value := 16 * value + (← Number.hexValue? c)
  if left ≤ 1 then s.place? (← Piece.ofCode? value isByte) slot
  else some { s with place := .hex slot isByte (left - 1) value }

/-- A step over a character that is no blank. -/
def stepInto? (s : State) (c : Char) (rest : List Char) : Option State :=
  match s.place with
  | .row => s.stepRow? c
  | .repeated => if c = '?' then some { s with place := .row } else s.stepRow? c
  | .group => if c = '?' then some { s with place := .mark } else (s.openGroup s.flags).stepRow? c
  | .mark =>
    if c = '<' then some { s with place := .named [] }
    else if c = 'P' then
      if rest.head? = some '<' then some s else none
    else s.stepFlags? [] c
  | .named name => s.stepNamed? name c
  | .flags letters => s.stepFlags? letters c
  | .escape slot => s.stepEscape? slot c
  | .hex slot isByte left value => s.stepHex? slot isByte left value c
  | .opening canNegate hasHyphen => s.stepOpening? canNegate hasHyphen c rest
  | .set => s.stepSet? c rest
  | .behindMember first => s.stepBehindMember? first c rest
  | .range first =>
    if c = '\\' then some { s with place := .escape (.rangeEnd first) }
    else s.place? (.char c false) (.rangeEnd first)
  | .skip count =>
    some { s with place := if count ≤ 1 then .set else .skip (count - 1) }

/-- A step over a character, of which `rest` is what follows it. -/
def step? (s : State) (c : Char) (rest : List Char) : Option State :=
  if s.inComment then some { s with inComment := c != '\n' }
  else
    -- behind a repetition only the sign of a short one may stand without a blank in front
    let s := if s.place = .repeated ∧ c ≠ '?' then { s with place := .row } else s
    if s.allowsBlanks && Text.isBlank c then some s
    else if s.allowsBlanks && c == '#' then some { s with inComment := true }
    else s.stepInto? c rest

def scan? (s : State) : List Char → Option State
  | [] => some s
  | c :: cs => (s.step? c cs).bind fun s => s.scan? cs

/-- Whether a pattern may end in a state: nothing is open, and it is not nested too deep. -/
def isEnd (s : State) : Bool :=
  (s.place == .row || s.place == .repeated) && s.groups.isEmpty && s.height ≤ heightLimit

end State

def isWellFormed (cs : List Char) : Bool := (State.start.scan? cs).any State.isEnd

end Pattern

end Badging
