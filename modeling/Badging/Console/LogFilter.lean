import Badging.Number.Decimal
import Badging.Pattern.Scan
import Badging.Settings
import Badging.Text.Bytes
import Badging.Text.Pieces

/-!
# Log filters

A log filter is a list of directives, separated by commas. A directive is a level, or the
name of a target, or a span in square brackets with fields in braces, or a target with a span;
and behind an equals sign it may have a level. A field may have a value, which is a pattern if it
is neither a truth value nor a number. Only whether a filter is well formed is of interest here,
for a filter that is not keeps the program from starting. A filter in `RUST_LOG` that is well
formed stands in for the one of the settings.

Positions are counted in bytes from the first character of a directive that is no blank, but the
pieces between them are taken from the directive with the blanks in front of it. So blanks shift
the pieces, and a piece may begin or end inside of a character; then the program breaks off.
-/

namespace Badging

namespace LogFilter

inductive Fault where
  | malformed
  | splitCharacter
deriving DecidableEq, Repr

/-- Where the scan of a directive stands. Spans, fields and levels have the position at which they
start; a name starts with the directive. -/
inductive Place where
  | start
  | name
  | span (first : Nat)
  | field (first : Nat)
  | fields
  | spanEnd
  | level (first : Nat)
deriving DecidableEq, Repr

def startsName (c : Char) : Bool :=
  c == '-' || c == ':' || c == '_' || Text.isLetterOrNumeral c

/-- Whether a text is the value of a field. Truth values and whole numbers need no case of their
own: the former are patterns, and the latter are numbers. -/
def isValue (cs : List Char) : Bool :=
  (Binary64.read? cs).isSome || Pattern.isWellFormed cs

/-- Whether a text is a field: it is not empty, and what is between the first equals sign and the
next is a value. -/
def isField (cs : List Char) : Bool :=
  !cs.isEmpty && match cs.dropWhile (· ≠ '=') with
    | [] => true
    | _ :: value => isValue (value.takeWhile (· ≠ '='))

def piece (directive : List Char) (first last : Nat) : Except Fault (List Char) :=
  match Text.slice? first last directive with
  | none => .error .splitCharacter
  | some cs => .ok cs

def Place.next (directive : List Char) (position : Nat) (c : Char) :
    Place → Except Fault Place
  | .start =>
    if c = '[' then .ok (.span (position + 1))
    else if startsName c then .ok .name
    else .error .malformed
  | .name =>
    if c = '=' then (piece directive 0 position).map fun _ => .level (position + 1)
    else if c = '[' then (piece directive 0 position).map fun _ => .span (position + 1)
    else .ok .name
  | .span first =>
    if c = ']' then (piece directive first position).map fun _ => .spanEnd
    else if c = '{' then (piece directive first position).map fun _ => .field (position + 1)
    else .ok (.span first)
  | .field first =>
    if c = '}' then
      match piece directive first position with
      | .error e => .error e
      | .ok cs => if isField cs then .ok .fields else .error .malformed
    else .ok (.field first)
  | .fields => if c = ']' then .ok .spanEnd else .error .malformed
  | .spanEnd => if c = '=' then .ok (.level (position + 1)) else .error .malformed
  | .level first => .ok (.level first)

/-- The place at the end of characters that start at a position of a directive. -/
def scan (directive : List Char) (place : Place) (position : Nat) :
    List Char → Except Fault Place
  | [] => .ok place
  | c :: cs =>
    match place.next directive position c with
    | .error e => .error e
    | .ok place => scan directive place (position + c.utf8Size) cs

/-- Whether a text names a level: by a word in letters of either case, by a number up to five,
or by nothing. -/
def isLevel (cs : List Char) : Bool :=
  (Number.readWord64? cs).any (· ≤ 5) ||
    [[], "off".toList, "error".toList, "warn".toList, "info".toList, "debug".toList,
      "trace".toList].contains (cs.map Char.toLower)

/-- Checks a directive. Blanks around it are passed over by the scan. -/
def checkDirective (directive : List Char) : Except Fault Unit :=
  match scan directive .start 0 (Text.trimChars directive) with
  | .error e => .error e
  | .ok .name => .ok ()
  | .ok .spanEnd => .ok ()
  | .ok (.level first) =>
    match piece directive first (Text.byteLength directive) with
    | .error e => .error e
    | .ok cs => if isLevel cs then .ok () else .error .malformed
  | .ok _ => .error .malformed

def checkDirectives : List (List Char) → Except Fault Unit
  | [] => .ok ()
  | d :: ds =>
    if d.isEmpty then checkDirectives ds
    else match checkDirective d with
      | .error e => .error e
      | .ok () => checkDirectives ds

def check (filter : String) : Except Fault Unit :=
  checkDirectives (Text.pieces ',' filter.toList)

/-- Checks the filter that variables and settings make. -/
def checkChosen (vars : List (String × String)) (s : Settings) : Except Fault Unit :=
  match (vars.lookup "RUST_LOG").map check with
  | some (.ok ()) => .ok ()
  | some (.error .splitCharacter) => .error .splitCharacter
  | _ => check s.logLevel

end LogFilter

end Badging
