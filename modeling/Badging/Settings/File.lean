import Badging.Text.Blank
import Badging.Text.Letter

/-!
# Files of variables

A file of variables has one assignment `KEY=VALUE` on a line; blank lines and lines that start
with `#` have none, and the word `export` may stand in front. A line goes on behind a line
feed that is quoted, and it ends where a comment starts: at a `#` behind a blank that is not
itself behind another.

A value ends at the first blank that is not quoted, and behind it only a comment may follow. Single
quotes keep everything as it stands; in double quotes and outside of quotes a backslash stands
before a quote, a blank, a dollar sign, another backslash, or `n` for a line feed, and a dollar
sign stands before the name of a variable, in braces or not, for its value. A name without braces
goes on as long as there are letters and numerals, and the character behind it, unless it is
another dollar sign, stands for itself even if it is a quote or a blank.

A variable that is set already is left alone, so the first assignment counts. The first line that
does not have this form ends the file: the lines before it count, and nothing after it does. A
value with the character NUL cannot be set at all.
-/

namespace Badging

namespace Settings

/-! ### Lines -/

/-- Where the cutting of a file into lines stands: in front of a line with nothing but blanks so
far; in a line, behind a blank, or behind a backslash; in quotes, or there behind a
backslash; or in a comment. -/
inductive LinePlace where
  | front
  | line
  | blank
  | escape
  | quoted (mark : Char)
  | quotedEscape (mark : Char)
  | comment
deriving DecidableEq, Repr

def LinePlace.behind (c : Char) : LinePlace :=
  if c = '\\' then .escape
  else if c = '\'' ∨ c = '"' then .quoted c
  else if Text.isBlank c ∧ c ≠ '\n' ∧ c ≠ '\r' then .blank
  else .line

def LinePlace.next (c : Char) : LinePlace → LinePlace
  | .front =>
    if c = '#' then .comment else if c ≠ '\n' ∧ Text.isBlank c then .front else .behind c
  | .line => .behind c
  | .blank => if c = '#' then .comment else if Text.isBlank c then .line else .behind c
  | .escape => .line
  | .quoted mark =>
    if c = '\\' then .quotedEscape mark else if c = mark then .line else .quoted mark
  | .quotedEscape mark => .quoted mark
  | .comment => .comment

/-- A line whose characters are given the latest first, without the end of it. -/
def finishLine : List Char → List Char
  | '\n' :: '\r' :: cs => cs.reverse
  | '\n' :: cs => cs.reverse
  | cs => cs.reverse

/-- Cuts a file into lines. A file that ends inside of quotes, behind a backslash or behind a blank
has no last line. -/
def splitLines (place : LinePlace) (line : List Char) : List Char → List (List Char)
  | [] =>
    match place with
    | .front => []
    | .line => [line.reverse]
    | .comment => [line.reverse]
    | _ => []
  | c :: cs =>
    match place.next c with
    | .comment =>
      if c = '\n' then finishLine line :: splitLines .front [] cs
      else splitLines .comment (if place = .front then [] else line) cs
    | .line =>
      if c = '\n' then finishLine (c :: line) :: splitLines .front [] cs
      else splitLines .line (c :: line) cs
    | place => splitLines place (c :: line) cs

def lines (text : String) : List (List Char) :=
  match text.toList with
  | '\uFEFF' :: cs => splitLines .front [] cs
  | cs => splitLines .front [] cs

/-! ### Values -/

/-- Where the reading of a value stands: outside of quotes, in single or double quotes, after a
backslash, in the name of a variable, in such a name in braces, or behind the value. Names have
the latest character first. -/
inductive ValuePlace where
  | bare
  | single
  | double
  | escape (inDouble : Bool)
  | name (read : List Char) (inDouble : Bool)
  | braced (read : List Char) (inDouble : Bool)
  | behind
deriving DecidableEq, Repr

/-- The place outside of names and escapes. -/
def ValuePlace.plain (inDouble : Bool) : ValuePlace := if inDouble then .double else .bare

def unescape? (c : Char) : Option Char :=
  if c = 'n' then some '\n'
  else if c = '\\' ∨ c = '\'' ∨ c = '"' ∨ c = '$' ∨ c = ' ' then some c
  else none

/-- The value of the variable whose name was read, with the latest character first. A variable that
is not set has an empty one. -/
def substitute (vars : List (String × String)) (read : List Char) : List Char :=
  ((vars.lookup (String.ofList read.reverse)).getD "").toList

/-- Reads a value, of which `done` are the characters read before, the latest first. -/
def readValue? (vars : List (String × String)) (place : ValuePlace) (done : List Char) :
    List Char → Option (List Char)
  | [] =>
    match place with
    | .single => none
    | .double => none
    | .escape inDouble => if inDouble then none else some done.reverse
    | .name read inDouble =>
      if inDouble then none else some (done.reverse ++ substitute vars read)
    | .braced _ _ => none
    | .bare => some done.reverse
    | .behind => some done.reverse
  | c :: cs =>
    match place with
    | .bare =>
      if c = '$' then readValue? vars (.name [] false) done cs
      else if c = '\'' then readValue? vars .single done cs
      else if c = '"' then readValue? vars .double done cs
      else if c = '\\' then readValue? vars (.escape false) done cs
      else if c = ' ' ∨ c = '\t' then readValue? vars .behind done cs
      else readValue? vars .bare (c :: done) cs
    | .single =>
      if c = '\'' then readValue? vars .bare done cs else readValue? vars .single (c :: done) cs
    | .double =>
      if c = '$' then readValue? vars (.name [] true) done cs
      else if c = '"' then readValue? vars .bare done cs
      else if c = '\\' then readValue? vars (.escape true) done cs
      else readValue? vars .double (c :: done) cs
    | .escape inDouble =>
      (unescape? c).bind fun d => readValue? vars (.plain inDouble) (d :: done) cs
    | .name read inDouble =>
      let done' := (substitute vars read).reverse ++ done
      if Text.isLetterOrNumeral c then readValue? vars (.name (c :: read) inDouble) done cs
      else if c = '{' ∧ read = [] then readValue? vars (.braced [] inDouble) done cs
      else if c = '$' then readValue? vars (.name [] inDouble) done' cs
      else readValue? vars (.plain inDouble) (c :: done') cs
    | .braced read inDouble =>
      if c = '}' then
        readValue? vars (.plain inDouble) ((substitute vars read).reverse ++ done) cs
      else readValue? vars (.braced (c :: read) inDouble) done cs
    | .behind =>
      if c = ' ' ∨ c = '\t' then readValue? vars .behind done cs
      else if c = '#' then some done.reverse
      else none

/-! ### Assignments -/

/-- Whether a line, after its blanks in front, assigns nothing. -/
def assignsNothing (line : List Char) : Bool := line.isEmpty || line.head? == some '#'

def isKeyChar (c : Char) : Bool := c.isAlphanum || c == '_' || c == '.'

/-- A key at the beginning of a line, and the rest behind it without blanks in front. -/
def readKey? (line : List Char) : Option (List Char × List Char) :=
  match line with
  | c :: _ =>
    if c.isAlpha || c == '_' then
      some (line.takeWhile isKeyChar, Text.dropBlanks (line.dropWhile isKeyChar))
    else none
  | [] => none

def readAssigned? (line : List Char) : Option (List Char × List Char) :=
  match readKey? line with
  | some (key, '=' :: rest) => some (key, Text.dropBlanks rest)
  | _ => none

/-- The assignment of a line that makes one, without blanks around it. -/
def readAssignment? (vars : List (String × String)) (line : List Char) :
    Option (String × String) := do
  let (key, rest) ← match readKey? line with
    | some (['e', 'x', 'p', 'o', 'r', 't'], '=' :: rest) =>
      some ("export".toList, Text.dropBlanks rest)
    | some (['e', 'x', 'p', 'o', 'r', 't'], rest) => readAssigned? rest
    | _ => readAssigned? line
  let value ← if assignsNothing rest then some [] else readValue? vars .bare [] rest
  return (String.ofList key, String.ofList value)

/-- Sets a variable, unless it is set already. A value with the character NUL cannot be set. -/
def assign? (vars : List (String × String)) (key value : String) :
    Option (List (String × String)) :=
  if (vars.lookup key).isSome then some vars
  else if value.toList.contains '\x00' then none
  else some (vars ++ [(key, value)])

/-- Makes the assignments of lines, up to the first that has no form. -/
def assignLines? (vars : List (String × String)) : List (List Char) →
    Option (List (String × String))
  | [] => some vars
  | line :: lines =>
    let line := Text.trimChars line
    if assignsNothing line then assignLines? vars lines
    else match readAssignment? vars line with
      | none => some vars
      | some (key, value) => (assign? vars key value).bind fun vars => assignLines? vars lines

/-- The variables behind those of a file, if there is one; none if a value of it cannot be set. -/
def assignments? (vars : List (String × String)) (file : Option String) :
    Option (List (String × String)) :=
  match file with
  | none => some vars
  | some text => assignLines? vars (lines text)

/-- The pieces of a text in which all characters are of a class. -/
def runs (p : Char → Bool) (run : List Char) : List Char → List String
  | [] => [String.ofList run.reverse]
  | c :: cs =>
    if p c then runs p (c :: run) cs else String.ofList run.reverse :: runs p [] cs

/-- Every name that a file can have as a key or can ask for, among other texts. -/
def mentioned (text : String) : List String :=
  (runs isKeyChar [] text.toList ++ runs Text.isLetterOrNumeral [] text.toList ++
    runs (fun c => c ≠ '{' && c ≠ '}') [] text.toList).filter (· ≠ "")

end Settings

end Badging
