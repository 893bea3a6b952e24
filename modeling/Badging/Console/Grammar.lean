import Badging.Number.Integer
import Badging.Text.Blank
import Badging.Time.Reading

/-!
# The grammar of command lines

A command has a form: the options that it knows, and at most one operand. An option is given by its
name after two hyphens, and if it takes a value, the value is the next word or follows
an equals sign. A word that starts with a hyphen, unless it is the hyphen alone, is never taken
as a value, and after two hyphens alone no word is an option any more. No option is given twice.

Words are read from left to right, and the first that fits no form ends the reading; so does a
question for help, which is answered if all words before it fit. The text of the help is made
from the same form.
-/

namespace Badging

namespace Grammar

/-- What an option's value may be. -/
inductive Kind where
  | path
  | whole
  | count
  | date
deriving DecidableEq, Repr

inductive Value where
  | path (text : String)
  | whole (n : Int)
  | count (n : Nat)
  | date (d : Date)
deriving Repr

/-- Reads a value of a kind. A path must not be empty. -/
def Kind.read? (s : String) : Kind → Option Value
  | .path => if s.isEmpty then none else some (.path s)
  | .whole => (Number.readInt64? s.toList).map .whole
  | .count => (Number.readWord64? s.toList).map .count
  | .date => (Date.read? (Text.trimChars s.toList)).map .date

/-- An option: its name, what its value may be if it takes one, whether it has to be given, and
what it is for. -/
structure Named where
  name : String
  kind : Option Kind
  isRequired : Bool
  purpose : String

/-- An operand: a path under a name, and what it is for. -/
structure Operand where
  name : String
  purpose : String

structure Form where
  name : String
  purpose : String
  operand : Option Operand
  options : List Named

/-- What was given on a command line: the options with their values, and the operand. -/
structure Given where
  options : List (String × Option Value)
  operand : Option String

namespace Given

def empty : Given := ⟨[], none⟩

def has (g : Given) (name : String) : Bool := g.options.any (·.1 == name)

def value? (g : Given) (name : String) : Option Value := (g.options.lookup name).join

def path? (g : Given) (name : String) : Option String :=
  match g.value? name with
  | some (.path s) => some s
  | _ => none

def whole? (g : Given) (name : String) : Option Int :=
  match g.value? name with
  | some (.whole n) => some n
  | _ => none

def count? (g : Given) (name : String) : Option Nat :=
  match g.value? name with
  | some (.count n) => some n
  | _ => none

def date? (g : Given) (name : String) : Option Date :=
  match g.value? name with
  | some (.date d) => some d
  | _ => none

end Given

inductive Reading (α : Type) where
  | accepted (a : α)
  | help
  | refused

inductive Word where
  | plain (s : String)
  | option (name : String) (attached : Option String)
  | letters (cs : List Char)
  | divider
deriving DecidableEq, Repr

def Word.ofText (s : String) : Word :=
  match s.toList with
  | ['-', '-'] => .divider
  | '-' :: '-' :: cs =>
    let name := String.ofList (cs.takeWhile (· ≠ '='))
    match cs.dropWhile (· ≠ '=') with
    | [] => .option name none
    | _ :: value => .option name (some (String.ofList value))
  | '-' :: c :: cs => .letters (c :: cs)
  | _ => .plain s

namespace Form

def option? (f : Form) (name : String) : Option Named := f.options.find? (·.name == name)

/-- Adds an operand to what was given, if the form has one and it was not given before. -/
def addOperand? (f : Form) (g : Given) (s : String) : Option Given :=
  if f.operand.isSome && g.operand.isNone && !s.isEmpty then some { g with operand := some s }
  else none

/-- Adds an option to what was given, if it was not given before and its value can be read. -/
def addOption? (g : Given) (o : Named) (text : Option String) : Option Given :=
  if g.has o.name then none
  else match o.kind, text with
    | none, none => some { g with options := g.options ++ [(o.name, none)] }
    | some kind, some text =>
      (kind.read? text).map fun v => { g with options := g.options ++ [(o.name, some v)] }
    | _, _ => none

/-- How far the reading of a command line has come: any word may follow, or the value of an
option has to follow, or only operands may. -/
inductive Stage where
  | anything (g : Given)
  | valueOf (o : Named) (g : Given)
  | operands (g : Given)

def ofOption {α β : Type} (f : α → β) : Option α → Reading β
  | some a => .accepted (f a)
  | none => .refused

def readOption (f : Form) (g : Given) (name : String) (attached : Option String) :
    Reading Stage :=
  if name = "help" then if attached.isNone then .help else .refused
  else match f.option? name with
    | none => .refused
    | some o =>
      if o.kind.isSome && attached.isNone then .accepted (.valueOf o g)
      else ofOption .anything (addOption? g o attached)

def readWord (f : Form) (stage : Stage) (s : String) : Reading Stage :=
  match stage, Word.ofText s with
  | .operands g, _ => ofOption .operands (f.addOperand? g s)
  | .valueOf o g, .plain text => ofOption .anything (addOption? g o (some text))
  | .valueOf _ _, _ => .refused
  | .anything g, .plain text => ofOption .anything (f.addOperand? g text)
  | .anything g, .divider => .accepted (.operands g)
  | .anything g, .option name attached => f.readOption g name attached
  | .anything _, .letters cs => if cs.head? = some 'h' then .help else .refused

/-- Accepts what was given if nothing that has to be given is missing. -/
def complete (f : Form) (g : Given) : Reading Given :=
  if (f.operand.isNone || g.operand.isSome) &&
      f.options.all (fun o => !o.isRequired || g.has o.name) then
    .accepted g
  else .refused

def readFrom (f : Form) : Stage → List String → Reading Given
  | .anything g, [] => f.complete g
  | .operands g, [] => f.complete g
  | .valueOf _ _, [] => .refused
  | stage, s :: rest =>
    match f.readWord stage s with
    | .accepted stage => readFrom f stage rest
    | .help => .help
    | .refused => .refused

def read (f : Form) (words : List String) : Reading Given := f.readFrom (.anything .empty) words

end Form

/-! ### Help -/

def placeholder (name : String) : String :=
  "<" ++ String.ofList (name.toList.map fun c => if c = '-' then '_' else c.toUpper) ++ ">"

/-- A line of a list: a term, and what it means in a column of its own. -/
structure Entry where
  term : String
  meaning : String

def listing (entries : List Entry) : String :=
  let width := (entries.map (·.term.length)).foldl max 0
  String.join (entries.map fun e =>
    "  " ++ e.term ++ String.ofList (List.replicate (width - e.term.length + 2) ' ') ++
      e.meaning ++ "\n")

def Named.entry (o : Named) : Entry :=
  ⟨"    --" ++ o.name ++ (if o.kind.isSome then " " ++ placeholder o.name else ""), o.purpose⟩

def helpEntry : Entry := ⟨"-h, --help", "Print help"⟩

def Form.usage (f : Form) : String :=
  let required := (f.options.filter (·.isRequired)).map fun o =>
    " --" ++ o.name ++ " " ++ placeholder o.name
  let operand := f.operand.map fun o => " <" ++ o.name ++ ">"
  f.name ++ " [OPTIONS]" ++ String.join required ++ operand.getD ""

def Form.help (f : Form) (program : String) : String :=
  let operands := match f.operand with
    | none => ""
    | some o => "Arguments:\n" ++ listing [⟨"<" ++ o.name ++ ">", o.purpose⟩] ++ "\n"
  f.purpose ++ "\n\nUsage: " ++ program ++ " " ++ f.usage ++ "\n\n" ++ operands ++
    "Options:\n" ++ listing (f.options.map Named.entry ++ [helpEntry])

end Grammar

end Badging
