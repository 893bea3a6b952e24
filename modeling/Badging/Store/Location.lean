import Badging.Number.Integer
import Badging.Store.Operation
import Badging.Text.Bytes
import Badging.Text.Case
import Badging.Text.Pieces

/-!
# Locations of databases

A database is given by a text. It is the path of a file, unless it starts with `file:`; then it is
an identifier of a file: a host, which can only be the local one, a path, parameters behind a
question mark, and behind a hash sign what is ignored. Characters of an identifier may be written as
a percent sign and two hexadecimal digits, and the byte zero ends the path, name or value in
which it is written.

Some parameters have a meaning: `mode` narrows what may be done with the file, `vfs` names the
system by which files are reached, `cache` has no effect here but must be one of two words,
`immutable` promises that nothing writes, and `modeof` names a file whose rights are copied.

Paths are made plain by looking at them alone: empty parts and single dots are dropped, and two dots
take back the part in front of them, whether there is a folder of that name or not.
-/

namespace Badging

namespace Location

/-- What may be done with a file: reading; writing; making it if it is not there; or nothing at all,
since it is only a name for something temporary. -/
inductive Mode where
  | read
  | write
  | make
  | memory
deriving DecidableEq, Repr

end Location

/-- Where a database is: in no file, for as long as the program runs; or in a file, with the mode in
which it is opened, whether it is promised that nothing writes, and a file from which it takes its
rights. The path comes with all paths on the way to it. -/
inductive Location where
  | temporary (isWritable : Bool)
  | file (path : String) (way : List String) (mode : Location.Mode) (isFixed : Bool)
      (rightsOf : Option String)
deriving DecidableEq, Repr

namespace Location

/-! ### Paths -/

def parts (cs : List Char) : List (List Char) := (Text.pieces '/' cs).filter (· ≠ [])

/-- The path of parts, which are given with the last one first, from the root or from the working
folder. -/
def joined (isRooted : Bool) (parts : List (List Char)) : String :=
  match isRooted, parts with
  | false, [] => "."
  | _, parts =>
    (if isRooted then "/" else "") ++ String.ofList (List.intercalate ['/'] parts.reverse)

/-- Goes the way of parts from a place, which is given by its own parts with the last one first. The
result is the place reached, and the paths on the way with the last one first. -/
def walk (isRooted : Bool) (place : List (List Char)) (way : List String) :
    List (List Char) → List (List Char) × List String
  | [] => (place, way)
  | ['.'] :: rest => walk isRooted place way rest
  | ['.', '.'] :: rest =>
    match place with
    | [] => walk isRooted (if isRooted then [] else [['.', '.']]) way rest
    | ['.', '.'] :: _ => walk isRooted (['.', '.'] :: place) way rest
    | _ :: place => walk isRooted place way rest
  | part :: rest =>
    walk isRooted (part :: place) (joined isRooted (part :: place) :: way) rest

/-- The plain form of a path, and the paths on the way to it. -/
def plainPath (cs : List Char) : String × List String :=
  let isRooted := cs.head? == some '/'
  let (place, way) := walk isRooted [] [] (parts cs)
  (joined isRooted place, way)

/-! ### Identifiers -/

def percentDecoded : List Char → List UInt8
  | [] => []
  | ['%'] => [0x25]
  | ['%', a] => 0x25 :: String.utf8EncodeChar a
  | '%' :: a :: b :: cs =>
    match Number.hexValue? a, Number.hexValue? b with
    | some x, some y =>
      if 16 * x + y = 0 then [] else UInt8.ofNat (16 * x + y) :: percentDecoded cs
    | _, _ => 0x25 :: percentDecoded (a :: b :: cs)
  | c :: cs => String.utf8EncodeChar c ++ percentDecoded cs

def decoded (cs : List Char) : String := String.ofList (Text.ofBytes (percentDecoded cs))

/-- The name and the value of a parameter, which may have no value; one without a name is none. -/
def parameter? (cs : List Char) : Option (String × String) :=
  let name := decoded (cs.takeWhile (· ≠ '='))
  if name.isEmpty then none
  else some (name, decoded ((cs.dropWhile (· ≠ '=')).drop 1))

def parameters (cs : List Char) : List (String × String) :=
  (Text.pieces '&' cs).filterMap parameter?

/-- An identifier of a file: its host, its path, and its parameters. -/
structure Identifier where
  host : List Char
  path : String
  options : List (String × String)

/-- The identifier that the characters behind `file:` make. -/
def Identifier.ofChars (cs : List Char) : Identifier :=
  let (host, rest) := match cs with
    | '/' :: '/' :: cs => (cs.takeWhile (· ≠ '/'), cs.dropWhile (· ≠ '/'))
    | cs => ([], cs)
  let rest := rest.takeWhile (· ≠ '#')
  ⟨host, decoded (rest.takeWhile (· ≠ '?')), parameters ((rest.dropWhile (· ≠ '?')).drop 1)⟩

/-! ### Modes -/

namespace Mode

def ofName? : String → Option Mode
  | "ro" => some read
  | "rw" => some write
  | "rwc" => some make
  | "memory" => some memory
  | _ => none

/-- How much a mode asks for. -/
def demand : Mode → Nat
  | read => 1
  | write => 2
  | make => 3
  | memory => 0

/-- How much may be asked for by a mode that replaces this one. -/
def limit : Mode → Nat
  | memory => 3
  | mode => mode.demand

end Mode

/-- Replaces a mode by the one of a name, which must not ask for more. -/
def narrow (mode : Mode) (name : String) : Except StoreError Mode :=
  match Mode.ofName? name with
  | none => .error (.unavailable ("no such access mode: " ++ name))
  | some next =>
    if next.demand ≤ mode.limit then .ok next
    else .error (.unavailable ("access mode not allowed: " ++ name))

def modeOf (mode : Mode) : List (String × String) → Except StoreError Mode
  | [] => .ok mode
  | (name, value) :: rest =>
    if name = "mode" then
      match narrow mode value with
      | .error e => .error e
      | .ok mode => modeOf mode rest
    else if name = "cache" ∧ value ≠ "shared" ∧ value ≠ "private" then
      .error (.unavailable ("no such cache mode: " ++ value))
    else modeOf mode rest

def memorySystem : String := "memdb"

def systems : List String := ["unix", "unix-none", "unix-dotfile", "unix-excl", memorySystem]

/-- Whether a value means yes: a word, or a number other than zero in its first digits. -/
def isYes (value : String) : Bool :=
  let digits := value.toList.takeWhile Char.isDigit
  ["on", "yes", "true"].contains (Text.lower value) || Number.digitsValue digits % 256 ≠ 0

/-! ### Locations -/

def isNoFile (path : String) : Bool := path == "" || path == ":memory:"

def ofPath (path : String) (mode : Mode) (isFixed : Bool) (rightsOf : Option String) : Location :=
  let (plain, way) := plainPath path.toList
  .file plain way mode isFixed rightsOf

def ofIdentifier (i : Identifier) : Except StoreError Location :=
  if i.host ≠ [] ∧ i.host ≠ "localhost".toList then
    .error (.unavailable ("invalid uri authority: " ++ String.ofList i.host))
  else
    match modeOf .make i.options with
    | .error e => .error e
    | .ok mode =>
      let system := (i.options.reverse.lookup "vfs").getD "unix"
      let isFixed := (i.options.lookup "immutable").any isYes
      if system ∉ systems then .error (.unavailable ("no such vfs: " ++ system))
      else if mode = .memory ∨ isNoFile i.path then .ok (.temporary (mode ≠ .read))
      else if system = memorySystem then .ok (.temporary (mode ≠ .read && !isFixed))
      else .ok (ofPath i.path mode isFixed (i.options.lookup "modeof"))

def ofText (text : String) : Except StoreError Location :=
  match text.toList with
  | 'f' :: 'i' :: 'l' :: 'e' :: ':' :: cs => ofIdentifier (.ofChars cs)
  | _ =>
    if isNoFile text then .ok (.temporary true) else .ok (ofPath text .make false none)

end Location

end Badging
