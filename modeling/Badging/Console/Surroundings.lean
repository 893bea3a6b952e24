import Badging.Console.Trouble
import Badging.Document.Definition
import Badging.Document.Facts
import Badging.Document.Tables
import Badging.Store.Database
import Badging.Store.Location

/-!
# The surroundings of a command

A command is a function of what it finds: the files, the time, and a supply of tokens. It
changes nothing itself; what it wants to be saved is part of its outcome. So files are given as
a function from paths to states, and the functions here say what a file in each state is as
a database, as facts, as an export and as definitions.
-/

namespace Badging

/-- What is found at a path: nothing, where a file can be made or not; something that cannot be
opened; something that can be opened but is no text; or a text. -/
inductive FileState where
  | absent (canBeMade : Bool)
  | closed (reason : String)
  | folder
  | garbled
  | text (s : String)
deriving DecidableEq, Repr

namespace FileState

def absentReason : String := "No such file or directory (os error 2)"

/-- What is read from a file: a text, or none if it is no text, as saved tables are not. A file that
cannot be opened has a reason. -/
def contents : FileState → Except String (Option String)
  | .absent _ => .error absentReason
  | .closed reason => .error reason
  | .folder => .ok none
  | .garbled => .ok none
  | .text s => .ok (if Tables.isSaved s then none else some s)

def isClosed : FileState → Bool
  | .closed _ => true
  | _ => false

def isMissing : FileState → Bool
  | .absent _ => true
  | .closed _ => true
  | _ => false

end FileState

/-- What a command finds. -/
structure Surroundings where
  file : String → FileState
  now : Instant
  tokens : Nat → String

namespace Surroundings

/-- Why a database cannot be opened: there is no way to a file. The location is told as it was
given. -/
def cannotOpen (text : String) : StoreError :=
  .unavailable ("unable to open database file: " ++ text)

def notDatabase : StoreError := .unavailable "file is not a database"

def cannotRead : StoreError := .unavailable "disk I/O error"

/-- Why a database cannot be made: there is no way to the journal beside it. -/
def cannotWriteJournal : StoreError := .unavailable "unable to open database file"

/-- The path of the journal in which changes of a database are prepared. -/
def journalPath (path : String) : String := path ++ "-journal"

/-- A temporary database. It is made by writing, so there is none that may only be read. -/
def temporaryDatabase (isWritable : Bool) : Except StoreError Database :=
  if isWritable then .ok ⟨.empty, true⟩ else .error .readOnly

def freshDatabase (w : Surroundings) (path : String) (isWritable : Bool) :
    Except StoreError Database :=
  if isWritable && (w.file (journalPath path)).isClosed then .error cannotWriteJournal
  else temporaryDatabase isWritable

/-- The database that the contents of a file at a path are. With at most one byte it has no rows
yet. -/
def databaseOf (w : Surroundings) (path : String) (isWritable : Bool) (contents : String) :
    Except StoreError Database :=
  if Text.byteLength contents.toList ≤ 1 then w.freshDatabase path isWritable
  else match Tables.load? contents with
    | some tables => .ok ⟨tables, isWritable⟩
    | none => .error notDatabase

/-- Opens the database at a location, of which `text` is what was given. -/
def openAt (w : Surroundings) (text : String) : Location → Except StoreError Database
  | .temporary isWritable => temporaryDatabase isWritable
  | .file path way mode isFixed rightsOf =>
    let isWritable := mode ≠ .read && !isFixed
    if path = "/" || way.any fun p => (w.file p).isClosed then .error (cannotOpen text)
    else if rightsOf.any fun p => (w.file p).isMissing then .error cannotRead
    else match w.file path with
      | .absent canBeMade =>
        if canBeMade && mode = .make then w.freshDatabase path isWritable
        else .error (cannotOpen text)
      | .closed _ => .error (cannotOpen text)
      | .folder => .error (if mode = .read then cannotRead else cannotOpen text)
      | .garbled => .error notDatabase
      | .text contents => w.databaseOf path isWritable contents

def openStore (w : Surroundings) (text : String) : Except StoreError (Location × Database) :=
  match Location.ofText text with
  | .error e => .error e
  | .ok location => (w.openAt text location).map fun d => (location, d)

/-- The file that is made by opening the database that a text gives, and its contents: tables
without rows, or nothing at all if they cannot be written. -/
def made? (w : Surroundings) (text : String) : Option (String × String) :=
  match Location.ofText text with
  | .ok (.file path way mode isFixed rightsOf) =>
    match w.openAt text (.file path way mode isFixed rightsOf), w.file path with
    | .ok d, .absent _ => some (path, d.tables.save)
    | .ok d, .text contents =>
      if Tables.isSaved contents then none else some (path, d.tables.save)
    | .error e, .absent _ =>
      if e = .readOnly ∨ e = cannotWriteJournal then some (path, "") else none
    | _, _ => none
  | _ => none

def loadSnapshot (w : Surroundings) (path : String) : Except SnapshotError Snapshot :=
  match (w.file path).contents with
  | .error reason => .error (.unreadable reason)
  | .ok none => .error .notJson
  | .ok (some s) => Snapshot.load s

/-- Imports the export at a path into a snapshot. A folder has no rows. -/
def importCompletions (w : Surroundings) (path : String) (s : Snapshot) :
    Except Trouble Snapshot :=
  match w.file path, (w.file path).contents with
  | .folder, _ => .ok s
  | _, .error reason => .error (.file reason)
  | _, .ok none => .error (.facts (.exportFault (.malformed 1)))
  | _, .ok (some text) =>
    let imported := s.importExport text
    match imported.result with
    | .error e => .error (.facts (.exportFault e))
    | .ok _ => .ok imported.snapshot

/-- The text of the definitions at a path. What is no text is as good as a text that is no
document. -/
def readDefinitions (w : Surroundings) (path : String) : Except Trouble String :=
  match (w.file path).contents with
  | .error reason => .error (.file reason)
  | .ok text => .ok (text.getD "")

/-- Loads the facts of a review: the snapshot, with the export over it if there is one. -/
def loadFacts (w : Surroundings) (settings : Settings) (facts completions : Option String) :
    Except Trouble Snapshot :=
  match facts <|> settings.factsPath with
  | none => .error (.settings .missingFactsPath)
  | some path =>
    match w.loadSnapshot path with
    | .error e => .error (.facts e)
    | .ok s =>
      match completions with
      | none => .ok s
      | some path => w.importCompletions path s

end Surroundings

end Badging
