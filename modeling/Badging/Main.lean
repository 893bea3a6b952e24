import Badging.Console.Outcome
import Badging.Token
import Std.Time.DateTime.Timestamp

/-!
# The program

The program gathers what a command finds, performs it, and shows and saves what came of
it. A watch goes on until it is stopped: it performs a pass, waits, and performs the next.
-/

namespace Badging

namespace Main

def variableNames : List String :=
  ["APP_ENV", "APP_LOG_LEVEL", "APP_DATABASE_PATH", "APP_REVIEW_INTERVAL_SECS",
    "APP_FACTS_PATH", "RUST_LOG"]

/-- The variables that are set, of those that have a meaning or that a file mentions. -/
def presentVariables (file : Option String) : IO (List (String × String)) := do
  let names := variableNames ++ (file.map Settings.mentioned).getD []
  let found ← names.mapM fun name => do
    return (← IO.getEnv name).map fun value => (name, value)
  return found.filterMap id

/-- The folder in which a path lies: all of it up to the last slash, or the working folder. -/
def folderOf (path : String) : String :=
  match path.toList.reverse.dropWhile (· ≠ '/') with
  | [] => "."
  | cs => String.ofList cs.reverse

/-- The number of the error of opening a folder as if it were a file. -/
def folderCode : UInt32 := 21

/-- The number of the error of a name that is too long. It may come with its sign changed. -/
def lengthCode : UInt32 := 36

def isFolder (path : String) : IO Bool := do
  try
    let _ ← IO.FS.readBinFile path
    return false
  catch
    | .inappropriateType _ code _ => return code == folderCode
    | _ => return false

def fileState (path : String) : IO FileState := do
  try
    let bytes ← IO.FS.readBinFile path
    return (String.fromUTF8? bytes).elim .garbled .text
  catch
    | .noFileOrDirectory _ _ _ => return .absent (← isFolder (folderOf path))
    | .permissionDenied _ _ _ => return .closed "Permission denied (os error 13)"
    | .inappropriateType _ code _ =>
      return if code == folderCode then .folder else .closed "Not a directory (os error 20)"
    | .invalidArgument _ code details =>
      return .closed (if code == lengthCode || code == 0 - lengthCode then
        "File name too long (os error 36)" else details)
    | e => return .closed (toString e)

/-- The text of the file with further variables, in the working folder or the nearest one
around it. -/
def settingsFile : IO (Option String) := do
  let mut path := ".env"
  for _ in List.range 64 do
    match ← fileState path with
    | .absent _ => path := "../" ++ path
    | .text s => return some s
    | _ => return none
  return none

def now : IO Instant := do
  let stamp ← Std.Time.Timestamp.now
  match Instant.make? stamp.val.second.val stamp.val.nano.val.toNat with
  | some t => return t
  | none => throw (IO.userError "the clock is outside of the calendar")

def surroundings (paths : List String) : IO Surroundings := do
  let states ← paths.mapM fun path => do return (path, ← fileState path)
  let bytes ← IO.getRandomBytes 32
  let start := bytes.toList.foldl (fun n b => 256 * n + b.toNat) 0
  return ⟨fun path => (states.lookup path).getD (.absent false), ← now, Token.supply start⟩

def settle (o : Outcome) : IO Unit := do
  match o.saved with
  | none => pure ()
  | some (path, text) => IO.FS.writeFile path text
  IO.print o.answer.text
  IO.eprint o.answer.complaint

/-- Performs passes, with a rest after each. -/
partial def watch (i : Invocation) (interval : Nat) : IO Unit := do
  match i.pass? (← surroundings i.paths) with
  | none => pure ()
  | some o =>
    settle o
    IO.sleep (UInt32.ofNat (min (interval * 1000) 4294967295))
    watch i interval

def run (words : List String) : IO UInt32 := do
  let file ← settingsFile
  match Invocation.ofArguments (← presentVariables file) file words with
  | .error a =>
    settle (.ofAnswer a)
    return UInt32.ofNat a.code
  | .ok i =>
    match i.made? (← surroundings i.paths) with
    | none => pure ()
    | some (path, text) => IO.FS.writeFile path text
    let o := i.perform (← surroundings i.paths)
    settle o
    match o.answer with
    | .watching interval => watch i interval
    | _ => pure ()
    return UInt32.ofNat o.answer.code

end Main

end Badging

def main (words : List String) : IO UInt32 := Badging.Main.run words
