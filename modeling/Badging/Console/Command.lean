import Badging.Console.Grammar
import Badging.Ident

/-!
# Commands

What can be asked of the program on a command line, as a form for each command and a type of the
commands as they were read. Without any words the program is asked to watch.
-/

namespace Badging

open Grammar

/-- The files that a review works on; each may also come from the settings. -/
structure Sources where
  database : Option String
  facts : Option String
  completions : Option String
deriving DecidableEq, Repr

/-- What the program is asked to do. -/
inductive Command where
  | watch (sources : Sources) (interval : Option Nat)
  | review (sources : Sources) (asOf : Option Date) (asJson : Bool)
  | importFile (path : String) (database : Option String)
  | progress (badge : BadgeId) (learner : LearnerId) (database : Option String)
  | demonstrate (today : Option Date)

namespace Command

def program : String := "badge-reviewer"

def versionText : String := "Badge Reviewer 0.1.0\n"

/-- The options that name the files of a review. -/
def sourceOptions : List Named :=
  [⟨"database", some .path, false,
      "SQLite database holding badges and awards (defaults to APP_DATABASE_PATH)"⟩,
    ⟨"facts", some .path, false, "JSON facts snapshot (defaults to APP_FACTS_PATH)"⟩,
    ⟨"completions", some .path, false,
      "Completion export (CSV) merged over the snapshot before reviewing"⟩]

def watchForm : Form :=
  ⟨"watch", "Review badges on a fixed interval until interrupted (default command)", none,
    sourceOptions ++ [⟨"interval-secs", some .count, false,
      "Seconds between passes (defaults to APP_REVIEW_INTERVAL_SECS)"⟩]⟩

def reviewForm : Form :=
  ⟨"run", "Run a single review pass and print the report", none,
    sourceOptions ++ [⟨"as-of", some .date, false,
        "Review as of this date (YYYY-MM-DD) instead of now"⟩,
      ⟨"json", none, false, "Print the report as JSON"⟩]⟩

def importForm : Form :=
  ⟨"import", "Create badges and criteria from a JSON definition file",
    some ⟨"DEFINITIONS", "JSON file with one badge definition or a list of them"⟩,
    [⟨"database", some .path, false,
      "SQLite database to write to (defaults to APP_DATABASE_PATH)"⟩]⟩

def progressForm : Form :=
  ⟨"progress", "Show a learner's progress towards one badge", none,
    [⟨"badge", some .whole, true, ""⟩, ⟨"learner", some .whole, true, ""⟩,
      ⟨"database", some .path, false, ""⟩]⟩

def demonstrateForm : Form :=
  ⟨"demo", "Walk through the award scenarios against an in-memory store", none,
    [⟨"today", some .date, false, "Review date (YYYY-MM-DD). Defaults to today"⟩]⟩

def forms : List Form := [watchForm, reviewForm, importForm, progressForm, demonstrateForm]

def sourcesOf (g : Given) : Sources := ⟨g.path? "database", g.path? "facts", g.path? "completions"⟩

def ofGiven? (name : String) (g : Given) : Option Command :=
  match name with
  | "watch" => some (.watch (sourcesOf g) (g.count? "interval-secs"))
  | "run" => some (.review (sourcesOf g) (g.date? "as-of") (g.has "json"))
  | "import" => g.operand.map fun path => .importFile path (g.path? "database")
  | "progress" => do
    let badge ← g.whole? "badge"
    let learner ← g.whole? "learner"
    return .progress ⟨badge⟩ ⟨learner⟩ (g.path? "database")
  | "demo" => some (.demonstrate (g.date? "today"))
  | _ => none

/-! ### The whole command line -/

/-- What a command line asks for: a command, or only a text. -/
inductive Request where
  | perform (c : Command)
  | tell (text : String)
  | refuse

def helpCommandEntry : Entry :=
  ⟨"help", "Print this message or the help of the given subcommand(s)"⟩

def programHelp : String :=
  "Configure badges and issue awards whose criteria learners have met\n\nUsage: " ++ program ++
    " [COMMAND]\n\nCommands:\n" ++
    listing (forms.map (fun f => ⟨f.name, f.purpose⟩) ++ [helpCommandEntry]) ++
    "\nOptions:\n" ++ listing [helpEntry, ⟨"-V, --version", "Print version"⟩]

def helpCommandHelp : String :=
  helpCommandEntry.meaning ++ "\n\nUsage: " ++ program ++
    " help [COMMAND]...\n\nArguments:\n" ++
    listing [⟨"[COMMAND]...", "Print help for the subcommand(s)"⟩]

def form? (name : String) : Option Form := forms.find? (·.name == name)

def readHelp : List String → Request
  | [] => .tell programHelp
  | ["help"] => .tell helpCommandHelp
  | [name] =>
    match form? name with
    | some f => .tell (f.help program)
    | none => .refuse
  | _ => .refuse

def readForm (f : Form) (words : List String) : Request :=
  match f.read words with
  | .help => .tell (f.help program)
  | .refused => .refuse
  | .accepted g =>
    match ofGiven? f.name g with
    | some c => .perform c
    | none => .refuse

/-- Watching, with everything from the settings. -/
def standard : Command := .watch ⟨none, none, none⟩ none

def read : List String → Request
  | [] => .perform standard
  | word :: words =>
    match Word.ofText word with
    | .divider => if words.isEmpty then .perform standard else .refuse
    | .option "help" none => .tell programHelp
    | .option "version" none => .tell versionText
    | .letters ('h' :: _) => .tell programHelp
    | .letters ('V' :: _) => .tell versionText
    | .plain name =>
      if name = "help" then readHelp words
      else match form? name with
        | some f => readForm f words
        | none => .refuse
    | _ => .refuse

end Command

end Badging
