import Badging.Console.Command
import Badging.Console.Demonstration
import Badging.Console.LogFilter
import Badging.Console.Surroundings
import Badging.Document.Review

/-!
# What comes of a command

A command ends with a text, or with an error, or it breaks off; or it does not end because it
watches. Apart from that it may have a database to save, and this does not depend on how it
ended: what was stored before an error stays stored.
-/

namespace Badging

/-- How a command ends. -/
inductive Answer where
  | shown (text : String)
  | failed (t : Trouble)
  | misused
  | broken
  | watching (interval : Nat)

/-- How a command ends, and the file that is to be saved with its text. -/
structure Outcome where
  answer : Answer
  saved : Option (String × String)

namespace Answer

/-- The number with which a program that ended in this way tells so. -/
def code : Answer → Nat
  | .shown _ => 0
  | .failed _ => 1
  | .misused => 2
  | .broken => 101
  | .watching _ => 0

def text : Answer → String
  | .shown s => s
  | _ => ""

def complaint : Answer → String
  | .failed t => "application error: " ++ t.message ++ "\n"
  | .misused => "error: the arguments fit no command\n\nUsage: " ++ Command.program ++
      " [COMMAND]\n\nFor more information, try '--help'.\n"
  | .broken => "the command was broken off\n"
  | _ => ""

def ofEnding {α : Type} (describe : α → String) : Ending Trouble α → Answer
  | .done a => .shown (describe a)
  | .failed t => .failed t
  | .broken _ => .broken

end Answer

namespace Outcome

def ofAnswer (a : Answer) : Outcome := ⟨a, none⟩

/-- An outcome with a database to save, unless it was temporary or could not be changed. -/
def saving (location : Location) (d : Database) (a : Answer) : Outcome :=
  match location with
  | .temporary _ => ofAnswer a
  | .file path _ _ _ _ => ⟨a, if d.isWritable then some (path, d.tables.save) else none⟩

end Outcome

namespace Review

def Failure.line (f : Failure) : String :=
  let learner := match f.learner with
    | none => ""
    | some l => " learner " ++ l.text
  "  badge " ++ f.badge.text ++ learner ++ ": " ++ f.cause.message ++ "\n"

def Report.lines (r : Report) : String :=
  r.summary ++ "\n" ++ String.join (r.failures.map Failure.line)

end Review

def Badge.importedLine (b : Badge) : String :=
  b.name ++ " [" ++ b.id.text ++ "] " ++ Number.integerText b.criteria.length ++ " criteria, " ++
    b.status.label ++ "\n"

def Progress.find {σ : Type} [Store σ] (badge : BadgeId) (learner : LearnerId) :
    Run σ Trouble Progress := do
  match ← (Run.perform (.badge badge)).mapError .store with
  | none => Run.fail (.store .notFound)
  | some b => (Progress.look b learner).mapError .store

namespace Command

def withStore (w : Surroundings) (text : String) (work : Database → Answer × Database) : Outcome :=
  match w.openStore text with
  | .error e => .ofAnswer (.failed (.store e))
  | .ok (location, d) =>
    let (a, d) := work d
    .saving location d a

def run {α : Type} (w : Surroundings) (facts : Snapshot) (program : Run Database Trouble α)
    (describe : α → String) (d : Database) : Answer × Database :=
  let (ending, world) := program.exec ⟨facts.source, .empty, w.tokens⟩ (.ofStore d)
  (.ofEnding describe ending, world.store)

/-- The time of a review: noon of a date that was given, or now. -/
def reviewTime (w : Surroundings) (asOf : Option Date) : Instant :=
  (asOf.bind fun d => Instant.ofDate? d 43200).getD w.now

def perform (w : Surroundings) (settings : Settings) : Command → Outcome
  | .watch sources interval =>
    withStore w (sources.database.getD settings.databasePath) fun d =>
      match w.loadFacts settings sources.facts sources.completions with
      | .error t => (.failed t, d)
      | .ok _ => (.watching ((interval.filter (0 < ·)).getD settings.intervalSeconds), d)
  | .review sources asOf asJson =>
    withStore w (sources.database.getD settings.databasePath) fun d =>
      match w.loadFacts settings sources.facts sources.completions with
      | .error t => (.failed t, d)
      | .ok facts =>
        let describe (r : Review.Report) : String :=
          if asJson then r.toJson.pretty ++ "\n" else r.lines
        run w facts ((Review.pass (reviewTime w asOf)).mapError .review) describe d
  | .importFile path database =>
    withStore w (database.getD settings.databasePath) fun d =>
      match w.readDefinitions path with
      | .error t => (.failed t, d)
      | .ok text =>
        let describe (bs : List Badge) : String := String.join (bs.map Badge.importedLine)
        run w .empty ((Definition.importText text).mapError .definition) describe d
  | .progress badge learner database =>
    withStore w (database.getD settings.databasePath)
      (run w .empty (Progress.find badge learner) fun p => p.toJson.pretty ++ "\n")
  | .demonstrate today =>
    match Demonstration.Times.ofNow? (reviewTime w today) with
    | none => .ofAnswer .broken
    | some times =>
      let (ending, _) := (Demonstration.play times).exec
        ⟨(Demonstration.facts times).source, .empty, w.tokens⟩ (.ofStore .empty)
      .ofAnswer (.ofEnding id ending)

def database? (settings : Settings) : Command → Option String
  | .watch sources _ => some (sources.database.getD settings.databasePath)
  | .review sources _ _ => some (sources.database.getD settings.databasePath)
  | .importFile _ database => some (database.getD settings.databasePath)
  | .progress _ _ database => some (database.getD settings.databasePath)
  | .demonstrate _ => none

def documentPaths (settings : Settings) : Command → List String
  | .watch sources _ => ofSources sources
  | .review sources _ _ => ofSources sources
  | .importFile path _ => [path]
  | .progress _ _ _ => []
  | .demonstrate _ => []
where
  ofSources (sources : Sources) : List String :=
    (sources.facts <|> settings.factsPath).toList ++ sources.completions.toList

end Command

/-- A command with the settings under which it is performed. -/
structure Invocation where
  command : Command
  settings : Settings

namespace Invocation

/-- What a command line asks for under variables and the text of a file with further ones. Much is
answered before there is a command to perform; the first of several faults is the one of the
command line, then that of the settings, then that of the log filter. -/
def ofArguments (vars : List (String × String)) (file : Option String) (words : List String) :
    Except Answer Invocation :=
  match Command.read words with
  | .tell text => .error (.shown text)
  | .refuse => .error .misused
  | .perform command =>
    match Settings.assignments? vars file with
    | none => .error .broken
    | some vars =>
      match Settings.ofVariables vars with
      | .error e => .error (.failed (.settings e))
      | .ok settings =>
        match LogFilter.checkChosen vars settings with
        | .error .malformed => .error (.failed (.logFilter settings.logLevel))
        | .error .splitCharacter => .error .broken
        | .ok () => .ok ⟨command, settings⟩

def paths (i : Invocation) : List String :=
  let database := match (i.command.database? i.settings).map Location.ofText with
    | some (.ok (.file path way _ _ rightsOf)) =>
      path :: Surroundings.journalPath path :: way ++ rightsOf.toList
    | _ => []
  database ++ i.command.documentPaths i.settings

/-- The file that is made before the command is performed, since its database is opened first and
the files of the command may be looked for at the same path. -/
def made? (i : Invocation) (w : Surroundings) : Option (String × String) :=
  (i.command.database? i.settings).bind w.made?

def perform (i : Invocation) (w : Surroundings) : Outcome := i.command.perform w i.settings

/-- One pass of a watch: the same review as of now, on what is found now. -/
def pass? (i : Invocation) (w : Surroundings) : Option Outcome :=
  match i.command with
  | .watch sources _ => some ((Command.review sources none false).perform w i.settings)
  | _ => none

end Invocation

end Badging
