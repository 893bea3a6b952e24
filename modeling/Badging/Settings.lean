import Badging.Number.Integer
import Badging.Settings.File
import Badging.Text.Blank
import Badging.Text.Case

/-!
# Settings

The settings come from variables, of which a file may give further ones. Only the time between
passes can be wrong; everything else has a meaning or a default.
-/

namespace Badging

inductive Environment where
  | development
  | test
  | production
deriving DecidableEq, Repr

namespace Environment

def label : Environment → String
  | .development => "development"
  | .test => "test"
  | .production => "production"

/-- The stage that a text names; any other text is development. -/
def ofText (s : String) : Environment :=
  match Text.lower (Text.trim s) with
  | "prod" | "production" => .production
  | "test" | "ci" => .test
  | _ => .development

end Environment

structure Settings where
  environment : Environment
  logLevel : String
  databasePath : String
  intervalSeconds : Nat
  factsPath : Option String
deriving DecidableEq, Repr

inductive SettingsError where
  | invalidReviewInterval
  | missingFactsPath
deriving DecidableEq, Repr

def SettingsError.message : SettingsError → String
  | .invalidReviewInterval => "APP_REVIEW_INTERVAL_SECS must be a positive number of seconds"
  | .missingFactsPath => "no facts snapshot given; pass --facts or set APP_FACTS_PATH"

namespace Settings

/-- The settings that variables make, of which the first of a name counts. -/
def ofVariables (vars : List (String × String)) : Except SettingsError Settings :=
  let get (name default : String) : String := (vars.lookup name).getD default
  match (Number.readWord64? (get "APP_REVIEW_INTERVAL_SECS" "300").toList).filter (0 < ·) with
  | none => .error .invalidReviewInterval
  | some interval =>
    .ok {
      environment := .ofText (get "APP_ENV" "development")
      logLevel := get "APP_LOG_LEVEL" "info"
      databasePath := get "APP_DATABASE_PATH" "badges.sqlite3"
      intervalSeconds := interval
      factsPath := (vars.lookup "APP_FACTS_PATH").filter (Text.trim · ≠ "") }

end Settings

end Badging
