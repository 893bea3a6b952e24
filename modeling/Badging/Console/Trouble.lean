import Badging.Definition
import Badging.Facts.Export
import Badging.Review.Verdict
import Badging.Settings

/-!
# What a person is told when something went wrong

Every error that ends a command has a place here, and its text starts with the part of the
program that it comes from.
-/

namespace Badging

inductive Trouble where
  | settings (e : SettingsError)
  | logFilter (filter : String)
  | file (reason : String)
  | store (e : StoreError)
  | review (e : ReviewError)
  | facts (e : SnapshotError)
  | definition (e : DefinitionError)
deriving DecidableEq, Repr

def Trouble.message : Trouble → String
  | .settings e => "configuration error: " ++ e.message
  | .logFilter filter =>
    "telemetry error: invalid log filter '" ++ filter ++ "' for the badge reviewer"
  | .file reason => "io error: " ++ reason
  | .store e => "storage error: " ++ e.message
  | .review e => "review error: " ++ e.message
  | .facts e => "facts error: " ++ e.message
  | .definition e => "badge definition error: " ++ e.message

end Badging
