import TokenBudget.Settings.Decoding
import TokenBudget.Settings.Environment
import TokenBudget.Settings.Validation

namespace TokenBudget

/-!
# The settings file

Settings come from a file, or are the default ones where no file is; variables of
the environment then take precedence, and the outcome must be valid.  A file with
the default settings is written only where nothing is yet.
-/

namespace Settings

variable {Action : Type → Type} [Monad Action] [FileAccess Action]

/-- The text of the default settings. -/
def defaultText : String :=
  "tasks = []\n" ++
  "participants = []\n" ++
  "\n" ++
  "[contest]\n" ++
  "start = \"" ++ ContestSettings.defaultStart.toText .data ++ "\"\n" ++
  "\n" ++
  "[contest.tokens]\n" ++
  "mode = \"infinite\"\n"

/-- The settings once variables take precedence, if they are valid. -/
def accepted
    (settings : Settings)
    (environment : Environment) :
    Except SettingsFault Settings := do
  let overridden := settings.override environment
  overridden.validate
  return overridden

/-- The settings in a file, as they stand there. -/
def readFile (path : String) : Action (Except SettingsFault Settings) := do
  if ← FileAccess.pathExists path then
    match ← FileAccess.readText path with
    | .error reason => return .error (.unreadable path reason)
    | .ok text =>
        match ofText? text with
        | none => return .error (.unparsable path)
        | some settings => return .ok settings
  else
    return .ok .default

/-- Settings from a file and the environment. -/
def load
    (environment : Environment)
    (path : String) :
    Action (Except SettingsFault Settings) := do
  return (← readFile path).bind fun settings => settings.accepted environment

/-- Write the default settings to a path where nothing is; directories are made as needed. -/
def writeDefault (path : String) : Action (Except SettingsFault Unit) := do
  if ← FileAccess.pathExists path then
    return .ok ()
  else
    match ← FileAccess.makeDirectoriesAround path with
    | .error reason => return .error (.unwritable path reason)
    | .ok () =>
        match ← FileAccess.writeText path defaultText with
        | .error reason => return .error (.unwritable path reason)
        | .ok () => return .ok ()

end Settings

end TokenBudget
