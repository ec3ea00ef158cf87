import TokenBudget.Contest.Rejection
import TokenBudget.Settings.Fault

namespace TokenBudget.Command

/-!
# Failures of commands

Why a command failed, as it is told to the user: what was attempted and, below
it, the cause, if that is something else.
-/

/-- Why a command failed. -/
inductive Failure where
  | missingValue (option : String)
  | badSettings (fault : SettingsFault)
  | settingsNotLoaded (fault : SettingsFault)
  | badInstant (text : String)
  | rejected (rejection : Rejection)
  | noStanding (participant task : String) (rejection : Rejection)
  | logUnreadable (path : String) (reason : FileFault)
  | logUnparsable (path : String)
  | directoryNotMade (path : String) (reason : FileFault)
  | logUnwritable (path : String) (reason : FileFault)
  deriving Repr, DecidableEq

namespace Failure

/-- What failed. -/
def message : Failure → String
  | .missingValue option => option ++ " requires a value"
  | .badSettings fault => fault.message
  | .settingsNotLoaded _ => "failed to load config"
  | .badInstant text => "--at must be an RFC 3339 timestamp, got " ++ text
  | .rejected rejection => rejection.message
  | .noStanding participant task _ =>
      "cannot compute tokens for " ++ participant ++ " on " ++ task
  | .logUnreadable path _ => "failed to read " ++ path
  | .logUnparsable path => "failed to parse " ++ path
  | .directoryNotMade path _ => "failed to create " ++ path
  | .logUnwritable path _ => "failed to write " ++ path

/-- The cause, where it is not the failure itself. -/
def cause? : Failure → Option String
  | .missingValue _ => none
  | .badSettings _ => none
  | .settingsNotLoaded fault => some fault.message
  | .badInstant _ => some "the text is not an instant"
  | .rejected _ => none
  | .noStanding _ _ rejection => some rejection.message
  | .logUnreadable _ reason => some reason.message
  | .logUnparsable _ => some "the text is not a play log"
  | .directoryNotMade _ reason => some reason.message
  | .logUnwritable _ reason => some reason.message

/-- A text with four spaces before each of its lines. -/
def indented (text : String) : String :=
  String.ofList
    (' ' :: ' ' :: ' ' :: ' ' ::
      text.toList.flatMap fun char =>
        if char = '\n' then ['\n', ' ', ' ', ' ', ' '] else [char])

/-- The text that tells of a failure. -/
def report (failure : Failure) : String :=
  match failure.cause? with
  | none => "Error: " ++ failure.message ++ "\n"
  | some cause =>
      "Error: " ++ failure.message ++ "\n\nCaused by:\n" ++ indented cause ++ "\n"

end Failure

end TokenBudget.Command
