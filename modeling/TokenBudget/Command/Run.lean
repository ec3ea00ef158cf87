import TokenBudget.Command.Arguments
import TokenBudget.Command.Failure
import TokenBudget.Command.Report
import TokenBudget.Settings.Storage

namespace TokenBudget.Command

/-!
# Running a command

A run reads its arguments, does what the words say, and ends in texts for the
two output streams and an exit status.  Help and writing default settings come
before any settings are loaded; every other command, an unknown one included,
first loads them.  Showing a standing or playing a token looks at the instant,
then the participant, then the play log.

Files are reached through `FileAccess`, so that a run is the same on a disk and on
a `FileTree`.
-/

/-- What a run leaves on the output streams, and its exit status. -/
structure Outcome where
  output : String
  complaint : String
  status : Nat
  deriving Repr, DecidableEq

namespace Outcome

/-- A run that ends well. -/
def success (output : String) : Outcome where
  output := output
  complaint := ""
  status := 0

/-- A run that fails. -/
def failed (failure : Failure) : Outcome where
  output := ""
  complaint := failure.report
  status := 1

/-- A run whose words are no command. -/
def unknown (words : List String) : Outcome where
  output := usage
  complaint := "Unknown command: " ++ " ".intercalate words ++ "\n\n"
  status := 1

end Outcome

/-- What can be asked once settings are loaded. -/
inductive Query where
  | policies
  | standing (participant task : String)
  | play (participant task submission : String)
  | unknown (words : List String)
  deriving Repr, DecidableEq

/-- What the words ask for. -/
inductive Request where
  | help
  | writeSettings
  | query (query : Query)
  deriving Repr, DecidableEq

/-- The request of some words. -/
def Request.ofWords : List String → Request
  | ["help"] => .help
  | ["--help"] => .help
  | ["-h"] => .help
  | ["init"] => .writeSettings
  | [] => .query .policies
  | ["policy"] => .query .policies
  | ["status", participant, task] => .query (.standing participant task)
  | ["play", participant, task, submission] => .query (.play participant task submission)
  | words => .query (.unknown words)

/-- Where a run takes place: variables, clock, and a number that no other run has. -/
structure Surroundings where
  environment : Environment
  clock : Instant
  tag : Nat
  deriving Repr, DecidableEq

/-- What every command with settings works on. -/
structure Context where
  settings : Settings
  contest : Contest
  playLog : String
  deriving Repr, DecidableEq

variable {Action : Type → Type} [Monad Action] [FileAccess Action]

/-- Write default settings where none are. -/
def writeSettings
    (surroundings : Surroundings)
    (arguments : Arguments) :
    Action (Except Failure Outcome) := do
  let path := arguments.settingsFile.getD surroundings.environment.settingsPath
  match ← Settings.writeDefault path with
  | .error fault => return .error (.badSettings fault)
  | .ok () => return .ok (.success (lines ["Config at " ++ path]))

/-- Load the settings and find the play log. -/
def loadContext
    (surroundings : Surroundings)
    (arguments : Arguments) :
    Action (Except Failure Context) := do
  let environment := surroundings.environment
  let path := arguments.settingsFile.getD environment.settingsPath
  match ← Settings.load environment path with
  | .error fault => return .error (.settingsNotLoaded fault)
  | .ok settings =>
      return .ok
        { settings
          contest := .ofSettings settings
          playLog := arguments.playLog.getD environment.playLogPath }

/-- The ledger of a play log; where no log is, nothing was played. -/
def readLedger (path : String) : Action (Except Failure Ledger) := do
  if ← FileAccess.pathExists path then
    match ← FileAccess.readText path with
    | .error reason => return .error (.logUnreadable path reason)
    | .ok text =>
        match Ledger.ofText? text with
        | none => return .error (.logUnparsable path)
        | some ledger => return .ok ledger
  else
    return .ok .empty

/-- Write a ledger to its play log; directories are made as needed. -/
def writeLedger
    (tag : Nat)
    (path : String)
    (ledger : Ledger) :
    Action (Except Failure Unit) := do
  match ← FileAccess.makeDirectoriesAround path with
  | .error reason => return .error (.directoryNotMade ((Path.parent? path).getD "") reason)
  | .ok () =>
      match ← FileAccess.replaceText path "plays.json" tag ledger.toText with
      | .error reason => return .error (.logUnwritable path reason)
      | .ok () => return .ok ()

/-- The instant that a command is about. -/
def instantOf
    (surroundings : Surroundings)
    (arguments : Arguments) :
    Except Failure Instant :=
  match arguments.instant with
  | none => .ok surroundings.clock
  | some text =>
      match Instant.ofText? text with
      | none => .error (.badInstant text)
      | some instant => .ok instant

/-- The instant and the participation that a command is about. -/
def subjectOf
    (surroundings : Surroundings)
    (arguments : Arguments)
    (context : Context)
    (participant : String) :
    Except Failure (Instant × Participation) := do
  let now ← instantOf surroundings arguments
  match context.contest.participation participant with
  | .error rejection => throw (.rejected rejection)
  | .ok participation => return (now, participation)

/-- Show the standing of a participant on a task. -/
def showStanding
    (surroundings : Surroundings)
    (arguments : Arguments)
    (context : Context)
    (participant task : String) :
    Action (Except Failure Outcome) := do
  match subjectOf surroundings arguments context participant with
  | .error failure => return .error failure
  | .ok (now, participation) =>
      match ← readLedger context.playLog with
      | .error failure => return .error failure
      | .ok ledger =>
          match ledger.standing context.contest participation task now with
          | .error rejection => return .error (.noStanding participant task rejection)
          | .ok standing =>
              if arguments.asJson then
                return .ok (.success (lines [Json.write (standingJson standing)]))
              else
                return .ok (.success (standingReport participant task now standing))

/-- Play a token on a submission and record it in the play log. -/
def playToken
    (surroundings : Surroundings)
    (arguments : Arguments)
    (context : Context)
    (participant task submission : String) :
    Action (Except Failure Outcome) := do
  match subjectOf surroundings arguments context participant with
  | .error failure => return .error failure
  | .ok (now, participation) =>
      match ← readLedger context.playLog with
      | .error failure => return .error failure
      | .ok ledger =>
          match ledger.accept context.contest participation task submission now with
          | (.error rejection, _) => return .error (.rejected rejection)
          | (.ok play, recorded) =>
              match ← writeLedger surroundings.tag context.playLog recorded with
              | .error failure => return .error failure
              | .ok () => return .ok (.success (playReport play))

/-- Answer a query with loaded settings. -/
def answer
    (surroundings : Surroundings)
    (arguments : Arguments)
    (context : Context) :
    Query → Action (Except Failure Outcome)
  | .policies =>
      return .ok (.success
        (policyReport context.contest context.settings.participants.length))
  | .standing participant task =>
      showStanding surroundings arguments context participant task
  | .play participant task submission =>
      playToken surroundings arguments context participant task submission
  | .unknown words =>
      return .ok (.unknown words)

/-- Do what the arguments ask for. -/
def perform
    (surroundings : Surroundings)
    (arguments : Arguments) :
    Action (Except Failure Outcome) := do
  match Request.ofWords arguments.words with
  | .help => return .ok (.success usage)
  | .writeSettings => writeSettings surroundings arguments
  | .query query =>
      match ← loadContext surroundings arguments with
      | .error failure => return .error failure
      | .ok context => answer surroundings arguments context query

/-- Run a command line. -/
def run
    (surroundings : Surroundings)
    (arguments : List String) :
    Action Outcome := do
  match Arguments.read arguments with
  | .error option => return .failed (.missingValue option)
  | .ok arguments =>
      match ← perform surroundings arguments with
      | .error failure => return .failed failure
      | .ok outcome => return outcome

end TokenBudget.Command
