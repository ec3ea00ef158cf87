import Std.Time.DateTime.Timestamp
import TokenBudget.Command.Run

namespace TokenBudget

/-!
# The program

The outer layer: files of the disk, variables, clock and output streams.  Every
decision is made by `Command.run`.
-/

namespace Disk

/-- The reason why an operation on the disk failed. -/
def faultOf : IO.Error → FileFault
  | .noFileOrDirectory .. => .notFound
  | .alreadyExists .. => .alreadyExists
  | error => .other (toString error)

/-- Carry out an operation and catch its failure. -/
def attempt (operation : IO Value) : IO (Except FileFault Value) := do
  try
    return .ok (← operation)
  catch error =>
    return .error (faultOf error)

/-- The text of a file, if its bytes are one. -/
def readText (path : String) : IO (Except FileFault String) := do
  match ← attempt (IO.FS.readBinFile path) with
  | .error fault => return .error fault
  | .ok content =>
      match String.fromUTF8? content with
      | some text => return .ok text
      | none => return .error .notText

/-- An entry of the disk under a path. -/
def entryOf (path : String) : IO.FS.DirEntry where
  root := path
  fileName := ""

instance : FileAccess IO where
  pathExists path :=
    (entryOf path).root.pathExists
  isDirectory path :=
    (entryOf path).root.isDir
  readText := readText
  makeDirectory path :=
    attempt (IO.FS.createDir path)
  writeText path text :=
    attempt (IO.FS.writeFile path text)
  rename source target :=
    attempt (IO.FS.rename source target)
  remove path := do
    let _ ← attempt (IO.FS.removeFile path)

end Disk

/-- The variables of the process. -/
def readEnvironment : IO Environment := do
  return {
    settingsFile := ← IO.getEnv "TOKENING_CONFIG"
    contestStart := ← IO.getEnv "TOKENING_CONTEST__START"
    personalSeconds := ← IO.getEnv "TOKENING_CONTEST__PER_USER_TIME_SECS"
    configHome := ← IO.getEnv "XDG_CONFIG_HOME"
    dataHome := ← IO.getEnv "XDG_DATA_HOME"
    home := ← IO.getEnv "HOME"
  }

/-- Nanoseconds from day zero to the beginning of the year 1970. -/
def unixEpoch : Int :=
  ({ year := 1970, month := 1, day := 1 } : Date).dayNumber *
    (secondsPerDay * nanosPerSecond : Nat)

/-- The present instant. -/
def readClock : IO Instant := do
  let now ← Std.Time.Timestamp.now
  let nanos := now.toNanosecondsSinceUnixEpoch.val
  return (Instant.atTimeline? (unixEpoch + nanos)).getD ContestSettings.defaultStart

end TokenBudget

open TokenBudget in
/-- Run the command line of the process. -/
def main (arguments : List String) : IO UInt32 := do
  let surroundings := {
    environment := ← readEnvironment
    clock := ← readClock
    tag := ← IO.monoNanosNow
  }
  let outcome ← Command.run surroundings arguments
  IO.print outcome.output
  IO.eprint outcome.complaint
  return UInt32.ofNat outcome.status
