namespace TokenBudget.Command

/-!
# Arguments of the command line

Options may stand anywhere among the words of a command.  Three options take the
argument after them as their value, whatever it looks like; of an option given
twice the last value counts.
-/

/-- What the options say, and the words that are no options. -/
structure Arguments where
  settingsFile : Option String
  playLog : Option String
  instant : Option String
  asJson : Bool
  words : List String
  deriving Repr, DecidableEq

namespace Arguments

/-- No argument at all. -/
def none : Arguments where
  settingsFile := .none
  playLog := .none
  instant := .none
  asJson := false
  words := []

/-- The arguments after those read so far, or the option whose value is missing. -/
def readAfter : Arguments → List String → Except String Arguments
  | read, [] => .ok read
  | read, "--json" :: later =>
      readAfter { read with asJson := true } later
  | read, "--config" :: value :: later =>
      readAfter { read with settingsFile := some value } later
  | read, "--plays" :: value :: later =>
      readAfter { read with playLog := some value } later
  | read, "--at" :: value :: later =>
      readAfter { read with instant := some value } later
  | read, word :: later =>
      if word = "--config" ∨ word = "--plays" ∨ word = "--at" then
        .error word
      else
        readAfter { read with words := read.words ++ [word] } later

/-- The arguments of a command line, or the option whose value is missing. -/
def read (arguments : List String) : Except String Arguments :=
  readAfter none arguments

end Arguments

end TokenBudget.Command
