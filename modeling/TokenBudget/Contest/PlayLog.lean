import TokenBudget.Contest.Ledger
import TokenBudget.Instant.Reader
import TokenBudget.Instant.Writer
import TokenBudget.Json.Reader
import TokenBudget.Json.Writer

namespace TokenBudget

/-!
# Play logs

The text of a ledger: a JSON array of all its plays, each an object of four
strings.  A log may also hold plays as arrays of the four strings, objects with
further fields, and plays in any order; none of them is checked against a
contest.
-/

namespace Play

open Json (Value)

/-- A play as an object of four strings. -/
def toJson (play : Play) : Value :=
  .ofFields
    [("participant", .ofText play.participant),
      ("task", .ofText play.task),
      ("submission", .ofText play.submission),
      ("timestamp", .ofText (play.instant.toText .data))]

/-- The play that four strings describe. -/
def ofStrings?
    (participant task submission instant : Value) :
    Option Play := do
  return {
    participant := ← participant.text?
    task := ← task.text?
    submission := ← submission.text?
    instant := ← Instant.ofText? (← instant.text?)
  }

/-- The value of a field that occurs exactly once. -/
def soleField?
    (name : String)
    (fields : List (String × Value)) :
    Option Value :=
  match fields.filter fun field => field.1 = name with
  | [field] => some field.2
  | _ => none

/-- A field whose name is spelled by characters. -/
def namedField?
    (field : List Json.Piece × Value) :
    Option (String × Value) :=
  (Json.Piece.toText? field.1).map fun name => (name, field.2)

/-- The play that a value describes: an object with four fields, or an array of four strings. -/
def ofJson? : Value → Option Play
  | .object fields => do
      let named ← fields.mapM namedField?
      ofStrings?
        (← soleField? "participant" named)
        (← soleField? "task" named)
        (← soleField? "submission" named)
        (← soleField? "timestamp" named)
  | .array [participant, task, submission, instant] =>
      ofStrings? participant task submission instant
  | _ => none

end Play

namespace Ledger

/-- All plays of a ledger as a JSON array. -/
def toJson (ledger : Ledger) : Json.Value :=
  .array (ledger.allPlays.map Play.toJson)

/-- The play log of a ledger. -/
def toText (ledger : Ledger) : String :=
  Json.write ledger.toJson

/-- The ledger of a play log. -/
def ofText? (text : String) : Option Ledger :=
  match Json.read? text with
  | some (.array items) => (items.mapM Play.ofJson?).map ofPlays
  | _ => none

end Ledger

end TokenBudget
