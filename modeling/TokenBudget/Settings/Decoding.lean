import TokenBudget.Instant.Reader
import TokenBudget.Settings.Basic
import TokenBudget.Toml.Document

namespace TokenBudget

/-!
# Settings in TOML

A record is a table, in which unknown keys are passed over, or an array of its
fields in their order, of which the last may be missing; items after the last
field are passed over as well.  A missing field has its default, if it has one.
A bare date is a record without known fields.

The mode of a pool is stricter: as an array it may have no items beyond the
fields of the mode that it names, and a bare date is no mode.

Numbers must fit their field; instants are texts.  Fields that a mode does not
have are not looked at.
-/

namespace Settings

open Toml (Node)

/-- The fields of a record by name. -/
abbrev Fields := String → Option Node

/-- The items of an array. -/
def items? : Node → Option (List Node)
  | .array items => some items
  | .tables elements => some (elements.map fun entries => .table .header entries)
  | _ => none

/-- The fields that an array gives in the order of names. -/
def fieldsInOrder
    (names : List String)
    (items : List Node) :
    Fields :=
  fun name => (names.zip items).lookup name

/-- The fields of a record whose fields have these names. -/
def fields?
    (names : List String)
    (node : Node) :
    Option Fields :=
  match node with
  | .table _ entries => some fun name => entries.lookup name
  | .moment => some fun _ => none
  | node => (items? node).map (fieldsInOrder names)

/-- A field that may be missing. -/
def fieldOr
    (decode : Node → Option Value)
    (default : Value) :
    Option Node → Option Value
  | none => some default
  | some node => decode node

/-- A field that has no value if it is missing. -/
def optionalField
    (decode : Node → Option Value) :
    Option Node → Option (Option Value)
  | none => some none
  | some node => (decode node).map some

/-- A text. -/
def text? : Node → Option String
  | .text text => some text
  | _ => none

/-- An instant in the text form. -/
def instant? (node : Node) : Option Instant :=
  (text? node).bind Instant.ofText?

/-- A 32-bit number. -/
def word32? : Node → Option UInt32
  | .integer value =>
      if 0 ≤ value ∧ value < UInt32.size then some (UInt32.ofNat value.toNat) else none
  | _ => none

/-- A 64-bit number. -/
def word64? : Node → Option UInt64
  | .integer value =>
      if 0 ≤ value ∧ value < UInt64.size then some (UInt64.ofNat value.toNat) else none
  | _ => none

/-- The names of the numbers of a finite pool in their order. -/
def finiteNames : List String :=
  ["initial", "gen_number", "gen_interval_secs", "gen_max", "max_number", "min_interval_secs"]

/-- The numbers of a finite pool. -/
def finiteTokens? (fields : Fields) : Option FiniteTokens := do
  let default := FiniteTokens.default
  return {
    initial := ← fieldOr word32? default.initial (fields "initial")
    perPeriod := ← fieldOr word32? default.perPeriod (fields "gen_number")
    periodSeconds := ← fieldOr word64? default.periodSeconds (fields "gen_interval_secs")
    cap := ← optionalField word32? (fields "gen_max")
    lifetime := ← optionalField word32? (fields "max_number")
    cooldownSeconds := ← fieldOr word64? default.cooldownSeconds (fields "min_interval_secs")
  }

/-- The mode of a name with the fields that stand beside it. -/
def namedMode?
    (mode : String)
    (fields : Fields) :
    Option TokenMode :=
  if mode = "disabled" then
    some .disabled
  else if mode = "infinite" then
    some .infinite
  else if mode = "finite" then
    (finiteTokens? fields).map .finite
  else
    none

/-- The fields that a mode may have in an array. -/
def modeNames (mode : String) : List String :=
  if mode = "finite" then finiteNames else []

/-- The mode of a pool: a record whose first field names the mode. -/
def mode? (node : Node) : Option TokenMode :=
  match node with
  | .table _ entries => do
      let mode ← text? (← entries.lookup "mode")
      namedMode? mode fun name => entries.lookup name
  | node => do
      match ← items? node with
      | [] => none
      | first :: others =>
          let mode ← text? first
          guard (others.length ≤ (modeNames mode).length)
          namedMode? mode (fieldsInOrder (modeNames mode) others)

/-- The start, the window and the pool of a contest. -/
def contest? (node : Node) : Option ContestSettings := do
  let fields ← fields? ["start", "per_user_time_secs", "tokens"] node
  let default := ContestSettings.default
  return {
    start := ← fieldOr instant? default.start (fields "start")
    personalSeconds := ← optionalField word64? (fields "per_user_time_secs")
    tokens := ← fieldOr mode? default.tokens (fields "tokens")
  }

/-- A task, which must have a name. -/
def task? (node : Node) : Option TaskSettings := do
  let fields ← fields? ["name", "tokens"] node
  return {
    name := ← text? (← fields "name")
    tokens := ← fieldOr mode? .infinite (fields "tokens")
  }

/-- A participant, who must have a name. -/
def participant? (node : Node) : Option Participation := do
  let fields ← fields? ["name", "starting_time"] node
  return {
    name := ← text? (← fields "name")
    startingTime := ← optionalField instant? (fields "starting_time")
  }

/-- The items of a list, all of one kind. -/
def list?
    (decode : Node → Option Value)
    (node : Node) :
    Option (List Value) := do
  (← items? node).mapM decode

/-- The settings that a document holds. -/
def ofTable? (document : Toml.Table) : Option Settings := do
  return {
    contest := ← fieldOr contest? .default (document.find? "contest")
    tasks := ← fieldOr (list? task?) [] (document.find? "tasks")
    participants := ← fieldOr (list? participant?) [] (document.find? "participants")
  }

/-- The settings that a text spells. -/
def ofText? (text : String) : Option Settings :=
  (Toml.read? text).bind ofTable?

end Settings

end TokenBudget
