import TokenBudget.Settings.Basic
import TokenBudget.Settings.Fault

namespace TokenBudget

/-!
# Valid settings

The replay of a pool relies on rules that the numbers of the pool must keep, and
tasks are told apart by name.  The first fault is reported: the contest pool
comes before the tasks, the tasks come in their order, and a name that was used
before comes before the pool of its task.
-/

namespace FiniteTokens

/-- The first rule that the numbers break. -/
def flaw? (tokens : FiniteTokens) : Option PoolFlaw :=
  if tokens.periodSeconds = 0 then
    some .periodNotPositive
  else if tokens.cap = some 0 then
    some .capNotPositive
  else if tokens.lifetime = some 0 then
    some .lifetimeNotPositive
  else
    match tokens.cap with
    | none => none
    | some cap => if cap < tokens.initial then some .initialAboveCap else none

end FiniteTokens

namespace TokenMode

/-- The first rule that a mode breaks; only finite pools have rules. -/
def flaw? : TokenMode → Option PoolFlaw
  | .finite tokens => tokens.flaw?
  | .disabled => none
  | .infinite => none

/-- The mode of a named pool keeps the rules. -/
def validate
    (mode : TokenMode)
    (pool : String) :
    Except SettingsFault Unit :=
  match mode.flaw? with
  | none => .ok ()
  | some flaw => .error (.invalidPool pool flaw)

end TokenMode

namespace Settings

/-- Tasks have names that were not used before, and pools that keep the rules. -/
def validateTasks :
    List String → List TaskSettings → Except SettingsFault Unit
  | _, [] => .ok ()
  | used, task :: later =>
      if task.name ∈ used then
        .error (.duplicateTask task.name)
      else do
        task.tokens.validate task.name
        validateTasks (task.name :: used) later

/-- All rules are kept, or the first that is not. -/
def validate (settings : Settings) : Except SettingsFault Unit := do
  settings.contest.tokens.validate "contest"
  validateTasks [] settings.tasks

end Settings

end TokenBudget
