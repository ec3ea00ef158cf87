import TokenBudget.Files.Access

namespace TokenBudget

/-!
# Faults of settings

Why settings cannot be used, read or written.
-/

/-- A rule that the numbers of a pool break. -/
inductive PoolFlaw where
  | periodNotPositive
  | capNotPositive
  | lifetimeNotPositive
  | initialAboveCap
  deriving Repr, DecidableEq

namespace PoolFlaw

/-- The wording of a broken rule. -/
def message : PoolFlaw → String
  | .periodNotPositive => "gen_interval_secs must be positive"
  | .capNotPositive => "gen_max must be positive"
  | .lifetimeNotPositive => "max_number must be positive"
  | .initialAboveCap => "initial exceeds gen_max"

end PoolFlaw

/-- Why settings cannot be used, read or written. -/
inductive SettingsFault where
  | unreadable (path : String) (reason : FileFault)
  | unparsable (path : String)
  | unwritable (path : String) (reason : FileFault)
  | invalidPool (pool : String) (flaw : PoolFlaw)
  | duplicateTask (name : String)
  deriving Repr, DecidableEq

namespace SettingsFault

/-- The wording of a fault. -/
def message : SettingsFault → String
  | .unreadable path reason =>
      "failed to read " ++ path ++ ": " ++ reason.message
  | .unparsable path =>
      "failed to parse " ++ path ++ ": not a settings file"
  | .unwritable path reason =>
      "failed to write " ++ path ++ ": " ++ reason.message
  | .invalidPool pool flaw =>
      "invalid token policy for " ++ pool ++ ": " ++ flaw.message
  | .duplicateTask name =>
      "duplicate task name " ++ name

end SettingsFault

end TokenBudget
