import TokenBudget.Instant.Writer

namespace TokenBudget

/-!
# Faults of a query

Reasons why a pool has no standing at an instant.  They are mistakes of the
caller or the end of the range of instants; an empty pool is not among them.
-/

/-- Why a pool has no standing. -/
inductive Fault where
  | queryBeforeStart (start now : Instant)
  | playBeforeStart (played start : Instant)
  | playAfterQuery (played now : Instant)
  | historyUnsorted (index : Nat)
  | outOfRange
  deriving Repr, DecidableEq

namespace Fault

/-- The wording of a fault. -/
def message : Fault → String
  | .queryBeforeStart start now =>
      "query at " ++ now.toText .message ++ " precedes token start " ++ start.toText .message
  | .playBeforeStart played start =>
      "token consumed at " ++ played.toText .message ++
        " before token start " ++ start.toText .message
  | .playAfterQuery played now =>
      "token consumed at " ++ played.toText .message ++
        " after query instant " ++ now.toText .message
  | .historyUnsorted index =>
      "consumption history out of order at index " ++ toString index
  | .outOfRange =>
      "timestamp arithmetic out of range"

end Fault

end TokenBudget
