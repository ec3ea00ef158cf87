import TokenBudget.Pool.Fault
import TokenBudget.Pool.Standing

namespace TokenBudget

/-!
# Rejections

Why a request for a token is turned down.  Contestants hear of missing tokens
and cooldowns before they hear that a submission has its token already.
-/

/-- Why a request is turned down. -/
inductive Rejection where
  /-- No token is left, or a cooldown runs. -/
  | unacceptable (standing : Standing)
  /-- The submission has a token. -/
  | alreadyPlayed (submission : String)
  | unknownTask (task : String)
  | unknownParticipation (name : String)
  /-- The query itself is at fault. -/
  | unanswerable (fault : Fault)
  deriving Repr, DecidableEq

namespace Rejection

/-- The wording of a rejection. -/
def message : Rejection → String
  | .unacceptable _ =>
      "token request discarded: no tokens available"
  | .alreadyPlayed submission =>
      "token request discarded: submission " ++ submission ++ " already has a token"
  | .unknownTask task =>
      "unknown task " ++ task
  | .unknownParticipation name =>
      "unknown participation " ++ name
  | .unanswerable fault =>
      fault.message

end Rejection

namespace Standing

/-- Let a play on a submission through, or say why not. -/
def permit
    (standing : Standing)
    (submission : String)
    (alreadyPlayed : Bool) :
    Except Rejection Unit :=
  if !standing.canPlay then
    .error (.unacceptable standing)
  else if alreadyPlayed then
    .error (.alreadyPlayed submission)
  else
    .ok ()

end Standing

end TokenBudget
