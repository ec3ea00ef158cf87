import TokenBudget.Policy

namespace TokenBudget

/-!
# Schedules

A contest begins at one instant for all, or gives every participant a window of
their own that opens when they start.  Tokens accrue from the start of the
contest in the first case and from the participant's own start in the second.
-/

/-- A participant's enrolment; the starting time is set once their window is open. -/
structure Participation where
  name : String
  startingTime : Option Instant
  deriving Repr, DecidableEq

/-- When a contest begins and how long each participant's own window is, if they have one. -/
structure Schedule where
  contestStart : Instant
  personalTime : Option Duration
  deriving Repr, DecidableEq

namespace Schedule

/-- The instant from which a participant accrues tokens; none before their window opens. -/
def tokenStart?
    (schedule : Schedule)
    (participation : Participation) :
    Option Instant :=
  match schedule.personalTime with
  | none => some schedule.contestStart
  | some _ => participation.startingTime

end Schedule

end TokenBudget
