import TokenBudget.Pool.Replay

namespace TokenBudget

/-!
# The exact balance of a pool

The balance of a pool as its rules tell it, without arithmetic on periods and
without limits of words: the period boundaries and the plays are put on one
timeline in order of time, and each of them in turn changes the balance.  A
boundary comes before a play at the same instant.

The pool starts with its initial tokens, as far as the cap allows.  A boundary
adds the tokens of a period, as far as the cap allows; a play takes one.
-/

/-- What changes the balance of a pool. -/
inductive PoolEvent where
  | boundary
  | play
  deriving Repr, DecidableEq

namespace Clock

/-- The boundaries, one period after the other from a place on the timeline, up to an instant. -/
def boundariesFrom
    (clock : Clock)
    (now : Instant)
    (place : Int) :
    List Instant :=
  match _found : Instant.atTimeline? (place + clock.period) with
  | none => []
  | some boundary =>
      if _reached : boundary ≤ now then
        boundary :: clock.boundariesFrom now (place + clock.period)
      else
        []
termination_by (now.timeline - place).toNat
decreasing_by
  have boundaryPlace := Instant.atTimeline?_eq_some _found
  have notLater := Instant.timeline_le_of_le boundaryPlace.2 _reached
  have periodPositive := clock.period_pos
  omega

/-- The boundaries after the start, up to an instant. -/
def boundariesUntil
    (clock : Clock)
    (now : Instant) :
    List Instant :=
  clock.boundariesFrom now clock.start.timeline

end Clock

namespace PoolEvent

/-- Boundaries and plays in order of time; a boundary comes before a play at its instant. -/
def interleave : List Instant → List Instant → List PoolEvent
  | [], plays => plays.map fun _ => .play
  | boundaries, [] => boundaries.map fun _ => .boundary
  | reached :: boundaries, played :: plays =>
      if reached ≤ played then
        .boundary :: interleave boundaries (played :: plays)
      else
        .play :: interleave (reached :: boundaries) plays
termination_by boundaries plays => boundaries.length + plays.length

end PoolEvent

namespace Policy

/-- The balance after an event. -/
def after
    (policy : Policy)
    (balance : Int) :
    PoolEvent → Int
  | .boundary => policy.capped (balance + policy.perPeriod.toNat)
  | .play => balance - 1

/-- What happens to a pool up to an instant; without a period there are no boundaries. -/
def events
    (policy : Policy)
    (start : Instant)
    (history : List Instant)
    (now : Instant) :
    List PoolEvent :=
  let clock := Clock.ofPolicy start policy
  let boundaries := if policy.period.toNanos = 0 then [] else clock.boundariesUntil now
  PoolEvent.interleave boundaries history

/-- The exact balance at an instant of a pool that starts with so many tokens. -/
def exactBalance
    (policy : Policy)
    (initial : UInt32)
    (start : Instant)
    (history : List Instant)
    (now : Instant) :
    Int :=
  (policy.events start history now).foldl policy.after (policy.capped initial.toNat)

end Policy

end TokenBudget
