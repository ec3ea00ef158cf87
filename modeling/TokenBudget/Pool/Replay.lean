import TokenBudget.Pool.Clock
import TokenBudget.Pool.Fault
import TokenBudget.Pool.Standing

namespace TokenBudget

/-!
# Replaying a pool

The standing of a pool follows from its policy, its start, the instants at which
tokens were spent, and the instant asked about.  The replay walks the history
once: at each play it first adds the tokens of the boundaries passed since the
play before, up to the cap, and then spends one.

A disabled pool has an empty standing whatever its history.  Otherwise the
history must lie in order between the start and the query.
-/

namespace Policy

/-- No more than the cap may be held. -/
def capped
    (policy : Policy)
    (balance : Int) :
    Int :=
  match policy.cap with
  | none => balance
  | some cap => min balance cap.toNat

/-- The balance after the boundaries between two instants. -/
def accrue
    (policy : Policy)
    (clock : Clock)
    (balance : Int)
    (earlier later : Instant) :
    Int :=
  policy.capped
    (saturate
      (balance + saturate (clock.boundaries earlier later * policy.perPeriod.toNat)))

/-- The balance at an instant, after spending a token at each instant of a history. -/
def replay
    (policy : Policy)
    (clock : Clock)
    (now : Instant)
    (balance : Int)
    (previous : Instant) :
    List Instant → Int
  | [] =>
      policy.accrue clock balance previous now
  | played :: later =>
      policy.replay clock now (policy.accrue clock balance previous played - 1) played later

/-- No more can be held, so a boundary adds nothing. -/
def isSaturated
    (policy : Policy)
    (balance : Int) :
    Bool :=
  match policy.cap with
  | none => false
  | some cap => cap.toNat ≤ balance

/-- When the balance next grows, if it ever will. -/
def nextGrowth
    (policy : Policy)
    (clock : Clock)
    (now : Instant)
    (balance : Int) :
    Except Fault (Option Instant) :=
  if 0 < policy.perPeriod && !policy.isSaturated balance then
    match clock.nextBoundary? now with
    | some boundary => .ok (some boundary)
    | none => .error .outOfRange
  else
    .ok none

/-- The lifetime limit lets no more plays through. -/
def isExhausted
    (policy : Policy)
    (played : Nat) :
    Bool :=
  match policy.lifetime with
  | none => false
  | some lifetime => lifetime.toNat ≤ played

/-- Balance and growth as far as the plays left in the lifetime allow. -/
def withinLifetime
    (policy : Policy)
    (played : Nat)
    (balance : Int)
    (nextGrowth : Option Instant) :
    Int × Option Instant :=
  match policy.lifetime with
  | none => (balance, nextGrowth)
  | some lifetime =>
      let remaining := (lifetime.toNat : Int) - played
      if remaining ≤ balance then
        (remaining, none)
      else
        (balance, nextGrowth)

end Policy

/-- A balance as a count: none below zero, and as many as a 32-bit word holds. -/
def TokenCount.ofBalance (balance : Int) : TokenCount :=
  .finite (UInt32.ofNat (min balance.toNat (UInt32.size - 1)))

/-- The first fault of a history, of which one part has been passed over. -/
def historyFault?
    (start now : Instant) :
    Nat → Instant → List Instant → Option Fault
  | _, _, [] => none
  | index, previous, played :: later =>
      if played < start then
        some (.playBeforeStart played start)
      else if now < played then
        some (.playAfterQuery played now)
      else if played < previous then
        some (.historyUnsorted index)
      else
        historyFault? start now (index + 1) played later

/-- The fault of a query about a history, if it has one. -/
def timelineFault?
    (start now : Instant)
    (history : List Instant) :
    Option Fault :=
  if now < start then
    some (.queryBeforeStart start now)
  else
    historyFault? start now 0 start history

namespace Policy

/-- The end of a cooldown, if there is such an instant, while the cooldown runs. -/
def whileRunning (now : Instant) : Option Instant → Except Fault (Option Instant)
  | none => .error .outOfRange
  | some ends => .ok (if now < ends then some ends else none)

/-- The end of the cooldown after the last play, while it runs. -/
def cooldownEnd
    (policy : Policy)
    (history : List Instant)
    (now : Instant) :
    Except Fault (Option Instant) :=
  match history.getLast? with
  | none => .ok none
  | some last => whileRunning now (last.shift? policy.cooldown.toNanos)

/-- The standing at an instant of an enabled pool whose history is in order. -/
def standingFrom
    (policy : Policy)
    (initial : UInt32)
    (start : Instant)
    (history : List Instant)
    (now : Instant) :
    Except Fault Standing := do
  let cooldownEnd ← policy.cooldownEnd history now
  if policy.isInfinite then
    return { count := .infinite, nextGrowth := none, cooldownEnd }
  else if policy.isExhausted history.length then
    return .nothing
  else
    let clock := Clock.ofPolicy start policy
    let balance := policy.replay clock now initial.toNat start history
    let nextGrowth ← policy.nextGrowth clock now balance
    let allowed := policy.withinLifetime history.length balance nextGrowth
    return { count := .ofBalance allowed.1, nextGrowth := allowed.2, cooldownEnd }

/-- The standing of a pool at an instant, after spending a token at each instant of a history. -/
def standing
    (policy : Policy)
    (start : Instant)
    (history : List Instant)
    (now : Instant) :
    Except Fault Standing :=
  match policy.initial with
  | none => .ok .nothing
  | some initial =>
      match timelineFault? start now history with
      | some fault => .error fault
      | none => policy.standingFrom initial start history now

end Policy

/-- The standing of contest pool and task pool together; a fault of the contest pool comes first. -/
def jointStanding
    (contest task : Policy)
    (start : Instant)
    (contestHistory taskHistory : List Instant)
    (now : Instant) :
    Except Fault Standing := do
  let contestStanding ← contest.standing start contestHistory now
  let taskStanding ← task.standing start taskHistory now
  return contestStanding.meet taskStanding

end TokenBudget
