import TokenBudget.Proofs.Instant.Moved
import TokenBudget.Proofs.Pool.Agreement

namespace TokenBudget

/-!
# Moved pools

A pool knows time only from its start on.  When start, plays and query are all
moved by the same distance, the periods that have passed are the same, and so are
the balance and the count; the instants of the answer are moved along with the
query, `jointStanding_moved`.  The one thing that is not moved is the range of
instants, so an answer may be out of range on one side only: `Corresponds`.
-/

open Instant (MovedBy)

namespace Fault

/-- The same fault, told of moved instants. -/
inductive Moved (distance : Int) : Fault → Fault → Prop
  | queryBeforeStart
      {start now movedStart movedNow : Instant}
      (startMoves : MovedBy distance start movedStart)
      (nowMoves : MovedBy distance now movedNow) :
      Moved distance (.queryBeforeStart start now) (.queryBeforeStart movedStart movedNow)
  | playBeforeStart
      {played start movedPlayed movedStart : Instant}
      (playedMoves : MovedBy distance played movedPlayed)
      (startMoves : MovedBy distance start movedStart) :
      Moved distance (.playBeforeStart played start) (.playBeforeStart movedPlayed movedStart)
  | playAfterQuery
      {played now movedPlayed movedNow : Instant}
      (playedMoves : MovedBy distance played movedPlayed)
      (nowMoves : MovedBy distance now movedNow) :
      Moved distance (.playAfterQuery played now) (.playAfterQuery movedPlayed movedNow)
  | historyUnsorted (index : Nat) :
      Moved distance (.historyUnsorted index) (.historyUnsorted index)

end Fault

namespace Standing

/-- The same count, and instants that are moved. -/
structure Moved
    (distance : Int)
    (standing moved : Standing) :
    Prop where
  count : moved.count = standing.count
  nextGrowth : Option.Rel (MovedBy distance) standing.nextGrowth moved.nextGrowth
  cooldownEnd : Option.Rel (MovedBy distance) standing.cooldownEnd moved.cooldownEnd

end Standing

/--
Results that tell the same of moved instants: values that correspond, or the same
fault.  Nothing is said where either side is out of range.
-/
inductive Corresponds
    {First Second : Type}
    (distance : Int)
    (values : First → Second → Prop) :
    Except Fault First → Except Fault Second → Prop
  | firstOutOfRange
      (result : Except Fault Second) :
      Corresponds distance values (.error .outOfRange) result
  | secondOutOfRange
      (result : Except Fault First) :
      Corresponds distance values result (.error .outOfRange)
  | faults
      {fault movedFault : Fault}
      (moves : fault.Moved distance movedFault) :
      Corresponds distance values (.error fault) (.error movedFault)
  | values
      {first : First}
      {second : Second}
      (correspond : values first second) :
      Corresponds distance values (.ok first) (.ok second)

/-- Computations that correspond go on to correspond. -/
theorem Corresponds.bind
    {First Second NextFirst NextSecond : Type}
    {distance : Int}
    {values : First → Second → Prop}
    {nextValues : NextFirst → NextSecond → Prop}
    {first : Except Fault First}
    {second : Except Fault Second}
    {nextFirst : First → Except Fault NextFirst}
    {nextSecond : Second → Except Fault NextSecond}
    (correspond : Corresponds distance values first second)
    (next :
      ∀ firstValue secondValue,
        values firstValue secondValue →
        Corresponds distance nextValues (nextFirst firstValue) (nextSecond secondValue)) :
    Corresponds distance nextValues (first >>= nextFirst) (second >>= nextSecond) := by
  cases correspond with
  | firstOutOfRange => exact .firstOutOfRange _
  | secondOutOfRange => exact .secondOutOfRange _
  | faults moves => exact .faults moves
  | values same => exact next _ _ same

section

variable
    {distance : Int}
    {start now movedStart movedNow : Instant}
    {history movedHistory : List Instant}
    (startMoves : MovedBy distance start movedStart)
    (nowMoves : MovedBy distance now movedNow)
    (historyMoves : List.Forall₂ (MovedBy distance) history movedHistory)

/-!
## Faults
-/

include startMoves nowMoves historyMoves

/-- The scan of a moved history finds the same fault. -/
theorem historyFault?_moved
    {previous movedPrevious : Instant}
    (index : Nat)
    (previousMoves : MovedBy distance previous movedPrevious) :
    Option.Rel (Fault.Moved distance)
      (historyFault? start now index previous history)
      (historyFault? movedStart movedNow index movedPrevious movedHistory) := by
  induction historyMoves generalizing index previous movedPrevious with
  | nil =>
      exact .none
  | @cons played movedPlayed later movedLater playedMoves laterMove inductionHypothesis =>
      have sameEarly := playedMoves.lt_iff startMoves
      have sameLate := nowMoves.lt_iff playedMoves
      have sameBackwards := playedMoves.lt_iff previousMoves
      simp only [historyFault?, sameEarly, sameLate, sameBackwards]
      split
      · exact .some (.playBeforeStart playedMoves startMoves)
      · split
        · exact .some (.playAfterQuery playedMoves nowMoves)
        · split
          · exact .some (.historyUnsorted index)
          · exact inductionHypothesis (index + 1) playedMoves

theorem timelineFault?_moved :
    Option.Rel (Fault.Moved distance)
      (timelineFault? start now history)
      (timelineFault? movedStart movedNow movedHistory) := by
  simp only [timelineFault?, nowMoves.lt_iff startMoves]
  split
  · exact .some (.queryBeforeStart startMoves nowMoves)
  · exact historyFault?_moved startMoves nowMoves historyMoves 0 startMoves

end

/-!
## Clocks
-/

namespace Clock

/-- A clock with the same period and a moved start. -/
structure Moved
    (distance : Int)
    (clock moved : Clock) :
    Prop where
  start : MovedBy distance clock.start moved.start
  period : moved.period = clock.period

theorem moved_ofPolicy
    {distance : Int}
    {start movedStart : Instant}
    (startMoves : MovedBy distance start movedStart)
    (policy : Policy) :
    (ofPolicy start policy).Moved distance (ofPolicy movedStart policy) := by
  unfold ofPolicy
  split
  · exact ⟨startMoves, rfl⟩
  · exact ⟨startMoves, rfl⟩

namespace Moved

variable
    {distance : Int}
    {clock moved : Clock}
    {instant movedInstant later movedLater : Instant}
    (moves : clock.Moved distance moved)
    (instantMoves : MovedBy distance instant movedInstant)

include moves instantMoves

/-- As many periods have passed on a moved clock at a moved instant. -/
theorem periods_eq :
    moved.periods movedInstant = clock.periods instant := by
  rw [periods, periods, moves.start.elapsed_eq instantMoves, moves.period]

theorem boundaries_eq
    (laterMoves : MovedBy distance later movedLater) :
    moved.boundaries movedInstant movedLater = clock.boundaries instant later := by
  simp only [boundaries, moves.periods_eq instantMoves, moves.periods_eq laterMoves]

/-- The next boundary is moved along, if both are there. -/
theorem nextBoundary?_moved
    {boundary movedBoundary : Instant}
    (found : clock.nextBoundary? instant = some boundary)
    (movedFound : moved.nextBoundary? movedInstant = some movedBoundary) :
    MovedBy distance boundary movedBoundary := by
  simp only [nextBoundary?, moves.periods_eq instantMoves, moves.period] at found movedFound
  split at found
  · next fits =>
      rw [if_pos fits] at movedFound
      exact moves.start.of_shift? found movedFound
  · contradiction

end Moved

end Clock

namespace Policy

variable
    {distance : Int}
    {now movedNow : Instant}
    {history movedHistory : List Instant}
    (policy : Policy)
    (nowMoves : MovedBy distance now movedNow)

include nowMoves

/-!
## Balance and cooldown
-/

/-- What a pool accrues between two instants does not change when they are moved. -/
theorem accrue_moved
    {clock movedClock : Clock}
    {earlier movedEarlier : Instant}
    (clockMoves : clock.Moved distance movedClock)
    (earlierMoves : MovedBy distance earlier movedEarlier)
    (balance : Int) :
    policy.accrue movedClock balance movedEarlier movedNow =
      policy.accrue clock balance earlier now := by
  rw [accrue, accrue, clockMoves.boundaries_eq earlierMoves nowMoves]

/-- A moved history is replayed to the same balance. -/
theorem replay_moved
    {clock movedClock : Clock}
    {previous movedPrevious : Instant}
    (clockMoves : clock.Moved distance movedClock)
    (historyMoves : List.Forall₂ (MovedBy distance) history movedHistory)
    (previousMoves : MovedBy distance previous movedPrevious)
    (balance : Int) :
    policy.replay movedClock movedNow balance movedPrevious movedHistory =
      policy.replay clock now balance previous history := by
  induction historyMoves generalizing balance previous movedPrevious with
  | nil =>
      exact policy.accrue_moved nowMoves clockMoves previousMoves balance
  | cons playedMoves laterMove inductionHypothesis =>
      rw [replay, replay, policy.accrue_moved playedMoves clockMoves previousMoves]
      exact inductionHypothesis playedMoves _

theorem nextGrowth_moved
    {clock movedClock : Clock}
    (clockMoves : clock.Moved distance movedClock)
    (balance : Int) :
    Corresponds distance (Option.Rel (MovedBy distance))
      (policy.nextGrowth clock now balance)
      (policy.nextGrowth movedClock movedNow balance) := by
  unfold nextGrowth
  split
  · cases found : clock.nextBoundary? now with
    | none =>
        exact .firstOutOfRange _
    | some boundary =>
        cases movedFound : movedClock.nextBoundary? movedNow with
        | none =>
            exact .secondOutOfRange _
        | some movedBoundary =>
            exact .values (.some (clockMoves.nextBoundary?_moved nowMoves found movedFound))
  · exact .values .none

omit nowMoves in
/-- The lifetime hides growth whatever its instant. -/
theorem snd_withinLifetime_moved
    {nextGrowth movedGrowth : Option Instant}
    (growthMoves : Option.Rel (MovedBy distance) nextGrowth movedGrowth)
    (played : Nat)
    (balance : Int) :
    Option.Rel (MovedBy distance)
      (policy.withinLifetime played balance nextGrowth).2
      (policy.withinLifetime played balance movedGrowth).2 := by
  unfold withinLifetime
  split
  · exact growthMoves
  · dsimp only
    split
    · exact .none
    · exact growthMoves

theorem whileRunning_moved
    {last movedLast : Instant}
    (lastMoves : MovedBy distance last movedLast)
    (nanos : Int) :
    Corresponds distance (Option.Rel (MovedBy distance))
      (whileRunning now (last.shift? nanos))
      (whileRunning movedNow (movedLast.shift? nanos)) := by
  cases ends : last.shift? nanos with
  | none =>
      exact .firstOutOfRange _
  | some ends? =>
      cases movedEnds : movedLast.shift? nanos with
      | none =>
          exact .secondOutOfRange _
      | some movedEnds? =>
          have endMoves := lastMoves.of_shift? ends movedEnds
          simp only [whileRunning, nowMoves.lt_iff endMoves]
          apply Corresponds.values
          split
          · exact .some endMoves
          · exact .none

theorem cooldownEnd_moved
    (historyMoves : List.Forall₂ (MovedBy distance) history movedHistory) :
    Corresponds distance (Option.Rel (MovedBy distance))
      (policy.cooldownEnd history now)
      (policy.cooldownEnd movedHistory movedNow) := by
  have backwards := List.forall₂_reverse_iff.mpr historyMoves
  simp only [cooldownEnd, ← List.head?_reverse]
  generalize history.reverse = reversed at backwards
  generalize movedHistory.reverse = movedReversed at backwards
  cases backwards with
  | nil => exact .values .none
  | cons lastMoves _ => exact whileRunning_moved nowMoves lastMoves _

/-!
## Standings
-/

variable
    {start movedStart : Instant}
    (startMoves : MovedBy distance start movedStart)
    (historyMoves : List.Forall₂ (MovedBy distance) history movedHistory)

include startMoves historyMoves

theorem standingFrom_moved (initial : UInt32) :
    Corresponds distance (Standing.Moved distance)
      (policy.standingFrom initial start history now)
      (policy.standingFrom initial movedStart movedHistory movedNow) := by
  have clockMoves := Clock.moved_ofPolicy startMoves policy
  refine (policy.cooldownEnd_moved nowMoves historyMoves).bind fun _ _ coolingMoves => ?_
  rw [← historyMoves.length_eq]
  split
  · exact .values ⟨rfl, .none, coolingMoves⟩
  · split
    · exact .values ⟨rfl, .none, .none⟩
    · dsimp only
      rw [policy.replay_moved nowMoves clockMoves historyMoves startMoves]
      refine (policy.nextGrowth_moved nowMoves clockMoves _).bind fun _ _ growthMoves => ?_
      refine .values ⟨?_, policy.snd_withinLifetime_moved growthMoves _ _, coolingMoves⟩
      rw [fst_withinLifetime, fst_withinLifetime]

/-- A pool answers a moved query about moved plays with a moved standing. -/
theorem standing_moved :
    Corresponds distance (Standing.Moved distance)
      (policy.standing start history now)
      (policy.standing movedStart movedHistory movedNow) := by
  unfold standing
  split
  · exact .values ⟨rfl, .none, .none⟩
  · next initial enabled =>
      have faultMoves := timelineFault?_moved startMoves nowMoves historyMoves
      generalize timelineFault? start now history = fault? at faultMoves ⊢
      generalize timelineFault? movedStart movedNow movedHistory = movedFault? at faultMoves ⊢
      cases faultMoves with
      | none => exact policy.standingFrom_moved nowMoves startMoves historyMoves initial
      | some moves => exact .faults moves

end Policy

namespace Standing

section

variable
    {distance : Int}
    {first second movedFirst movedSecond : Option Instant}
    (firstMoves : Option.Rel (MovedBy distance) first movedFirst)
    (secondMoves : Option.Rel (MovedBy distance) second movedSecond)

include firstMoves secondMoves

theorem laterOf_moved :
    Option.Rel (MovedBy distance)
      (laterOf first second)
      (laterOf movedFirst movedSecond) := by
  cases firstMoves with
  | none =>
      cases secondMoves with
      | none => exact .none
      | some moves => exact .some moves
  | some moves =>
      cases secondMoves with
      | none => exact .some moves
      | some secondMoves => exact .some (moves.later secondMoves)

theorem bothBy_moved :
    Option.Rel (MovedBy distance)
      (bothBy first second)
      (bothBy movedFirst movedSecond) := by
  cases firstMoves with
  | none => exact .none
  | some moves =>
      cases secondMoves with
      | none => exact .none
      | some secondMoves => exact .some (moves.later secondMoves)

end

/-- Moved standings meet in a moved standing. -/
theorem Moved.meet
    {distance : Int}
    {contest task movedContest movedTask : Standing}
    (contestMoves : contest.Moved distance movedContest)
    (taskMoves : task.Moved distance movedTask) :
    (contest.meet task).Moved distance (movedContest.meet movedTask) where
  count := by
    rw [Standing.meet, Standing.meet, contestMoves.count, taskMoves.count]
  nextGrowth := by
    simp only [Standing.meet, contestMoves.count, taskMoves.count]
    split
    · exact .none
    · exact taskMoves.nextGrowth
    · exact contestMoves.nextGrowth
    · split
      · exact contestMoves.nextGrowth
      · split
        · exact taskMoves.nextGrowth
        · exact bothBy_moved contestMoves.nextGrowth taskMoves.nextGrowth
  cooldownEnd :=
    laterOf_moved contestMoves.cooldownEnd taskMoves.cooldownEnd

end Standing

/-- Two pools together answer a moved query about moved plays with a moved standing. -/
theorem jointStanding_moved
    {distance : Int}
    {start now movedStart movedNow : Instant}
    {contestHistory taskHistory movedContestHistory movedTaskHistory : List Instant}
    (contest task : Policy)
    (startMoves : MovedBy distance start movedStart)
    (nowMoves : MovedBy distance now movedNow)
    (contestMoves : List.Forall₂ (MovedBy distance) contestHistory movedContestHistory)
    (taskMoves : List.Forall₂ (MovedBy distance) taskHistory movedTaskHistory) :
    Corresponds distance (Standing.Moved distance)
      (jointStanding contest task start contestHistory taskHistory now)
      (jointStanding contest task movedStart movedContestHistory movedTaskHistory movedNow) := by
  apply (contest.standing_moved nowMoves startMoves contestMoves).bind
  intro contestStanding movedContestStanding contestStandingMoves
  apply (task.standing_moved nowMoves startMoves taskMoves).bind
  intro taskStanding movedTaskStanding taskStandingMoves
  exact .values (contestStandingMoves.meet taskStandingMoves)

end TokenBudget
