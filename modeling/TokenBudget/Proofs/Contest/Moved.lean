import Mathlib.Data.List.Perm.Basic
import TokenBudget.Proofs.Contest.PastPlays
import TokenBudget.Proofs.Pool.Moved

namespace TokenBudget

/-!
# Personal windows

In a contest with personal windows a participant's tokens depend on how long ago
the window opened, and not on when that was.  A participant who starts later, and
then plays and asks later by the same time, gets the same answer with its instants
moved: `Contest.standing_of_personal_start`.
-/

open Instant (MovedBy)

namespace Play

/-- A play on the same task at a moved instant. -/
structure MovedBy
    (distance : Int)
    (play moved : Play) :
    Prop where
  task : moved.task = play.task
  instant : play.instant.MovedBy distance moved.instant

end Play

namespace Contest

/-- Answers that tell the same of moved instants; nothing is said where either is out of range. -/
inductive AnswersAlike (distance : Int) :
    Except Rejection Standing → Except Rejection Standing → Prop
  | outOfRange
      {first second : Except Rejection Standing}
      (outOfRange :
        first = .error (.unanswerable .outOfRange) ∨
          second = .error (.unanswerable .outOfRange)) :
      AnswersAlike distance first second
  | unknownTask
      (task : String) :
      AnswersAlike distance (.error (.unknownTask task)) (.error (.unknownTask task))
  | faults
      {fault movedFault : Fault}
      (moves : fault.Moved distance movedFault) :
      AnswersAlike distance
        (.error (.unanswerable fault))
        (.error (.unanswerable movedFault))
  | standings
      {standing movedStanding : Standing}
      (moves : standing.Moved distance movedStanding) :
      AnswersAlike distance (.ok standing) (.ok movedStanding)

section

variable
    {distance : Int}
    {now movedNow : Instant}
    {plays movedPlays others : List Play}
    (nowMoves : now.MovedBy distance movedNow)
    (playsMove : List.Forall₂ (Play.MovedBy distance) plays movedPlays)
    (reordered : movedPlays.Perm others)

include nowMoves playsMove

/-- A moved query lets the moved plays count of which it let the originals count. -/
theorem filter_past_moved
    {counts : Play → Bool}
    (byTask : ∀ {play moved}, Play.MovedBy distance play moved → counts moved = counts play) :
    List.Forall₂ (MovedBy distance)
      (Play.instants
        (plays.filter fun play => counts play && decide (play.instant ≤ now)))
      (Play.instants
        (movedPlays.filter fun play => counts play && decide (play.instant ≤ movedNow))) := by
  induction playsMove with
  | nil =>
      exact .nil
  | @cons play moved later movedLater playMoves laterMove inductionHypothesis =>
      have sameCount := byTask playMoves
      have samePast := playMoves.instant.le_iff nowMoves
      simp only [List.filter_cons, sameCount, samePast]
      split
      · exact .cons playMoves.instant inductionHypothesis
      · exact inductionHypothesis

include reordered

/-- What a moved query sees is moved, whatever the order of the plays. -/
theorem instants_past_moved
    {counts : Play → Bool}
    (byTask : ∀ {play moved}, Play.MovedBy distance play moved → counts moved = counts play) :
    List.Forall₂ (MovedBy distance)
      (Play.instants ((pastPlays plays now).filter counts))
      (Play.instants ((pastPlays others movedNow).filter counts)) := by
  obtain ⟨inOrder, moves, entries⟩ :=
    List.perm_comp_forall₂ (instants_past_perm counts plays now)
      (filter_past_moved nowMoves playsMove byTask)
  -- Both lists are sorted and have the same entries.
  have sorted := Instant.pairwise_le_of_moved moves (sorted_instants_past counts plays now)
  have same :
      inOrder = Play.instants ((pastPlays others movedNow).filter counts) := by
    have otherEntries := instants_past_perm counts others movedNow
    exact (entries.trans (((reordered.filter _).map _).trans otherEntries.symm)).eq_of_pairwise
      (fun _ _ _ _ => le_antisymm) sorted (sorted_instants_past counts others movedNow)
  rw [← same]
  exact moves

/-- A participant whose token start, plays and query are all moved gets an answer alike. -/
theorem answersAlike_of_moved
    {contest : Contest}
    {participation other : Participation}
    {task : String}
    {start movedStart : Instant}
    (started : contest.schedule.tokenStart? participation = some start)
    (otherStarted : contest.schedule.tokenStart? other = some movedStart)
    (startMoves : start.MovedBy distance movedStart) :
    AnswersAlike distance
      (contest.standing participation task plays now)
      (contest.standing other task others movedNow) := by
  have pastMoves :
      List.Forall₂ (MovedBy distance)
        (Play.instants (pastPlays plays now))
        (Play.instants (pastPlays others movedNow)) := by
    rw [← filter_true_past plays, ← filter_true_past others]
    exact instants_past_moved nowMoves playsMove reordered fun _ => rfl
  have onTaskMoves :
      List.Forall₂ (MovedBy distance)
        (Play.instants (Play.onTask task (pastPlays plays now)))
        (Play.instants (Play.onTask task (pastPlays others movedNow))) :=
    instants_past_moved nowMoves playsMove reordered fun moves => by rw [moves.task]
  cases known : contest.tasks.find? task with
  | none =>
      rw [standing_eq_iff_reply.mpr (.unknownTask known),
        standing_eq_iff_reply.mpr (.unknownTask known)]
      exact .unknownTask task
  | some policy =>
      have joint :=
        jointStanding_moved contest.pool policy startMoves nowMoves pastMoves onTaskMoves
      generalize answered :
        jointStanding contest.pool policy start
          (Play.instants (pastPlays plays now))
          (Play.instants (Play.onTask task (pastPlays plays now))) now = result at joint
      generalize otherAnswered :
        jointStanding contest.pool policy movedStart
          (Play.instants (pastPlays others movedNow))
          (Play.instants (Play.onTask task (pastPlays others movedNow))) movedNow =
            otherResult at joint
      cases joint with
      | firstOutOfRange =>
          exact .outOfRange (.inl (standing_eq_iff_reply.mpr (.atFault known started answered)))
      | secondOutOfRange =>
          exact .outOfRange
            (.inr (standing_eq_iff_reply.mpr (.atFault known otherStarted otherAnswered)))
      | faults moves =>
          rw [standing_eq_iff_reply.mpr (.atFault known started answered),
            standing_eq_iff_reply.mpr (.atFault known otherStarted otherAnswered)]
          exact .faults moves
      | values moves =>
          rw [standing_eq_iff_reply.mpr (.pooled known started answered),
            standing_eq_iff_reply.mpr (.pooled known otherStarted otherAnswered)]
          exact .standings moves

end

/--
With personal windows all participants are treated alike.  Where two participants
start at different instants, and the plays and the query of the second are those of
the first moved by the time between the starts, the answers differ by that time only.
-/
theorem standing_of_personal_start
    {contest : Contest}
    {participation other : Participation}
    {task : String}
    {start otherStart now otherNow : Instant}
    {plays movedPlays otherPlays : List Play}
    (personal : contest.schedule.personalTime.isSome = true)
    (starts : participation.startingTime = some start)
    (otherStarts : other.startingTime = some otherStart)
    (startPlain : start.isLeap = false)
    (otherStartPlain : otherStart.isLeap = false)
    (nowMoves : now.MovedBy (start.elapsed otherStart) otherNow)
    (playsMove : List.Forall₂ (Play.MovedBy (start.elapsed otherStart)) plays movedPlays)
    (reordered : movedPlays.Perm otherPlays) :
    AnswersAlike (start.elapsed otherStart)
      (contest.standing participation task plays now)
      (contest.standing other task otherPlays otherNow) := by
  have ownStart (anyone : Participation) :
      contest.schedule.tokenStart? anyone = anyone.startingTime := by
    obtain ⟨window, isWindow⟩ := Option.isSome_iff_exists.mp personal
    rw [Schedule.tokenStart?, isWindow]
  apply answersAlike_of_moved nowMoves playsMove reordered
  case started =>
    rw [ownStart, starts]
  case otherStarted =>
    rw [ownStart, otherStarts]
  case startMoves =>
    exact .of_elapsed startPlain otherStartPlain

/-- A contest with personal windows; its pool gains a token every ten seconds and has a cooldown. -/
def personalWindows : Contest :=
  (Contest.new
    { contestStart := .onDayZero 0
      personalTime := some (.ofSeconds 3600) }
    { Policy.disabled with
      initial := some 3
      cap := some 4
      cooldown := .ofSeconds 20
      period := .ofSeconds 10
      perPeriod := 1 }).addTask "sum" .infinite

/-- Bob starts ten minutes after Ann, does the same later, and is told the same later. -/
theorem standing_of_personal_start_tenMinutes :
    personalWindows.standing (startingAt "ann" 5) "sum"
          [.onDayZero "ann" "sum" "first" 18, .onDayZero "ann" "graph" "second" 28]
          (.onDayZero 31) =
        .ok
          { count := .finite 3
            nextGrowth := some (.onDayZero 35)
            cooldownEnd := some (.onDayZero 48) } ∧
      personalWindows.standing (startingAt "bob" 605) "sum"
          [.onDayZero "bob" "graph" "second" 628, .onDayZero "bob" "sum" "first" 618]
          (.onDayZero 631) =
        .ok
          { count := .finite 3
            nextGrowth := some (.onDayZero 635)
            cooldownEnd := some (.onDayZero 648) } ∧
      AnswersAlike ((Instant.onDayZero 5).elapsed (.onDayZero 605))
        (personalWindows.standing (startingAt "ann" 5) "sum"
          [.onDayZero "ann" "sum" "first" 18, .onDayZero "ann" "graph" "second" 28]
          (.onDayZero 31))
        (personalWindows.standing (startingAt "bob" 605) "sum"
          [.onDayZero "bob" "graph" "second" 628, .onDayZero "bob" "sum" "first" 618]
          (.onDayZero 631)) := by
  have later (second : Nat) (inRange : second = 18 ∨ second = 28 ∨ second = 31) :
      (Instant.onDayZero second).MovedBy ((Instant.onDayZero 5).elapsed (.onDayZero 605))
        (.onDayZero (600 + second)) := by
    rcases inRange with rfl | rfl | rfl <;> exact ⟨by decide, by decide +kernel⟩
  have alike :=
    @standing_of_personal_start personalWindows (startingAt "ann" 5) (startingAt "bob" 605) "sum"
      (.onDayZero 5) (.onDayZero 605) (.onDayZero 31) (.onDayZero 631)
      [.onDayZero "ann" "sum" "first" 18, .onDayZero "ann" "graph" "second" 28]
      [.onDayZero "bob" "sum" "first" 618, .onDayZero "bob" "graph" "second" 628]
      [.onDayZero "bob" "graph" "second" 628, .onDayZero "bob" "sum" "first" 618]
      rfl rfl rfl (by decide) (by decide) (later 31 (by decide))
      (.cons ⟨rfl, later 18 (by decide)⟩ (.cons ⟨rfl, later 28 (by decide)⟩ .nil))
      (.swap _ _ _)
  refine ⟨?_, ?_, alike⟩
  · refine standing_eq_ok_iff.mpr ⟨.infinite, rfl, .inr ⟨.onDayZero 5, rfl, ?_⟩⟩
    rw [pastPlays_eq_self (by decide) (by decide)]
    decide +kernel
  · rw [standing_of_perm _ _ _ _ (.swap _ _ _)]
    refine standing_eq_ok_iff.mpr ⟨.infinite, rfl, .inr ⟨.onDayZero 605, rfl, ?_⟩⟩
    rw [pastPlays_eq_self (by decide) (by decide)]
    decide +kernel

end Contest

end TokenBudget
