import TokenBudget.Contest.Rejection
import TokenBudget.Contest.Schedule
import TokenBudget.Pool.Replay
import TokenBudget.Register

namespace TokenBudget

/-!
# The rules of a contest

A contest has a schedule, a pool for the whole contest, a pool for each task, and
the participations known to it.  `Contest.standing` answers how many tokens a
participation has on a task at an instant, given its plays: every play counts
against the contest pool, and plays on the task also against the task's pool.
Plays after the instant do not count, and the order of the plays does not matter.
-/

/-- One token spent on a submission. -/
structure Play where
  participant : String
  task : String
  submission : String
  instant : Instant
  deriving Repr, DecidableEq

/-- The rules of a contest and who takes part. -/
structure Contest where
  schedule : Schedule
  pool : Policy
  tasks : Register Policy
  participations : Register Participation
  deriving Repr, DecidableEq

namespace Contest

/-- A contest with a schedule and a contest pool, before tasks and participants are added. -/
def new
    (schedule : Schedule)
    (pool : Policy) :
    Contest where
  schedule := schedule
  pool := pool
  tasks := .empty
  participations := .empty

/-- Add a task with its pool; a task of that name is replaced. -/
def addTask
    (contest : Contest)
    (name : String)
    (policy : Policy) :
    Contest :=
  { contest with tasks := contest.tasks.insert name policy }

/-- Add a participation; one of that name is replaced. -/
def addParticipation
    (contest : Contest)
    (participation : Participation) :
    Contest :=
  { contest with
    participations := contest.participations.insert participation.name participation }

/-- The pool of a task. -/
def taskPolicy
    (contest : Contest)
    (task : String) :
    Except Rejection Policy :=
  match contest.tasks.find? task with
  | some policy => .ok policy
  | none => .error (.unknownTask task)

/-- The participation of a name. -/
def participation
    (contest : Contest)
    (name : String) :
    Except Rejection Participation :=
  match contest.participations.find? name with
  | some participation => .ok participation
  | none => .error (.unknownParticipation name)

/-- The task names in the order of their code points. -/
def taskNames (contest : Contest) : List String :=
  contest.tasks.sortedNames

/-- The plays up to an instant, in order of time. -/
def pastPlays
    (plays : List Play)
    (now : Instant) :
    List Play :=
  (plays.filter fun play => decide (play.instant ≤ now)).mergeSort
    fun first second => decide (first.instant ≤ second.instant)

/-- Tokens that a participation with these plays has on a task at an instant. -/
def standing
    (contest : Contest)
    (participation : Participation)
    (task : String)
    (plays : List Play)
    (now : Instant) :
    Except Rejection Standing := do
  let policy ← contest.taskPolicy task
  match contest.schedule.tokenStart? participation with
  | none => return .nothing
  | some start =>
      let past := pastPlays plays now
      let onTask := past.filter fun play => play.task = task
      match jointStanding contest.pool policy start
          (past.map Play.instant) (onTask.map Play.instant) now with
      | .ok standing => return standing
      | .error fault => throw (.unanswerable fault)

end Contest

end TokenBudget
