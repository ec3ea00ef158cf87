import TokenBudget.Proofs.Contest.Lifetimes
import TokenBudget.Proofs.Pool.LifetimeOnly

namespace TokenBudget

/-!
# Plays that a lifetime does not keep out

`SeenWithin` is not only what a lifetime guarantees, it is all that it
guarantees: any plays of one participant on different submissions, each of which
sees fewer plays than the lifetime, are recorded by a run in which every pool has
that lifetime.  The requests of the run are those for the plays, in the same
order, and no request is turned down: `Ledger.exists_run_of_seenWithin`.
-/

namespace Contest

/-- A contest with further tasks, all with the same pool. -/
def addTasks
    (contest : Contest)
    (policy : Policy)
    (tasks : List String) :
    Contest :=
  tasks.foldl (fun contest task => contest.addTask task policy) contest

theorem find?_addTasks
    (contest : Contest)
    (policy : Policy)
    (tasks : List String)
    (task : String) :
    (contest.addTasks policy tasks).tasks.find? task =
      if task ∈ tasks then some policy else contest.tasks.find? task := by
  induction tasks generalizing contest with
  | nil =>
      simp [addTasks]
  | cons first rest inductionHypothesis =>
      have later := inductionHypothesis (contest.addTask first policy)
      rw [addTasks] at later ⊢
      rw [List.foldl_cons, later, addTask, Register.find?_insert]
      by_cases isFirst : task = first
      · simp [isFirst]
      · simp [isFirst]

/-- Further tasks change neither the schedule nor the contest pool. -/
theorem unchanged_addTasks
    (contest : Contest)
    (policy : Policy)
    (tasks : List String) :
    (contest.addTasks policy tasks).schedule = contest.schedule ∧
      (contest.addTasks policy tasks).pool = contest.pool := by
  induction tasks generalizing contest with
  | nil =>
      exact ⟨rfl, rfl⟩
  | cons first rest inductionHypothesis =>
      exact inductionHypothesis (contest.addTask first policy)

/-- A contest from the first instant on, in which every pool only has a lifetime. -/
def lifetimeOnly
    (lifetime : UInt32)
    (tasks : List String) :
    Contest :=
  (Contest.new
    { contestStart := .earliest
      personalTime := none }
    (.lifetimeOnly lifetime)).addTasks (.lifetimeOnly lifetime) tasks

section

variable
    (lifetime : UInt32)
    (tasks : List String)

@[simp]
theorem pool_lifetimeOnly :
    (lifetimeOnly lifetime tasks).pool = .lifetimeOnly lifetime :=
  (unchanged_addTasks _ _ _).2

@[simp]
theorem tokenStart?_lifetimeOnly (participation : Participation) :
    (lifetimeOnly lifetime tasks).schedule.tokenStart? participation =
      some .earliest := by
  rw [lifetimeOnly, (unchanged_addTasks _ _ _).1]
  rfl

/-- The tasks of such a contest are those it was given. -/
theorem find?_lifetimeOnly (task : String) :
    (lifetimeOnly lifetime tasks).tasks.find? task =
      if task ∈ tasks then some (.lifetimeOnly lifetime) else none :=
  find?_addTasks _ _ _ _

end

end Contest

namespace Play

/-- The request for a play by its participant. -/
def request (play : Play) : Request where
  participation := enrolled play.participant
  task := play.task
  submission := play.submission
  now := play.instant

end Play

namespace Ledger

/-- Pools that only have a lifetime let a play through that sees fewer plays. -/
theorem exists_grants
    {ledger : Ledger}
    {lifetime : UInt32}
    {tasks : List String}
    {play : Play}
    (known : play.task ∈ tasks)
    (seen :
      ((ledger.playsOf play.participant).countP
          fun other => decide (other.instant ≤ play.instant)) <
        lifetime.toNat)
    (unplayed : ledger.hasToken play.participant play.submission = false) :
    ∃ standing,
      ledger.Grants (.lifetimeOnly lifetime tasks) play.request (.lifetimeOnly lifetime)
        .earliest standing := by
  have orderly := Contest.orderly_pastPlays (ledger.playsOf play.participant) play.instant
  have isPart :
      (Play.instants
          (Play.onTask play.task
            (Contest.pastPlays (ledger.playsOf play.participant) play.instant))).Sublist
        (Play.instants
          (Contest.pastPlays (ledger.playsOf play.participant) play.instant)) :=
    Play.instants_onTask_sublist _ _
  have left :
      (Play.instants
          (Contest.pastPlays (ledger.playsOf play.participant) play.instant)).length <
        lifetime.toNat := by
    rw [Play.instants, List.length_map, Contest.length_pastPlays]
    exact seen
  obtain ⟨contestStanding, contestAnswered, contestCanPlay⟩ :=
    Policy.canPlay_lifetimeOnly orderly left
  obtain ⟨taskStanding, taskAnswered, taskCanPlay⟩ :=
    Policy.canPlay_lifetimeOnly (orderly.part isPart)
      (Nat.lt_of_le_of_lt isPart.length_le left)
  refine ⟨contestStanding.meet taskStanding, ?_, ?_, ?_, ?_, unplayed⟩
  · exact (Contest.find?_lifetimeOnly lifetime tasks play.task).trans (if_pos known)
  · exact Contest.tokenStart?_lifetimeOnly lifetime tasks _
  · rw [Contest.pool_lifetimeOnly]
    exact jointStanding_eq_ok_iff.mpr
      ⟨contestStanding, taskStanding, contestAnswered, taskAnswered, rfl⟩
  · exact Standing.canPlay_meet_iff.mpr ⟨contestCanPlay, taskCanPlay⟩

/-- The requests for plays that see fewer plays than the lifetime are all let through. -/
theorem playsOf_serve_requests
    {lifetime : UInt32}
    {tasks : List String}
    {participant : String}
    {plays : List Play}
    (own : ∀ play ∈ plays, play.participant = participant)
    (known : ∀ play ∈ plays, play.task ∈ tasks)
    (distinct : (plays.map Play.submission).Nodup)
    (seenWithin : SeenWithin lifetime.toNat plays) :
    (empty.serve (.lifetimeOnly lifetime tasks) (plays.map Play.request)).playsOf
        participant =
      plays := by
  induction plays using List.reverseRecOn with
  | nil =>
      rfl
  | append_singleton plays play inductionHypothesis =>
      obtain ⟨seenBefore, seen⟩ := atEach_concat.mp seenWithin
      rw [List.map_append, List.nodup_append] at distinct
      obtain ⟨distinctBefore, -, fresh⟩ := distinct
      have isOwn := own play (by simp)
      have before :=
        inductionHypothesis
          (fun other member => own other (by simp [member]))
          (fun other member => known other (by simp [member]))
          distinctBefore seenBefore
      rw [← isOwn] at before ⊢
      have unplayed :
          (empty.serve (.lifetimeOnly lifetime tasks) (plays.map Play.request)).hasToken
              play.participant play.submission =
            false := by
        rw [hasToken, before, List.any_eq_false]
        intro other member
        have different := fresh other.submission (List.mem_map_of_mem member)
          play.submission (by simp)
        simpa using different
      obtain ⟨standing, granted⟩ :=
        exists_grants (known play (by simp)) (before ▸ seen) unplayed
      rw [List.map_append, List.map_singleton, serve_concat, granted.recorded,
        playsOf_record]
      exact (if_pos rfl).trans (congrArg (· ++ [play]) before)

/--
All plays of one participant, on different submissions, in which each sees fewer
plays than a lifetime are recorded by some run under pools with that lifetime.
-/
theorem exists_run_of_seenWithin
    {lifetime : UInt32}
    {participant : String}
    {plays : List Play}
    (own : ∀ play ∈ plays, play.participant = participant)
    (distinct : (plays.map Play.submission).Nodup)
    (seenWithin : SeenWithin lifetime.toNat plays) :
    ∃ contest requests,
      contest.pool = .lifetimeOnly lifetime ∧
        (∀ task policy,
          contest.tasks.find? task = some policy →
          policy = .lifetimeOnly lifetime) ∧
        (empty.serve contest requests).playsOf participant = plays := by
  refine ⟨.lifetimeOnly lifetime (plays.map Play.task), plays.map Play.request,
    Contest.pool_lifetimeOnly lifetime _, ?_, ?_⟩
  · intro task policy known
    rw [Contest.find?_lifetimeOnly] at known
    split at known
    · exact (Option.some.inj known).symm
    · contradiction
  · exact playsOf_serve_requests own (fun play member => List.mem_map_of_mem member) distinct
      seenWithin

end Ledger

end TokenBudget
