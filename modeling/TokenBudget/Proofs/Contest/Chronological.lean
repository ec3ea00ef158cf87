import TokenBudget.Proofs.Contest.Requests
import TokenBudget.Proofs.Pool.Spending

namespace TokenBudget

/-!
# Play in order of time

`Contest.Respects` says that plays keep the rules of the contest pool and of the
pool of every task.  A participant whose requests come in order of time keeps
them, whatever the others do: `Ledger.respects_of_chronological`.

A request is checked against the plays up to its instant, sorted.  In order of
time these are all the plays recorded, so a request that is let through passes
both pools on the whole history, and `Policy.Observed.play` takes over.
-/

namespace Contest

/-- Plays of a participation that keep the rules of the contest pool and of every task pool. -/
structure Respects
    (contest : Contest)
    (participation : Participation)
    (plays : List Play) :
    Prop where
  /-- Nobody plays before their window opens. -/
  unstarted :
    contest.schedule.tokenStart? participation = none →
    plays = []
  /-- All plays together keep the rules of the contest pool. -/
  pool :
    ∀ start,
      contest.schedule.tokenStart? participation = some start →
      contest.pool.Observed start (Play.instants plays)
  /-- The plays on a task keep the rules of its pool. -/
  tasks :
    ∀ start,
      contest.schedule.tokenStart? participation = some start →
      ∀ task policy,
        contest.tasks.find? task = some policy →
        policy.Observed start (Play.instants (Play.onTask task plays))

theorem Respects.nil
    (contest : Contest)
    (participation : Participation) :
    contest.Respects participation [] where
  unstarted _ := rfl
  pool start _ := .nil contest.pool start
  tasks start _ _ policy _ := .nil policy start

end Contest

/-- A participant's requests all carry one participation, and come in order of time outside leap seconds. -/
structure Chronological
    (requests : List Request)
    (participation : Participation) :
    Prop where
  steady :
    ∀ request ∈ requests,
      request.participation.name = participation.name →
      request.participation = participation
  plain :
    ∀ request ∈ requests,
      request.participation.name = participation.name →
      request.now.isLeap = false
  forwards :
    requests.Pairwise fun earlier later =>
      earlier.participation.name = participation.name →
      later.participation.name = participation.name →
      earlier.now ≤ later.now

namespace Chronological

variable
    {requests : List Request}
    {request : Request}
    {participation : Participation}

theorem before_last
    (chronological : Chronological (requests ++ [request]) participation) :
    Chronological requests participation where
  steady earlier member :=
    chronological.steady earlier (by simp [member])
  plain earlier member :=
    chronological.plain earlier (by simp [member])
  forwards :=
    (List.pairwise_append.mp chronological.forwards).1

/-- The participant's last request comes no earlier than those before it. -/
theorem le_last
    (chronological : Chronological (requests ++ [request]) participation)
    (own : request.participation.name = participation.name)
    {earlier : Request}
    (member : earlier ∈ requests)
    (earlierOwn : earlier.participation.name = participation.name) :
    earlier.now ≤ request.now :=
  (List.pairwise_append.mp chronological.forwards).2.2 earlier member request (by simp)
    earlierOwn own

end Chronological

/-- Plays outside leap seconds, in order of time, up to an instant. -/
structure PlayedUntil
    (now : Instant)
    (plays : List Play) :
    Prop where
  plain : ∀ play ∈ plays, play.instant.isLeap = false
  sorted : plays.Pairwise fun earlier later => earlier.instant ≤ later.instant
  past : ∀ play ∈ plays, play.instant ≤ now

namespace PlayedUntil

/-- A play at the end, up to which the others were played, keeps the order. -/
theorem concat
    {plays : List Play}
    {play : Play}
    {now : Instant}
    (played : PlayedUntil play.instant plays)
    (playPlain : play.instant.isLeap = false)
    (ordered : play.instant ≤ now) :
    PlayedUntil now (plays ++ [play]) where
  plain other member := by
    rcases List.mem_append.mp member with before | isLast
    · exact played.plain other before
    · rw [List.mem_singleton.mp isLast]
      exact playPlain
  sorted := by
    rw [List.pairwise_append]
    refine ⟨played.sorted, List.pairwise_singleton _ _, ?_⟩
    intro earlier member last isLast
    rw [List.mem_singleton.mp isLast]
    exact played.past earlier member
  past other member := by
    rcases List.mem_append.mp member with before | isLast
    · exact le_trans (played.past other before) ordered
    · rw [List.mem_singleton.mp isLast]
      exact ordered

theorem instants_plain
    {plays : List Play}
    {now : Instant}
    (played : PlayedUntil now plays) :
    ∀ instant ∈ Play.instants plays, instant.isLeap = false := by
  intro instant member
  obtain ⟨play, recorded, rfl⟩ := List.mem_map.mp member
  exact played.plain play recorded

theorem onTask
    {plays : List Play}
    {now : Instant}
    (played : PlayedUntil now plays)
    (task : String) :
    PlayedUntil now (Play.onTask task plays) where
  plain play member :=
    played.plain play (List.mem_filter.mp member).1
  sorted :=
    played.sorted.filter _
  past play member :=
    played.past play (List.mem_filter.mp member).1

end PlayedUntil

namespace Ledger

section

variable
    {contest : Contest}
    {ledger : Ledger}
    {request : Request}
    {policy : Policy}
    {start : Instant}
    {standing : Standing}

/-- A play that is let through in order of time keeps the rules of the contest. -/
theorem Grants.respects
    (granted : ledger.Grants contest request policy start standing)
    (respects :
      contest.Respects request.participation
        (ledger.playsOf request.participation.name))
    (played : PlayedUntil request.now (ledger.playsOf request.participation.name))
    (startPlain : start.isLeap = false)
    (nowPlain : request.now.isLeap = false) :
    contest.Respects request.participation
      (ledger.playsOf request.participation.name ++ [request.play]) := by
  obtain ⟨contestStanding, taskStanding, ⟨contestAnswered, contestCanPlay⟩,
    taskAnswered, taskCanPlay⟩ := granted.standings
  rw [Contest.pastPlays_eq_self played.sorted played.past] at contestAnswered taskAnswered
  refine ⟨?_, ?_, ?_⟩
  · intro unstarted
    rw [granted.started] at unstarted
    contradiction
  · intro contestStart started
    cases granted.started.symm.trans started
    rw [Play.instants_concat]
    exact (respects.pool start started).play startPlain nowPlain
      played.instants_plain contestAnswered contestCanPlay
  · intro taskStart started task taskPolicy known
    cases granted.started.symm.trans started
    have before := respects.tasks start started task taskPolicy known
    rw [Play.onTask_concat]
    by_cases own : request.play.task = task
    · rw [if_pos own, Play.instants_concat]
      cases own
      cases granted.known.symm.trans known
      exact before.play startPlain nowPlain (played.onTask _).instants_plain
        taskAnswered taskCanPlay
    · rw [if_neg own]
      exact before

end

/-- After requests in order of time a participant's plays are in order up to the last of them. -/
theorem playedUntil_of_chronological
    {contest : Contest}
    {requests : List Request}
    {participation : Participation}
    {now : Instant}
    (chronological : Chronological requests participation)
    (late :
      ∀ request ∈ requests,
        request.participation.name = participation.name →
        request.now ≤ now) :
    PlayedUntil now ((empty.serve contest requests).playsOf participation.name) := by
  induction requests using List.reverseRecOn generalizing now with
  | nil =>
      exact ⟨by simp [serve], by simp [serve], by simp [serve]⟩
  | append_singleton requests request inductionHypothesis =>
      rw [serve_concat]
      rcases playsOf_afterRequest_cases contest (empty.serve contest requests) request
          participation.name with
        ⟨own, recorded, -⟩ | unchanged
      · have before :=
          inductionHypothesis chronological.before_last fun earlier member earlierOwn =>
            chronological.le_last own member earlierOwn
        rw [recorded]
        exact before.concat (chronological.plain request (by simp) own)
          (late request (by simp) own)
      · rw [unchanged]
        exact inductionHypothesis chronological.before_last fun earlier member =>
          late earlier (by simp [member])

/--
A participant who asks in order of time, outside leap seconds and with one
participation, keeps the rules of the contest pool and of every task pool,
whatever requests the other participants put in between.
-/
theorem respects_of_chronological
    {contest : Contest}
    {requests : List Request}
    {participation : Participation}
    (startPlain :
      ∀ start,
        contest.schedule.tokenStart? participation = some start →
        start.isLeap = false)
    (chronological : Chronological requests participation) :
    contest.Respects participation
      ((empty.serve contest requests).playsOf participation.name) := by
  induction requests using List.reverseRecOn with
  | nil =>
      exact .nil contest participation
  | append_singleton requests request inductionHypothesis =>
      have respects := inductionHypothesis chronological.before_last
      rw [serve_concat]
      rcases playsOf_afterRequest_cases contest (empty.serve contest requests) request
          participation.name with
        ⟨own, recorded, policy, start, standing, granted⟩ | unchanged
      · have played :
            PlayedUntil request.now
              ((empty.serve contest requests).playsOf participation.name) :=
          playedUntil_of_chronological chronological.before_last
            fun earlier member earlierOwn => chronological.le_last own member earlierOwn
        have nowPlain := chronological.plain request (by simp) own
        have steady := chronological.steady request (by simp) own
        rw [recorded]
        subst steady
        exact granted.respects respects played (startPlain start granted.started) nowPlain
      · rw [unchanged]
        exact respects

/-- A contest with a pool for all plays, a task with a cooldown and a task without limits. -/
def twoTasks : Contest :=
  ((Contest.new
      { contestStart := .onDayZero 0
        personalTime := none }
      { initial := some 2
        cap := some 3
        lifetime := some 4
        cooldown := .zero
        period := .ofSeconds 60
        perPeriod := 1 }).addTask "sum"
      { initial := some 1
        cap := none
        lifetime := none
        cooldown := .ofSeconds 30
        period := .ofSeconds 20
        perPeriod := 1 }).addTask "sort" .infinite

/-- Requests of two participants, the second of whom goes back in time. -/
def mixedRequests : List Request :=
  [⟨enrolled "ann", "sum", "first", .onDayZero 10⟩,
    ⟨enrolled "bob", "sum", "early", .onDayZero 9⟩,
    ⟨enrolled "ann", "sum", "cooling", .onDayZero 20⟩,
    ⟨enrolled "ann", "sort", "second", .onDayZero 20⟩,
    ⟨enrolled "bob", "sort", "earlier", .onDayZero 5⟩]

/-- One request is turned down for its cooldown, and the plays on two tasks keep the rules. -/
theorem respects_of_chronological_mixedRequests :
    Chronological mixedRequests (enrolled "ann") ∧
      ((empty.serve twoTasks mixedRequests).playsOf "ann").map Play.submission =
        ["first", "second"] ∧
      twoTasks.Respects (enrolled "ann")
        ((empty.serve twoTasks mixedRequests).playsOf "ann") := by
  have chronological : Chronological mixedRequests (enrolled "ann") :=
    ⟨by decide, by decide, by decide⟩
  refine ⟨chronological, by decide +kernel, respects_of_chronological ?_ chronological⟩
  intro start started
  cases started
  decide

end Ledger

end TokenBudget
