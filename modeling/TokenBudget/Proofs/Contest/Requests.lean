import TokenBudget.Contest.Ledger
import TokenBudget.Proofs.Pool.Answer
import TokenBudget.Proofs.Pool.Counts
import TokenBudget.Proofs.Sorting

namespace TokenBudget

/-!
# Serving requests

A ledger serves requests one after the other.  `Ledger.Grants` lists all that
holds when a request is let through; its play is then put at the end of its
participant's plays, and a request that is turned down changes no plays.
-/

/-- A participant's request to play a token on a submission. -/
structure Request where
  participation : Participation
  task : String
  submission : String
  now : Instant
  deriving Repr, DecidableEq

/-- A participation under a name, without a window of its own. -/
def enrolled (name : String) : Participation where
  name
  startingTime := none

/-- A participation with a window that opens at a second of day zero. -/
def startingAt
    (name : String)
    (second : Nat) :
    Participation where
  name
  startingTime := some (.onDayZero second)

/-- A play at a second of day zero. -/
def Play.onDayZero
    (participant task submission : String)
    (second : Nat) :
    Play where
  participant
  task
  submission
  instant := .onDayZero second

namespace Request

/-- The play that a request asks for. -/
def play (request : Request) : Play where
  participant := request.participation.name
  task := request.task
  submission := request.submission
  instant := request.now

end Request

namespace Play

/-- The instants of plays. -/
def instants (plays : List Play) : List Instant :=
  plays.map instant

/-- The plays on a task. -/
def onTask
    (task : String)
    (plays : List Play) :
    List Play :=
  plays.filter fun play => play.task = task

@[simp]
theorem instants_concat
    (plays : List Play)
    (play : Play) :
    instants (plays ++ [play]) = instants plays ++ [play.instant] := by
  simp [instants]

/-- A further play counts on its own task only. -/
theorem onTask_concat
    (task : String)
    (plays : List Play)
    (play : Play) :
    onTask task (plays ++ [play]) =
      if play.task = task then onTask task plays ++ [play] else onTask task plays := by
  by_cases own : play.task = task
  · simp [onTask, own]
  · simp [onTask, own]

theorem instants_onTask_sublist
    (task : String)
    (plays : List Play) :
    (instants (onTask task plays)).Sublist (instants plays) :=
  List.filter_sublist.map _

end Play

namespace Contest

/-- Past plays are the plays up to an instant. -/
theorem mem_pastPlays
    {plays : List Play}
    {now : Instant}
    {play : Play} :
    play ∈ pastPlays plays now ↔ play ∈ plays ∧ play.instant ≤ now := by
  simp [pastPlays]

theorem sorted_pastPlays
    (plays : List Play)
    (now : Instant) :
    (pastPlays plays now).Pairwise fun earlier later => earlier.instant ≤ later.instant :=
  pairwise_sortedByKey Play.instant _

/-- Past plays are in order from the first instant on. -/
theorem orderly_pastPlays
    (plays : List Play)
    (now : Instant) :
    Orderly .earliest now (Play.instants (pastPlays plays now)) where
  started :=
    Instant.earliest_le now
  sorted := by
    rw [Play.instants, List.pairwise_map]
    exact sorted_pastPlays plays now
  within played member := by
    obtain ⟨play, past, rfl⟩ := List.mem_map.mp member
    exact ⟨Instant.earliest_le _, (mem_pastPlays.mp past).2⟩

/-- Plays in order of time up to an instant are all past, in the same order. -/
theorem pastPlays_eq_self
    {plays : List Play}
    {now : Instant}
    (sorted : plays.Pairwise fun earlier later => earlier.instant ≤ later.instant)
    (past : ∀ play ∈ plays, play.instant ≤ now) :
    pastPlays plays now = plays := by
  have all : (plays.filter fun play => decide (play.instant ≤ now)) = plays :=
    List.filter_eq_self.mpr (fun play member => decide_eq_true (past play member))
  rw [pastPlays, all]
  apply List.mergeSort_of_pairwise
  exact sorted.imp decide_eq_true

theorem length_pastPlays
    (plays : List Play)
    (now : Instant) :
    (pastPlays plays now).length =
      plays.countP fun play => decide (play.instant ≤ now) := by
  rw [pastPlays, List.length_mergeSort, List.countP_eq_length_filter]

/-- As many plays on a task are past as have their instant up to now. -/
theorem length_onTask_pastPlays
    (task : String)
    (plays : List Play)
    (now : Instant) :
    (Play.onTask task (pastPlays plays now)).length =
      (Play.onTask task plays).countP fun play => decide (play.instant ≤ now) := by
  have sameplays :
      (pastPlays plays now).Perm (plays.filter fun play => decide (play.instant ≤ now)) :=
    List.mergeSort_perm _ _
  rw [Play.onTask, (sameplays.filter _).length_eq, Play.onTask, List.countP_eq_length_filter,
    List.filter_filter, List.filter_filter]
  simp only [Bool.and_comm]

/-- The ways in which a contest replies to a query. -/
inductive Reply
    (contest : Contest)
    (participation : Participation)
    (task : String)
    (plays : List Play)
    (now : Instant) :
    Except Rejection Standing → Prop where
  /-- The contest has no such task. -/
  | unknownTask
      (unknown : contest.tasks.find? task = none) :
      Reply contest participation task plays now (.error (.unknownTask task))
  /-- The window of the participation has not opened. -/
  | unstarted
      {policy : Policy}
      (known : contest.tasks.find? task = some policy)
      (unstarted : contest.schedule.tokenStart? participation = none) :
      Reply contest participation task plays now (.ok .nothing)
  /-- The pools have a standing. -/
  | pooled
      {policy : Policy}
      {start : Instant}
      {standing : Standing}
      (known : contest.tasks.find? task = some policy)
      (started : contest.schedule.tokenStart? participation = some start)
      (joint :
        jointStanding contest.pool policy start
            (Play.instants (pastPlays plays now))
            (Play.instants (Play.onTask task (pastPlays plays now))) now =
          .ok standing) :
      Reply contest participation task plays now (.ok standing)
  /-- The pools are at fault. -/
  | atFault
      {policy : Policy}
      {start : Instant}
      {fault : Fault}
      (known : contest.tasks.find? task = some policy)
      (started : contest.schedule.tokenStart? participation = some start)
      (joint :
        jointStanding contest.pool policy start
            (Play.instants (pastPlays plays now))
            (Play.instants (Play.onTask task (pastPlays plays now))) now =
          .error fault) :
      Reply contest participation task plays now (.error (.unanswerable fault))

section

variable
    {contest : Contest}
    {participation : Participation}
    {task : String}
    {plays : List Play}
    {now : Instant}

theorem standing_eq_iff_reply
    {result : Except Rejection Standing} :
    contest.standing participation task plays now = result ↔
      contest.Reply participation task plays now result := by
  simp only [Contest.standing, taskPolicy, bind, Except.bind]
  constructor
  · rintro rfl
    cases known : contest.tasks.find? task with
    | none =>
        exact .unknownTask known
    | some policy =>
        cases started : contest.schedule.tokenStart? participation with
        | none =>
            exact .unstarted known started
        | some start =>
            dsimp only
            split
            · next joint => exact .pooled known started joint
            · next joint => exact .atFault known started joint
  · intro reply
    cases reply with
    | unknownTask unknown =>
        simp only [unknown]
    | unstarted known unstarted =>
        simp only [known, unstarted]
        rfl
    | pooled known started joint =>
        simp only [Play.instants, Play.onTask] at joint
        simp only [known, started, joint]
        rfl
    | atFault known started joint =>
        simp only [Play.instants, Play.onTask] at joint
        simp only [known, started, joint]
        rfl

/-- A contest answers on its own tasks: with nothing before a window opens, then by its pools. -/
theorem standing_eq_ok_iff
    {standing : Standing} :
    contest.standing participation task plays now = .ok standing ↔
      ∃ policy,
        contest.tasks.find? task = some policy ∧
          (contest.schedule.tokenStart? participation = none ∧ standing = .nothing ∨
            ∃ start,
              contest.schedule.tokenStart? participation = some start ∧
                jointStanding contest.pool policy start
                    (Play.instants (pastPlays plays now))
                    (Play.instants (Play.onTask task (pastPlays plays now))) now =
                  .ok standing) := by
  rw [standing_eq_iff_reply]
  constructor
  · intro reply
    cases reply with
    | unstarted known unstarted => exact ⟨_, known, .inl ⟨unstarted, rfl⟩⟩
    | pooled known started joint => exact ⟨_, known, .inr ⟨_, started, joint⟩⟩
  · rintro ⟨policy, known, ⟨unstarted, rfl⟩ | ⟨start, started, joint⟩⟩
    · exact .unstarted known unstarted
    · exact .pooled known started joint

/-- Once a participation has started, the pools answer for the contest. -/
theorem standing_eq_ok_iff_of_started
    {policy : Policy}
    {start : Instant}
    {standing : Standing}
    (known : contest.tasks.find? task = some policy)
    (started : contest.schedule.tokenStart? participation = some start) :
    contest.standing participation task plays now = .ok standing ↔
      jointStanding contest.pool policy start
          (Play.instants (pastPlays plays now))
          (Play.instants (Play.onTask task (pastPlays plays now))) now =
        .ok standing := by
  simp [standing_eq_ok_iff, known, started]

/-- A contest is at fault when its pools are. -/
theorem standing_eq_unanswerable_iff
    {fault : Fault} :
    contest.standing participation task plays now = .error (.unanswerable fault) ↔
      ∃ policy start,
        contest.tasks.find? task = some policy ∧
          contest.schedule.tokenStart? participation = some start ∧
          jointStanding contest.pool policy start
              (Play.instants (pastPlays plays now))
              (Play.instants (Play.onTask task (pastPlays plays now))) now =
            .error fault := by
  rw [standing_eq_iff_reply]
  constructor
  · intro reply
    cases reply with
    | atFault known started joint => exact ⟨_, _, known, started, joint⟩
  · rintro ⟨policy, start, known, started, joint⟩
    exact .atFault known started joint

/-- On its own tasks a contest has a standing, or the query is at fault. -/
theorem standing_cases
    {policy : Policy}
    (known : contest.tasks.find? task = some policy) :
    (∃ standing, contest.standing participation task plays now = .ok standing) ∨
      ∃ fault,
        contest.standing participation task plays now = .error (.unanswerable fault) := by
  have reply := standing_eq_iff_reply.mp (Eq.refl (contest.standing participation task plays now))
  generalize contest.standing participation task plays now = result at reply ⊢
  cases reply with
  | unknownTask unknown =>
      rw [unknown] at known
      contradiction
  | unstarted _ _ => exact .inl ⟨_, rfl⟩
  | pooled _ _ _ => exact .inl ⟨_, rfl⟩
  | atFault _ _ _ => exact .inr ⟨_, rfl⟩

/-- Only the gate calls a request unacceptable; a contest that does not answer gives another reason. -/
theorem standing_ne_unacceptable
    {standing : Standing} :
    contest.standing participation task plays now ≠ .error (.unacceptable standing) := by
  rw [Ne, standing_eq_iff_reply]
  exact fun reply => nomatch reply

end

end Contest

namespace Ledger

/-- All that holds when a request is let through. -/
structure Grants
    (ledger : Ledger)
    (contest : Contest)
    (request : Request)
    (policy : Policy)
    (start : Instant)
    (standing : Standing) :
    Prop where
  known : contest.tasks.find? request.task = some policy
  started : contest.schedule.tokenStart? request.participation = some start
  answered :
    jointStanding contest.pool policy start
        (Play.instants
          (Contest.pastPlays (ledger.playsOf request.participation.name) request.now))
        (Play.instants
          (Play.onTask request.task
            (Contest.pastPlays (ledger.playsOf request.participation.name) request.now)))
        request.now =
      .ok standing
  canPlay : standing.canPlay = true
  unplayed : ledger.hasToken request.participation.name request.submission = false

/-- A request that is let through is let through by both pools. -/
theorem Grants.standings
    {contest : Contest}
    {ledger : Ledger}
    {request : Request}
    {policy : Policy}
    {start : Instant}
    {standing : Standing}
    (granted : ledger.Grants contest request policy start standing) :
    ∃ contestStanding taskStanding,
      (contest.pool.standing start
            (Play.instants
              (Contest.pastPlays (ledger.playsOf request.participation.name) request.now))
            request.now =
          .ok contestStanding ∧
        contestStanding.canPlay = true) ∧
      (policy.standing start
            (Play.instants
              (Play.onTask request.task
                (Contest.pastPlays (ledger.playsOf request.participation.name)
                  request.now)))
            request.now =
          .ok taskStanding ∧
        taskStanding.canPlay = true) := by
  obtain ⟨contestStanding, taskStanding, contestAnswered, taskAnswered, shape⟩ :=
    jointStanding_eq_ok_iff.mp granted.answered
  have canPlay := granted.canPlay
  rw [shape] at canPlay
  obtain ⟨contestCanPlay, taskCanPlay⟩ := Standing.canPlay_meet_iff.mp canPlay
  exact ⟨contestStanding, taskStanding, ⟨contestAnswered, contestCanPlay⟩,
    ⟨taskAnswered, taskCanPlay⟩⟩

/-- The ledger after a request. -/
def afterRequest
    (contest : Contest)
    (ledger : Ledger)
    (request : Request) :
    Ledger :=
  (ledger.accept contest request.participation request.task request.submission
    request.now).2

/-- The ledger after requests, served one after the other. -/
def serve
    (contest : Contest)
    (ledger : Ledger)
    (requests : List Request) :
    Ledger :=
  requests.foldl (afterRequest contest) ledger

theorem serve_concat
    (contest : Contest)
    (ledger : Ledger)
    (requests : List Request)
    (request : Request) :
    ledger.serve contest (requests ++ [request]) =
      (ledger.serve contest requests).afterRequest contest request := by
  rw [serve, List.foldl_append]
  rfl

/-- Only a participation that has started can play, and only on a task of the contest. -/
theorem exists_jointStanding_of_canPlay
    {contest : Contest}
    {participation : Participation}
    {task : String}
    {plays : List Play}
    {now : Instant}
    {standing : Standing}
    (answered : contest.standing participation task plays now = .ok standing)
    (canPlay : standing.canPlay = true) :
    ∃ policy start,
      contest.tasks.find? task = some policy ∧
        contest.schedule.tokenStart? participation = some start ∧
        jointStanding contest.pool policy start
            (Play.instants (Contest.pastPlays plays now))
            (Play.instants (Play.onTask task (Contest.pastPlays plays now))) now =
          .ok standing := by
  obtain ⟨policy, known, ⟨-, rfl⟩ | ⟨start, started, joint⟩⟩ :=
    Contest.standing_eq_ok_iff.mp answered
  · contradiction
  · exact ⟨policy, start, known, started, joint⟩

/-- The play of a request that is let through is recorded. -/
theorem Grants.recorded
    {contest : Contest}
    {ledger : Ledger}
    {request : Request}
    {policy : Policy}
    {start : Instant}
    {standing : Standing}
    (granted : ledger.Grants contest request policy start standing) :
    ledger.afterRequest contest request = ledger.record request.play := by
  have answered :
      contest.standing request.participation request.task
          (ledger.playsOf request.participation.name) request.now =
        .ok standing :=
    (Contest.standing_eq_ok_iff_of_started granted.known granted.started).mpr granted.answered
  have permitted :
      standing.permit request.submission
          (ledger.hasToken request.participation.name request.submission) =
        .ok () := by
    simp [Standing.permit, granted.canPlay, granted.unplayed]
  simp only [afterRequest, accept, review, Ledger.standing, answered, permitted, bind,
    Except.bind]
  rfl

/-- The ways in which the review of a request ends. -/
inductive Verdict
    (ledger : Ledger)
    (contest : Contest)
    (request : Request) :
    Except Rejection Play → Prop where
  /-- The contest does not answer. -/
  | unanswered
      {rejection : Rejection}
      (failed :
        ledger.standing contest request.participation request.task request.now =
          .error rejection) :
      Verdict ledger contest request (.error rejection)
  /-- There is no token, or a cooldown runs. -/
  | unacceptable
      {standing : Standing}
      (answered :
        ledger.standing contest request.participation request.task request.now =
          .ok standing)
      (refused : standing.canPlay = false) :
      Verdict ledger contest request (.error (.unacceptable standing))
  /-- The submission has its token. -/
  | alreadyPlayed
      {standing : Standing}
      (answered :
        ledger.standing contest request.participation request.task request.now =
          .ok standing)
      (canPlay : standing.canPlay = true)
      (played : ledger.hasToken request.participation.name request.submission = true) :
      Verdict ledger contest request (.error (.alreadyPlayed request.submission))
  /-- The play is granted. -/
  | granted
      {standing : Standing}
      (answered :
        ledger.standing contest request.participation request.task request.now =
          .ok standing)
      (canPlay : standing.canPlay = true)
      (unplayed : ledger.hasToken request.participation.name request.submission = false) :
      Verdict ledger contest request (.ok request.play)

theorem verdict_review
    (ledger : Ledger)
    (contest : Contest)
    (request : Request) :
    ledger.Verdict contest request
      (ledger.review contest request.participation request.task request.submission
        request.now) := by
  simp only [review, bind, Except.bind]
  split
  · next rejection failed =>
      exact .unanswered failed
  · next standing answered =>
      cases canPlay : standing.canPlay with
      | false =>
          simp only [Standing.permit, canPlay, Bool.not_false, if_true]
          exact .unacceptable answered canPlay
      | true =>
          cases played : ledger.hasToken request.participation.name request.submission with
          | true =>
              simp only [Standing.permit, canPlay, Bool.not_true, Bool.false_eq_true, if_false,
                if_true]
              exact .alreadyPlayed answered canPlay played
          | false =>
              simp only [Standing.permit, canPlay, Bool.not_true, Bool.false_eq_true, if_false]
              exact .granted answered canPlay played

/-- A request that is let through is recorded as it was made. -/
theorem accept_eq_ok
    {ledger recorded : Ledger}
    {contest : Contest}
    {participation : Participation}
    {task submission : String}
    {now : Instant}
    {play : Play}
    (granted :
      ledger.accept contest participation task submission now = (.ok play, recorded)) :
    play = { participant := participation.name, task, submission, instant := now } ∧
      recorded = ledger.record play := by
  have verdict := ledger.verdict_review contest ⟨participation, task, submission, now⟩
  rw [accept] at granted
  split at granted
  · next reviewed =>
      rw [reviewed] at verdict
      cases granted
      cases verdict
      exact ⟨rfl, rfl⟩
  · cases granted

/-- A request is answered by its review. -/
theorem fst_accept
    (ledger : Ledger)
    (contest : Contest)
    (participation : Participation)
    (task submission : String)
    (now : Instant) :
    (ledger.accept contest participation task submission now).1 =
      ledger.review contest participation task submission now := by
  rw [accept]
  split
  · next play reviewed =>
      exact reviewed.symm
  · next rejection reviewed =>
      exact reviewed.symm

/-- A request is let through, and its play recorded, or turned down without a change of plays. -/
theorem afterRequest_cases
    (contest : Contest)
    (ledger : Ledger)
    (request : Request) :
    (∃ policy start standing,
        ledger.Grants contest request policy start standing ∧
          ledger.afterRequest contest request = ledger.record request.play) ∨
      ledger.afterRequest contest request = ledger.openAccount request.participation.name := by
  have verdict := ledger.verdict_review contest request
  simp only [afterRequest, accept]
  split
  · next play reviewed =>
      left
      rw [reviewed] at verdict
      cases verdict with
      | granted answered canPlay unplayed =>
          obtain ⟨policy, start, known, started, joint⟩ :=
            exists_jointStanding_of_canPlay answered canPlay
          exact ⟨policy, start, _, ⟨known, started, joint, canPlay, unplayed⟩, rfl⟩
  · exact .inr rfl

/--
After a request a participant has the plays from before, or it was theirs, it was
let through, and its play comes last.
-/
theorem playsOf_afterRequest_cases
    (contest : Contest)
    (ledger : Ledger)
    (request : Request)
    (participant : String) :
    (request.participation.name = participant ∧
        (ledger.afterRequest contest request).playsOf participant =
          ledger.playsOf participant ++ [request.play] ∧
        ∃ policy start standing,
          ledger.Grants contest request policy start standing) ∨
      (ledger.afterRequest contest request).playsOf participant =
        ledger.playsOf participant := by
  rcases afterRequest_cases contest ledger request with
    ⟨policy, start, standing, granted, recorded⟩ | unchanged
  · rw [recorded, playsOf_record]
    by_cases own : participant = request.participation.name
    · exact .inl ⟨own.symm, if_pos own, policy, start, standing, granted⟩
    · exact .inr (if_neg own)
  · rw [unchanged, playsOf_openAccount]
    exact .inr rfl

end Ledger

end TokenBudget
