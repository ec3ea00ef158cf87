import Mathlib.Data.List.Induction
import TokenBudget.Proofs.Contest.PastPlays
import TokenBudget.Proofs.Pool.Faults

namespace TokenBudget

/-!
# Faults of a ledger's queries

A ledger asks its pools about sorted plays up to the query, so no query is at
fault for the order of its plays or for a later play.  Nor is one at fault for a
play before the start: a play is recorded only when both pools are open and the
start has come, `Ledger.playedSinceStart_serve`.  There remain queries before the
start, and those whose answer would name an instant out of range:
`Ledger.fault_early_or_outOfRange`.
-/

namespace Contest

/-- All plays lie at or after the instant from which a participation accrues tokens. -/
def PlayedSinceStart
    (contest : Contest)
    (participation : Participation)
    (plays : List Play) :
    Prop :=
  ∀ start,
    contest.schedule.tokenStart? participation = some start →
    ∀ play ∈ plays, start ≤ play.instant

/-- Of plays since the start, those that a query sees lie between the start and the query. -/
theorem PlayedSinceStart.within
    {contest : Contest}
    {participation : Participation}
    {plays : List Play}
    {start now : Instant}
    (played : contest.PlayedSinceStart participation plays)
    (started : contest.schedule.tokenStart? participation = some start)
    (counts : Play → Bool) :
    ∀ instant ∈ Play.instants ((pastPlays plays now).filter counts),
      start ≤ instant ∧ instant ≤ now := by
  intro instant member
  obtain ⟨play, seen, rfl⟩ := List.mem_map.mp member
  obtain ⟨recorded, past⟩ := mem_pastPlays.mp (List.mem_filter.mp seen).1
  exact ⟨played start started play recorded, past⟩

/-- About plays since the start a contest is at fault for an early query or an instant out of range. -/
theorem PlayedSinceStart.fault_cases
    {contest : Contest}
    {participation : Participation}
    {task : String}
    {plays : List Play}
    {now : Instant}
    {fault : Fault}
    (played : contest.PlayedSinceStart participation plays)
    (failed : contest.standing participation task plays now = .error (.unanswerable fault)) :
    (∃ start,
        contest.schedule.tokenStart? participation = some start ∧
          now < start ∧
          fault = .queryBeforeStart start now) ∨
      fault = .outOfRange := by
  obtain ⟨policy, start, -, started, joint⟩ := standing_eq_unanswerable_iff.mp failed
  have pool :
      ∀ (counts : Play → Bool) {pool : Policy},
        pool.standing start (Play.instants ((pastPlays plays now).filter counts)) now =
          .error fault →
        (now < start ∧ fault = .queryBeforeStart start now) ∨ fault = .outOfRange :=
    fun counts _ =>
      Policy.fault_of_within (sorted_instants_past counts plays now)
        (played.within started counts)
  have poolFault :
      (now < start ∧ fault = .queryBeforeStart start now) ∨ fault = .outOfRange := by
    rcases jointStanding_eq_error_iff.mp joint with contestFault | ⟨-, taskFault⟩
    · rw [← filter_true_past] at contestFault
      exact pool _ contestFault
    · exact pool _ taskFault
  rcases poolFault with ⟨early, isEarly⟩ | isRange
  · exact .inl ⟨start, started, early, isEarly⟩
  · exact .inr isRange

end Contest

namespace Ledger

/-- A request is let through only when its participation has started. -/
theorem Grants.start_le
    {contest : Contest}
    {ledger : Ledger}
    {request : Request}
    {policy : Policy}
    {start : Instant}
    {standing : Standing}
    (granted : ledger.Grants contest request policy start standing) :
    start ≤ request.now := by
  obtain ⟨contestStanding, taskStanding, ⟨answered, canPlay⟩, -⟩ := granted.standings
  exact (Policy.orderly_of_canPlay answered canPlay).started

/-- A participant with one participation plays only once it has started. -/
theorem playedSinceStart_serve
    {contest : Contest}
    {requests : List Request}
    {participation : Participation}
    (steady :
      ∀ request ∈ requests,
        request.participation.name = participation.name →
        request.participation = participation) :
    contest.PlayedSinceStart participation
      ((empty.serve contest requests).playsOf participation.name) := by
  induction requests using List.reverseRecOn with
  | nil =>
      exact fun _ _ _ member => absurd member List.not_mem_nil
  | append_singleton requests request inductionHypothesis =>
      have before :=
        inductionHypothesis fun earlier member => steady earlier (by simp [member])
      rw [serve_concat]
      rcases playsOf_afterRequest_cases contest (empty.serve contest requests) request
          participation.name with
        ⟨own, recorded, policy, requestStart, standing, granted⟩ | unchanged
      · rw [recorded]
        intro start started play member
        rcases List.mem_append.mp member with earlier | isLast
        · exact before start started play earlier
        · rw [List.mem_singleton.mp isLast]
          -- The request was checked from the start of its own participation, which is this one.
          have sameStart := granted.started
          rw [steady request (by simp) own, started] at sameStart
          cases sameStart
          exact granted.start_le
      · rw [unchanged]
        exact before

/-- A request is unanswerable when the contest does not answer about its participant's plays. -/
theorem accept_eq_unanswerable_iff
    {contest : Contest}
    {ledger : Ledger}
    {request : Request}
    {fault : Fault} :
    (ledger.accept contest request.participation request.task request.submission
          request.now).1 =
        .error (.unanswerable fault) ↔
      ledger.standing contest request.participation request.task request.now =
        .error (.unanswerable fault) := by
  rw [fst_accept]
  have verdict := ledger.verdict_review contest request
  generalize
    ledger.review contest request.participation request.task request.submission request.now =
      result at verdict ⊢
  cases verdict with
  | unanswered failed => simp [failed]
  | unacceptable answered refused => simp [answered]
  | alreadyPlayed answered canPlay played => simp [answered]
  | granted answered canPlay unplayed => simp [answered]

/--
After any run in which a participant appears with one participation, a query or
request of theirs at whatever instant is at fault only for coming before their
start, or because an instant is out of range.
-/
theorem fault_early_or_outOfRange
    {contest : Contest}
    {requests : List Request}
    {request : Request}
    {fault : Fault}
    (steady :
      ∀ earlier ∈ requests,
        earlier.participation.name = request.participation.name →
        earlier.participation = request.participation)
    (failed :
      (empty.serve contest requests).standing contest request.participation request.task
            request.now =
          .error (.unanswerable fault) ∨
        ((empty.serve contest requests).accept contest request.participation request.task
              request.submission request.now).1 =
          .error (.unanswerable fault)) :
    (∃ start,
        contest.schedule.tokenStart? request.participation = some start ∧
          request.now < start ∧
          fault = .queryBeforeStart start request.now) ∨
      fault = .outOfRange := by
  rw [accept_eq_unanswerable_iff, or_self] at failed
  exact (playedSinceStart_serve steady).fault_cases failed

/-- A contest with personal windows, and with a cooldown that outlasts all instants. -/
def endlessCooldown : Contest :=
  (Contest.new
    { contestStart := .onDayZero 0
      personalTime := some (.ofSeconds 3600) }
    { Policy.infinite with cooldown := .ofSeconds 9223372036854775807 }).addTask "sum" .infinite

/-- A participant whose window opens after a minute asks for a token. -/
def personalRequest
    (submission : String)
    (second : Nat) :
    Request where
  participation :=
    { name := "ann"
      startingTime := some (.onDayZero 60) }
  task := "sum"
  submission := submission
  now := .onDayZero second

/-- The ledger with one play, seventy seconds into day zero. -/
def servedOnce : Ledger :=
  empty.serve endlessCooldown [personalRequest "first" 70]

/-- A request before the window is early, and a query after the play is out of range. -/
theorem fault_early_or_outOfRange_endlessCooldown :
    (servedOnce.accept endlessCooldown (personalRequest "second" 30).participation "sum"
          "second" (.onDayZero 30)).1 =
        .error (.unanswerable (.queryBeforeStart (.onDayZero 60) (.onDayZero 30))) ∧
      (∃ start,
        endlessCooldown.schedule.tokenStart? (personalRequest "second" 30).participation =
            some start ∧
          .onDayZero 30 < start) ∧
      servedOnce.standing endlessCooldown (personalRequest "second" 80).participation "sum"
          (.onDayZero 80) =
        .error (.unanswerable .outOfRange) ∧
      ((∃ start,
          endlessCooldown.schedule.tokenStart? (personalRequest "second" 80).participation =
              some start ∧
            .onDayZero 80 < start ∧
            Fault.outOfRange = .queryBeforeStart start (.onDayZero 80)) ∨
        Fault.outOfRange = .outOfRange) := by
  have early :
      (servedOnce.accept endlessCooldown (personalRequest "second" 30).participation "sum"
          "second" (.onDayZero 30)).1 =
        .error (.unanswerable (.queryBeforeStart (.onDayZero 60) (.onDayZero 30))) := by
    decide +kernel
  have late :
      servedOnce.standing endlessCooldown (personalRequest "second" 80).participation "sum"
          (.onDayZero 80) =
        .error (.unanswerable .outOfRange) := by
    decide +kernel
  refine ⟨early, ?_, late, ?_⟩
  · rcases
      @fault_early_or_outOfRange endlessCooldown [personalRequest "first" 70]
        (personalRequest "second" 30) _ (by decide) (.inr early) with
      ⟨start, started, isEarly, -⟩ | isRange
    · exact ⟨start, started, isEarly⟩
    · contradiction
  · exact
      @fault_early_or_outOfRange endlessCooldown [personalRequest "first" 70]
        (personalRequest "second" 80) _ (by decide) (.inl late)

end Ledger

end TokenBudget
