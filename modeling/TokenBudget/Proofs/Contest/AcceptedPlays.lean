import TokenBudget.Proofs.Contest.Chronological
import TokenBudget.Proofs.Contest.Operations

namespace TokenBudget

/-!
# A ledger holds what it let through

`Ledger.Logs` says that the accounts of a ledger are what passed in a run: the
plays that were granted to each participant, in the order of their requests, no
two of them on one submission.  A request that is turned down leaves a ledger
that nothing tells from the one before: `Ledger.SameToAll`.  Every run from the
empty ledger keeps both: `Ledger.logs_granted`.
-/

/-- The play that passed, if the exchange granted one. -/
def Exchange.granted? : Exchange → Option Play
  | ⟨.accept _, .accept (.ok play)⟩ => some play
  | _ => none

/-- The plays granted to a participant, in the order of their requests. -/
def Exchange.grantedTo
    (participant : String)
    (exchanges : List Exchange) :
    List Play :=
  (about participant exchanges).filterMap granted?

theorem Exchange.grantedTo_append
    (participant : String)
    (earlier later : List Exchange) :
    grantedTo participant (earlier ++ later) =
      grantedTo participant earlier ++ grantedTo participant later := by
  simp only [grantedTo, about, List.filter_append, List.filterMap_append]

theorem Exchange.grantedTo_singleton
    (participant : String)
    (exchange : Exchange) :
    grantedTo participant [exchange] =
      if exchange.operation.participant? = some participant then
        exchange.granted?.toList
      else
        [] := by
  by_cases own : exchange.operation.participant? = some participant
  · cases granted : exchange.granted? with
    | none => simp [grantedTo, about, own, granted]
    | some play => simp [grantedTo, about, own, granted]
  · simp [grantedTo, about, own]

namespace Ledger

/-- The plays of a ledger are those that passed in a run. -/
structure Logs
    (ledger : Ledger)
    (exchanges : List Exchange) :
    Prop where
  /-- Every participant has the plays that were granted, in order. -/
  accounts :
    ∀ participant,
      ledger.playsOf participant = Exchange.grantedTo participant exchanges
  /-- What is granted is the play that was asked for. -/
  asked :
    ∀ contest request play,
      ⟨.accept ⟨contest, request⟩, .accept (.ok play)⟩ ∈ exchanges →
      play = request.play
  /-- No participant has two plays on one submission. -/
  distinct :
    ∀ participant,
      ((ledger.playsOf participant).map Play.submission).Nodup
  /-- A submission has a token when a play on it was granted. -/
  tokens :
    ∀ participant submission,
      ledger.hasToken participant submission = true ↔
        ∃ play ∈ Exchange.grantedTo participant exchanges,
          play.submission = submission

/-- Nothing that is asked of two ledgers, now or later, tells them apart. -/
structure SameToAll (first second : Ledger) : Prop where
  playsOf : ∀ participant, first.playsOf participant = second.playsOf participant
  allPlays : first.allPlays = second.allPlays
  hasToken :
    ∀ participant submission,
      first.hasToken participant submission = second.hasToken participant submission
  toText : first.toText = second.toText
  exchanges : ∀ operations, first.exchanges operations = second.exchanges operations

theorem SamePlays.sameToAll
    {first second : Ledger}
    (samePlays : first.SamePlays second) :
    first.SameToAll second where
  playsOf := samePlays.playsOf_eq
  allPlays := samePlays.allPlays_eq
  hasToken participant := hasToken_congr (samePlays.playsOf_eq participant)
  toText := samePlays.toText_eq
  exchanges := samePlays.exchanges_eq

/-- Opening an account changes no plays. -/
theorem WellFormed.samePlays_openAccount
    {ledger : Ledger}
    (wellFormed : ledger.WellFormed)
    (participant : String) :
    (ledger.openAccount participant).SamePlays ledger where
  firstWellFormed := wellFormed.openAccount participant
  secondWellFormed := wellFormed
  playsOf_eq := ledger.playsOf_openAccount participant

/-- A request that is turned down only opens an account. -/
theorem after_of_refused
    {ledger : Ledger}
    {contest : Contest}
    {request : Request}
    {rejection : Rejection}
    (refused : ledger.respond (.accept ⟨contest, request⟩) = .accept (.error rejection)) :
    ledger.after (.accept ⟨contest, request⟩) =
      ledger.openAccount request.participation.name := by
  simp only [respond, fst_accept, Response.accept.injEq] at refused
  simp only [after, afterRequest, accept, refused]

/-- A granted play is the play that was asked for. -/
theorem play_of_granted
    {ledger : Ledger}
    {contest : Contest}
    {request : Request}
    {play : Play}
    (granted : ledger.respond (.accept ⟨contest, request⟩) = .accept (.ok play)) :
    play = request.play := by
  have verdict := ledger.verdict_review contest request
  simp only [respond, fst_accept, Response.accept.injEq] at granted
  rw [granted] at verdict
  cases verdict with
  | granted answered canPlay unplayed => rfl

/-- An operation adds to each account what it grants. -/
theorem playsOf_after
    (ledger : Ledger)
    (operation : Operation)
    (participant : String) :
    (ledger.after operation).playsOf participant =
      ledger.playsOf participant ++
        Exchange.grantedTo participant [⟨operation, ledger.respond operation⟩] := by
  rw [Exchange.grantedTo_singleton]
  by_cases own : operation.participant? = some participant
  · rw [if_pos own]
    cases operation with
    | accept call =>
        obtain ⟨contest, request⟩ := call
        cases own
        cases reviewed :
            ledger.review contest request.participation request.task request.submission
              request.now with
        | ok play =>
            have granted : ledger.respond (.accept ⟨contest, request⟩) = .accept (.ok play) := by
              rw [respond, fst_accept, reviewed]
            obtain rfl := play_of_granted granted
            rw [granted]
            simp [after, afterRequest, accept, reviewed, playsOf_record, Request.play,
              Exchange.granted?]
        | error rejection =>
            have refused :
                ledger.respond (.accept ⟨contest, request⟩) = .accept (.error rejection) := by
              rw [respond, fst_accept, reviewed]
            rw [after_of_refused refused, refused, playsOf_openAccount]
            exact (List.append_nil _).symm
    | standing contest participation task now => exact (List.append_nil _).symm
    | playsOf asked => exact (List.append_nil _).symm
    | hasToken asked submission => exact (List.append_nil _).symm
    | allPlays => contradiction
    | text => contradiction
  · rw [if_neg own, playsOf_after_of_other ledger own, List.append_nil]

/-- A submission that has its token is not played again. -/
theorem nodup_submissions_afterRequest
    {contest : Contest}
    {ledger : Ledger}
    {request : Request}
    {participant : String}
    (distinct : ((ledger.playsOf participant).map Play.submission).Nodup) :
    (((ledger.afterRequest contest request).playsOf participant).map
        Play.submission).Nodup := by
  rcases playsOf_afterRequest_cases contest ledger request participant with
    ⟨own, recorded, policy, start, standing, granted⟩ | unchanged
  · have unplayed := granted.unplayed
    rw [own, hasToken, List.any_eq_false] at unplayed
    rw [recorded, List.map_append, List.nodup_append]
    refine ⟨distinct, List.nodup_singleton _, ?_⟩
    intro submission played other isNew same
    obtain ⟨play, member, rfl⟩ := List.mem_map.mp played
    refine unplayed play member (decide_eq_true ?_)
    rw [same, List.mem_singleton.mp isNew]
    rfl
  · rw [unchanged]
    exact distinct

theorem Logs.empty : Logs .empty [] where
  accounts _ := rfl
  asked _ _ _ member := absurd member List.not_mem_nil
  distinct _ := List.nodup_nil
  tokens _ _ := by simp [hasToken, Exchange.grantedTo, Exchange.about]

/-- What an operation grants is logged. -/
theorem Logs.after
    {ledger : Ledger}
    {exchanges : List Exchange}
    (logs : ledger.Logs exchanges)
    (operation : Operation) :
    (ledger.after operation).Logs
      (exchanges ++ [⟨operation, ledger.respond operation⟩]) := by
  have accounts :
      ∀ participant,
        (ledger.after operation).playsOf participant =
          Exchange.grantedTo participant
            (exchanges ++ [⟨operation, ledger.respond operation⟩]) := by
    intro participant
    rw [playsOf_after, logs.accounts, Exchange.grantedTo_append]
  refine ⟨accounts, ?_, ?_, ?_⟩
  · intro contest request play member
    rcases List.mem_append.mp member with earlier | isLast
    · exact logs.asked contest request play earlier
    · obtain ⟨rfl, granted⟩ := Exchange.mk.inj (List.mem_singleton.mp isLast)
      exact play_of_granted granted.symm
  · intro participant
    rcases after_cases operation with ⟨call, rfl⟩ | unchanged
    · exact nodup_submissions_afterRequest (logs.distinct participant)
    · rw [unchanged]
      exact logs.distinct participant
  · intro participant submission
    rw [hasToken, accounts, List.any_eq_true]
    simp only [decide_eq_true_eq]

theorem logs_afterAll (operations : List Operation) :
    (empty.afterAll operations).Logs (empty.exchanges operations) := by
  induction operations using List.reverseRecOn with
  | nil =>
      exact .empty
  | append_singleton operations operation inductionHypothesis =>
      rw [afterAll_concat, exchanges_concat]
      exact inductionHypothesis.after operation

/--
In every run from the empty ledger the accounts hold exactly the plays that were
granted, and a request that is turned down, for whatever reason, leaves a ledger
that nothing asked then or later tells from the one before.
-/
theorem logs_granted (operations : List Operation) :
    (empty.afterAll operations).Logs (empty.exchanges operations) ∧
      ∀ contest request rejection,
        (empty.afterAll operations).respond (.accept ⟨contest, request⟩) =
          .accept (.error rejection) →
        ((empty.afterAll operations).after (.accept ⟨contest, request⟩)).SameToAll
          (empty.afterAll operations) := by
  refine ⟨logs_afterAll operations, ?_⟩
  intro contest request rejection refused
  rw [after_of_refused refused]
  exact ((wellFormed_afterAll operations).samePlays_openAccount _).sameToAll

/-- A request that is granted. -/
def firstPlay : Operation :=
  .accept ⟨twoTasks, enrolled "ann", "sum", "first", .onDayZero 10⟩

/-- Requests that are then turned down, each for another reason. -/
def refusals : List (Request × Rejection) :=
  [(⟨enrolled "ann", "sum", "second", .onDayZero 12⟩,
      .unacceptable
        { count := .finite 0
          nextGrowth := some (.onDayZero 20)
          cooldownEnd := some (.onDayZero 40) }),
    (⟨enrolled "ann", "sort", "first", .onDayZero 12⟩, .alreadyPlayed "first"),
    (⟨enrolled "ann", "search", "second", .onDayZero 12⟩, .unknownTask "search"),
    (⟨enrolled "ann", "sum", "second", .earliest⟩,
      .unanswerable (.queryBeforeStart (.onDayZero 0) .earliest))]

theorem logs_granted_refusals :
    (empty.afterAll [firstPlay]).Logs (empty.exchanges [firstPlay]) ∧
      ((empty.afterAll [firstPlay]).playsOf "ann").map Play.submission = ["first"] ∧
      ∀ refusal ∈ refusals,
        (empty.afterAll [firstPlay]).respond (.accept ⟨twoTasks, refusal.1⟩) =
            .accept (.error refusal.2) ∧
          ((empty.afterAll [firstPlay]).after (.accept ⟨twoTasks, refusal.1⟩)).SameToAll
            (empty.afterAll [firstPlay]) := by
  have refused :
      ∀ refusal ∈ refusals,
        (empty.afterAll [firstPlay]).respond (.accept ⟨twoTasks, refusal.1⟩) =
          .accept (.error refusal.2) := by
    decide +kernel
  obtain ⟨logs, unchanged⟩ := logs_granted [firstPlay]
  refine ⟨logs, by decide +kernel, ?_⟩
  intro refusal member
  exact ⟨refused refusal member, unchanged _ _ _ (refused refusal member)⟩

end Ledger

end TokenBudget
