import TokenBudget.Contest.PlayLog
import TokenBudget.Proofs.Contest.AllPlays
import TokenBudget.Proofs.Contest.Requests

namespace TokenBudget

/-!
# Working with a ledger

A ledger is asked to let plays through, and it is asked what it holds.
`Ledger.respond` is its response to one operation, `Ledger.after` the ledger that
is left, and `Ledger.exchanges` is what passes in a run of operations.

The account of a participant alone decides how the participant is answered and
what becomes of the account: `Ledger.respond_congr` and
`Ledger.playsOf_after_congr`.  Ledgers with the same plays in every account cannot
be told apart by any run: `Ledger.SamePlays.exchanges_eq`.
-/

/-- A request for a token, under the rules of a contest. -/
structure Call where
  contest : Contest
  request : Request
  deriving Repr, DecidableEq

/-- What a ledger can be asked. -/
inductive Operation where
  /-- Check a request, and record its play if it is let through. -/
  | accept (call : Call)
  /-- The tokens of a participation on a task. -/
  | standing
      (contest : Contest)
      (participation : Participation)
      (task : String)
      (now : Instant)
  | playsOf (participant : String)
  | hasToken (participant submission : String)
  | allPlays
  /-- The text of the play log. -/
  | text
  deriving Repr, DecidableEq

/-- What a ledger says to an operation. -/
inductive Response where
  | accept (result : Except Rejection Play)
  | standing (result : Except Rejection Standing)
  | plays (plays : List Play)
  | token (played : Bool)
  | text (text : String)
  deriving DecidableEq

/-- An operation with the response to it. -/
structure Exchange where
  operation : Operation
  response : Response
  deriving DecidableEq

/-- The participant whom an operation is about; the lists of all plays are about nobody. -/
def Operation.participant? : Operation → Option String
  | .accept call => some call.request.participation.name
  | .standing _ participation _ _ => some participation.name
  | .playsOf participant => some participant
  | .hasToken participant _ => some participant
  | .allPlays => none
  | .text => none

/-- The operations about a participant, in their order. -/
def Operation.about
    (participant : String)
    (operations : List Operation) :
    List Operation :=
  operations.filter fun operation => operation.participant? = some participant

/-- What passes with a participant in a run. -/
def Exchange.about
    (participant : String)
    (exchanges : List Exchange) :
    List Exchange :=
  exchanges.filter fun exchange => exchange.operation.participant? = some participant

namespace Ledger

/-- The response of a ledger to an operation. -/
def respond
    (ledger : Ledger) :
    Operation → Response
  | .accept ⟨contest, request⟩ =>
      .accept
        (ledger.accept contest request.participation request.task request.submission
          request.now).1
  | .standing contest participation task now =>
      .standing (ledger.standing contest participation task now)
  | .playsOf participant =>
      .plays (ledger.playsOf participant)
  | .hasToken participant submission =>
      .token (ledger.hasToken participant submission)
  | .allPlays =>
      .plays ledger.allPlays
  | .text =>
      .text ledger.toText

/-- The ledger after an operation; only requests for tokens leave anything behind. -/
def after
    (ledger : Ledger) :
    Operation → Ledger
  | .accept ⟨contest, request⟩ => ledger.afterRequest contest request
  | _ => ledger

/-- What passes in a run of operations. -/
def exchanges : Ledger → List Operation → List Exchange
  | _, [] => []
  | ledger, operation :: later =>
      ⟨operation, ledger.respond operation⟩ :: exchanges (ledger.after operation) later

/-- The ledger after a run of operations. -/
def afterAll
    (ledger : Ledger)
    (operations : List Operation) :
    Ledger :=
  operations.foldl after ledger

theorem afterAll_concat
    (ledger : Ledger)
    (operations : List Operation)
    (operation : Operation) :
    ledger.afterAll (operations ++ [operation]) =
      (ledger.afterAll operations).after operation := by
  rw [afterAll, List.foldl_append]
  rfl

theorem exchanges_concat
    (ledger : Ledger)
    (operations : List Operation)
    (operation : Operation) :
    ledger.exchanges (operations ++ [operation]) =
      ledger.exchanges operations ++
        [⟨operation, (ledger.afterAll operations).respond operation⟩] := by
  induction operations generalizing ledger with
  | nil =>
      rfl
  | cons first later inductionHypothesis =>
      rw [List.cons_append, exchanges, exchanges, inductionHypothesis]
      rfl

theorem hasToken_congr
    {first second : Ledger}
    {participant : String}
    (same : first.playsOf participant = second.playsOf participant)
    (submission : String) :
    first.hasToken participant submission = second.hasToken participant submission := by
  rw [hasToken, hasToken, same]

/-- The review of a request looks at the account of its participant only. -/
theorem review_congr
    {first second : Ledger}
    {participation : Participation}
    (same : first.playsOf participation.name = second.playsOf participation.name)
    (contest : Contest)
    (task submission : String)
    (now : Instant) :
    first.review contest participation task submission now =
      second.review contest participation task submission now := by
  rw [review, review, standing, standing, same, hasToken_congr same]

/-- Ledgers with the same account of a participant answer the participant alike. -/
theorem respond_congr
    {first second : Ledger}
    {participant : String}
    {operation : Operation}
    (own : operation.participant? = some participant)
    (same : first.playsOf participant = second.playsOf participant) :
    first.respond operation = second.respond operation := by
  cases operation with
  | accept call =>
      cases own
      simp only [respond, fst_accept, review_congr same]
  | standing contest participation task now =>
      cases own
      simp only [respond, standing, same]
  | playsOf asked =>
      cases own
      simp only [respond, same]
  | hasToken asked submission =>
      cases own
      simp only [respond, hasToken_congr same]
  | allPlays =>
      contradiction
  | text =>
      contradiction

/-- An operation is a request for a token, or leaves every ledger as it is. -/
theorem after_cases (operation : Operation) :
    (∃ call, operation = .accept call) ∨ ∀ ledger : Ledger, ledger.after operation = ledger := by
  cases operation with
  | accept call => exact .inl ⟨call, rfl⟩
  | standing contest participation task now => exact .inr fun _ => rfl
  | playsOf asked => exact .inr fun _ => rfl
  | hasToken asked submission => exact .inr fun _ => rfl
  | allPlays => exact .inr fun _ => rfl
  | text => exact .inr fun _ => rfl

/-- An operation about somebody else leaves the account of a participant alone. -/
theorem playsOf_after_of_other
    (ledger : Ledger)
    {participant : String}
    {operation : Operation}
    (other : operation.participant? ≠ some participant) :
    (ledger.after operation).playsOf participant = ledger.playsOf participant := by
  rcases after_cases operation with ⟨call, rfl⟩ | unchanged
  · rcases playsOf_afterRequest_cases call.contest ledger call.request participant with
      ⟨own, -⟩ | samePlays
    · exact (other (congrArg some own)).elim
    · exact samePlays
  · rw [unchanged]

/-- What becomes of the account of a participant depends on that account only. -/
theorem playsOf_after_congr
    {first second : Ledger}
    {participant : String}
    (same : first.playsOf participant = second.playsOf participant)
    (operation : Operation) :
    (first.after operation).playsOf participant =
      (second.after operation).playsOf participant := by
  by_cases own : operation.participant? = some participant
  · rcases after_cases operation with ⟨call, rfl⟩ | unchanged
    · cases own
      simp only [after, afterRequest, accept, review_congr same]
      split
      · rw [playsOf_record, playsOf_record, same]
      · rw [playsOf_openAccount, playsOf_openAccount, same]
    · rw [unchanged, unchanged, same]
  · rw [playsOf_after_of_other first own, playsOf_after_of_other second own, same]

theorem WellFormed.after
    {ledger : Ledger}
    (wellFormed : ledger.WellFormed)
    (operation : Operation) :
    (ledger.after operation).WellFormed := by
  rcases after_cases operation with ⟨call, rfl⟩ | unchanged
  · exact wellFormed.accept _ _ _ _ _
  · rw [unchanged]
    exact wellFormed

theorem wellFormed_afterAll (operations : List Operation) :
    (empty.afterAll operations).WellFormed := by
  induction operations using List.reverseRecOn with
  | nil =>
      exact .empty
  | append_singleton operations operation inductionHypothesis =>
      rw [afterAll_concat]
      exact inductionHypothesis.after operation

/-- Two well-formed ledgers have the same plays in every account. -/
structure SamePlays (first second : Ledger) : Prop where
  firstWellFormed : first.WellFormed
  secondWellFormed : second.WellFormed
  playsOf_eq : ∀ participant, first.playsOf participant = second.playsOf participant

namespace SamePlays

variable {first second : Ledger}

theorem allPlays_eq (samePlays : first.SamePlays second) :
    first.allPlays = second.allPlays :=
  samePlays.firstWellFormed.allPlays_congr samePlays.secondWellFormed
    fun _ participant => by rw [samePlays.playsOf_eq participant]

theorem toText_eq (samePlays : first.SamePlays second) :
    first.toText = second.toText := by
  rw [toText, toText, toJson, toJson, samePlays.allPlays_eq]

theorem respond_eq
    (samePlays : first.SamePlays second)
    (operation : Operation) :
    first.respond operation = second.respond operation := by
  cases about : operation.participant? with
  | some participant =>
      exact respond_congr about (samePlays.playsOf_eq participant)
  | none =>
      cases operation with
      | allPlays => exact congrArg Response.plays samePlays.allPlays_eq
      | text => exact congrArg Response.text samePlays.toText_eq
      | accept call => contradiction
      | standing contest participation task now => contradiction
      | playsOf asked => contradiction
      | hasToken asked submission => contradiction

theorem after
    (samePlays : first.SamePlays second)
    (operation : Operation) :
    (first.after operation).SamePlays (second.after operation) where
  firstWellFormed := samePlays.firstWellFormed.after operation
  secondWellFormed := samePlays.secondWellFormed.after operation
  playsOf_eq participant := playsOf_after_congr (samePlays.playsOf_eq participant) operation

/-- No run of operations tells ledgers with the same plays apart. -/
theorem exchanges_eq
    (samePlays : first.SamePlays second)
    (operations : List Operation) :
    first.exchanges operations = second.exchanges operations := by
  induction operations generalizing first second with
  | nil =>
      rfl
  | cons operation later inductionHypothesis =>
      rw [exchanges, exchanges, samePlays.respond_eq operation,
        inductionHypothesis (samePlays.after operation)]

end SamePlays

end Ledger

end TokenBudget
