import TokenBudget.Contest.Rules

namespace TokenBudget

/-!
# The ledger of plays

Every participant has an account of plays in the order in which they were
recorded.  `Ledger.accept` records a play if the contest lets it through, and
otherwise only opens the participant's account.

`Ledger.allPlays` is one list of all plays, by instant and then by participant;
plays that agree in both keep the order of their account.
-/

/-- The plays of every participant. -/
structure Ledger where
  accounts : Register (List Play)
  deriving Repr, DecidableEq

namespace Ledger

/-- No account is open. -/
def empty : Ledger where
  accounts := .empty

instance : Inhabited Ledger where
  default := empty

/-- The plays of a participant in the order of recording. -/
def playsOf
    (ledger : Ledger)
    (participant : String) :
    List Play :=
  (ledger.accounts.find? participant).getD []

/-- Open the account of a participant, unless it is open. -/
def openAccount
    (ledger : Ledger)
    (participant : String) :
    Ledger where
  accounts := ledger.accounts.insert participant (ledger.playsOf participant)

/-- Record a play without a check. -/
def record
    (ledger : Ledger)
    (play : Play) :
    Ledger where
  accounts :=
    ledger.accounts.insert play.participant (ledger.playsOf play.participant ++ [play])

/-- The ledger of plays recorded one after the other, without checks. -/
def ofPlays (plays : List Play) : Ledger :=
  plays.foldl record empty

/-- Plays come by instant, then by the code points of the participant's name. -/
def precedes (first second : Play) : Bool :=
  if first.instant = second.instant then
    decide (first.participant ≤ second.participant)
  else
    decide (first.instant ≤ second.instant)

/-- All plays by instant, then participant, then order of recording. -/
def allPlays (ledger : Ledger) : List Play :=
  ledger.accounts.values.flatten.mergeSort precedes

/-- The participant has played a token on the submission. -/
def hasToken
    (ledger : Ledger)
    (participant submission : String) :
    Bool :=
  (ledger.playsOf participant).any fun play => play.submission = submission

/-- Tokens that a participation has on a task at an instant, by the recorded plays. -/
def standing
    (ledger : Ledger)
    (contest : Contest)
    (participation : Participation)
    (task : String)
    (now : Instant) :
    Except Rejection Standing :=
  contest.standing participation task (ledger.playsOf participation.name) now

/-- The play that a request asks for, if the contest and the recorded plays let it through. -/
def review
    (ledger : Ledger)
    (contest : Contest)
    (participation : Participation)
    (task submission : String)
    (now : Instant) :
    Except Rejection Play := do
  let standing ← ledger.standing contest participation task now
  standing.permit submission (ledger.hasToken participation.name submission)
  return { participant := participation.name, task, submission, instant := now }

/-- Check a request and record the play; a refused request records none. -/
def accept
    (ledger : Ledger)
    (contest : Contest)
    (participation : Participation)
    (task submission : String)
    (now : Instant) :
    Except Rejection Play × Ledger :=
  match ledger.review contest participation task submission now with
  | .ok play => (.ok play, ledger.record play)
  | .error rejection => (.error rejection, ledger.openAccount participation.name)

@[simp]
theorem playsOf_empty (participant : String) :
    empty.playsOf participant = [] :=
  rfl

/-- Recording a play puts it at the end of its participant's plays. -/
theorem playsOf_record
    (ledger : Ledger)
    (play : Play)
    (participant : String) :
    (ledger.record play).playsOf participant =
      if participant = play.participant then
        ledger.playsOf participant ++ [play]
      else
        ledger.playsOf participant := by
  by_cases own : participant = play.participant
  · subst own
    simp [playsOf, record, Register.find?_insert]
  · simp [playsOf, record, Register.find?_insert, own]

/-- Opening an account adds no play. -/
@[simp]
theorem playsOf_openAccount
    (ledger : Ledger)
    (opened participant : String) :
    (ledger.openAccount opened).playsOf participant = ledger.playsOf participant := by
  by_cases own : participant = opened
  · subst own
    simp [playsOf, openAccount, Register.find?_insert]
  · simp [playsOf, openAccount, Register.find?_insert, own]

end Ledger

end TokenBudget
