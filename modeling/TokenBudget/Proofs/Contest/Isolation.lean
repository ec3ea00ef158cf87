import TokenBudget.Proofs.Contest.Operations

namespace TokenBudget

/-!
# Participants do not interfere

What a participant is answered in a run depends on nothing that the others ask:
with the operations of the others left out, and the plays of the others taken
out of the ledger beforehand, the participant is answered the same:
`Ledger.exchanges_isolated`.

The proof keeps one relation along both runs.  The account of the participant is
the same in both ledgers; an operation of the participant is then answered alike
and leaves the accounts the same, and an operation of somebody else leaves the
account as it is.
-/

namespace Ledger

/-- The ledger without the plays of the other participants. -/
def only
    (ledger : Ledger)
    (participant : String) :
    Ledger where
  accounts :=
    { entries := ledger.accounts.entries.filter fun account => account.1 = participant }

/-- A name is looked up in the entries under that name. -/
theorem lookupIn?_filter_name
    {Value : Type}
    (name kept : String)
    (entries : List (String × Value)) :
    Register.lookupIn? name (entries.filter fun entry => entry.1 = kept) =
      if name = kept then Register.lookupIn? name entries else none := by
  induction entries with
  | nil =>
      simp [Register.lookupIn?]
  | cons entry later inductionHypothesis =>
      by_cases here : entry.1 = name
      · by_cases isKept : name = kept
        · simp [Register.lookupIn?, here, isKept]
        · simp [here, isKept, inductionHypothesis]
      · by_cases isKept : entry.1 = kept
        · have other : ¬ kept = name := fun same => here (isKept.trans same)
          simp [Register.lookupIn?, isKept, other, inductionHypothesis]
        · simp [Register.lookupIn?, here, isKept, inductionHypothesis]

/-- The one participant keeps all plays, and the others have none. -/
theorem playsOf_only
    (ledger : Ledger)
    (kept participant : String) :
    (ledger.only kept).playsOf participant =
      if participant = kept then ledger.playsOf participant else [] := by
  simp only [playsOf, only, Register.find?, lookupIn?_filter_name]
  split
  · rfl
  · rfl

/-- From ledgers with one and the same account, a participant is answered the same without the others. -/
theorem exchanges_about_of_same
    {first second : Ledger}
    {participant : String}
    (same : first.playsOf participant = second.playsOf participant)
    (operations : List Operation) :
    Exchange.about participant (first.exchanges operations) =
      second.exchanges (Operation.about participant operations) := by
  induction operations generalizing first second with
  | nil =>
      rfl
  | cons operation later inductionHypothesis =>
      by_cases own : operation.participant? = some participant
      · have answeredAlike := respond_congr own same
        have rest := inductionHypothesis (playsOf_after_congr same operation)
        simp only [Exchange.about, Operation.about] at rest
        simp [exchanges, Exchange.about, Operation.about, own, answeredAlike, rest]
      · have rest :=
          inductionHypothesis ((playsOf_after_of_other first own).trans same)
        simp only [Exchange.about, Operation.about] at rest
        simp [exchanges, Exchange.about, Operation.about, own, rest]

/--
In any run over any ledger a participant is asked and answered the same as in the
run without the operations of the others, over the ledger without their plays.
-/
theorem exchanges_isolated
    (ledger : Ledger)
    (operations : List Operation)
    (participant : String) :
    Exchange.about participant (ledger.exchanges operations) =
      (ledger.only participant).exchanges (Operation.about participant operations) := by
  apply exchanges_about_of_same
  rw [playsOf_only, if_pos rfl]

end Ledger

end TokenBudget
