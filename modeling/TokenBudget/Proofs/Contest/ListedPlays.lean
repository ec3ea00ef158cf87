import TokenBudget.Proofs.Contest.PastPlays
import TokenBudget.Proofs.Contest.SavedLog

namespace TokenBudget.Ledger

/-!
# Ledgers that list the same plays

Two ledgers may keep the plays of an account in different orders and still list
the same plays.  They then answer every request alike and list the same plays
once it is recorded, so a reloaded ledger stands for the one that was saved.
-/

/-- Two well-formed ledgers list the same plays. -/
structure ListsAlike (first second : Ledger) : Prop where
  firstWellFormed : first.WellFormed
  secondWellFormed : second.WellFormed
  allPlays_eq : first.allPlays = second.allPlays

/-- The list of plays does not show which accounts are open. -/
theorem WellFormed.allPlays_openAccount
    {ledger : Ledger}
    (wellFormed : ledger.WellFormed)
    (participant : String) :
    (ledger.openAccount participant).allPlays = ledger.allPlays :=
  (wellFormed.openAccount participant).allPlays_congr wellFormed fun _ _ => by
    rw [playsOf_openAccount]

namespace ListsAlike

variable {first second : Ledger}

theorem ofKey_playsOf_eq
    (alike : first.ListsAlike second)
    (instant : Instant)
    (participant : String) :
    ofKey Play.instant instant (first.playsOf participant) =
      ofKey Play.instant instant (second.playsOf participant) := by
  rw [← alike.firstWellFormed.ofKey_allPlays, ← alike.secondWellFormed.ofKey_allPlays,
    alike.allPlays_eq]

theorem playsOf_perm
    (alike : first.ListsAlike second)
    (participant : String) :
    (first.playsOf participant).Perm (second.playsOf participant) := by
  have sorted :
      sortedByKey Play.instant (first.playsOf participant) =
        sortedByKey Play.instant (second.playsOf participant) := by
    rw [alike.firstWellFormed.sortedByInstant_playsOf,
      alike.secondWellFormed.sortedByInstant_playsOf, alike.allPlays_eq]
  have inOrder := sortedByKey_perm Play.instant (first.playsOf participant)
  rw [sorted] at inOrder
  exact inOrder.symm.trans (sortedByKey_perm Play.instant (second.playsOf participant))

theorem toText_eq (alike : first.ListsAlike second) :
    first.toText = second.toText := by
  rw [toText, toText, toJson, toJson, alike.allPlays_eq]

theorem leapsEndMinutes_iff (alike : first.ListsAlike second) :
    first.LeapsEndMinutes ↔ second.LeapsEndMinutes := by
  rw [LeapsEndMinutes, alike.allPlays_eq]
  rfl

/-- A reloaded ledger lists the plays that were saved. -/
theorem reloaded (alike : first.ListsAlike second) :
    (ofPlays first.allPlays).ListsAlike second where
  firstWellFormed := .ofPlays _
  secondWellFormed := alike.secondWellFormed
  allPlays_eq := alike.firstWellFormed.allPlays_ofPlays_allPlays.trans alike.allPlays_eq

/-- An account that is opened on one side only is not seen. -/
theorem openAccount_right
    (alike : first.ListsAlike second)
    (participant : String) :
    first.ListsAlike (second.openAccount participant) where
  firstWellFormed := alike.firstWellFormed
  secondWellFormed := alike.secondWellFormed.openAccount participant
  allPlays_eq := by
    rw [alike.secondWellFormed.allPlays_openAccount, alike.allPlays_eq]

theorem record
    (alike : first.ListsAlike second)
    (play : Play) :
    (first.record play).ListsAlike (second.record play) where
  firstWellFormed := alike.firstWellFormed.record play
  secondWellFormed := alike.secondWellFormed.record play
  allPlays_eq := by
    apply (alike.firstWellFormed.record play).allPlays_congr (alike.secondWellFormed.record play)
    intro instant participant
    rw [playsOf_record, playsOf_record]
    split
    · rw [ofKey, ofKey, List.filter_append, List.filter_append]
      exact congrArg (· ++ _) (alike.ofKey_playsOf_eq instant participant)
    · exact alike.ofKey_playsOf_eq instant participant

/-- Ledgers that list the same plays answer a request alike. -/
theorem review_eq
    (alike : first.ListsAlike second)
    (contest : Contest)
    (participation : Participation)
    (task submission : String)
    (now : Instant) :
    first.review contest participation task submission now =
      second.review contest participation task submission now := by
  have samePlays := alike.playsOf_perm participation.name
  have sameStanding := contest.standing_of_perm participation task now samePlays
  rw [review, review, standing, standing, sameStanding, hasToken_of_perm samePlays]

end ListsAlike

end TokenBudget.Ledger
