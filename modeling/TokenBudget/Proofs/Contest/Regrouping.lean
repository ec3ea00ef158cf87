import TokenBudget.Proofs.Contest.AllPlays
import TokenBudget.Proofs.Contest.Requests

namespace TokenBudget

/-!
# Plays by participant and in one list again

A ledger files plays under their participants and lists them in the order of instant
and participant.  The accounts may come in any order: the list is always the stable
sort of the plays that were recorded, and an account holds the plays of its
participant as they came, `Ledger.allPlays_regrouped`.
-/

namespace Register

variable {Value : Type}

/-- Among entries with names of their own, each is found under its name. -/
theorem lookupIn?_eq_some_iff
    {name : String}
    {value : Value}
    {entries : List (String × Value)}
    (distinct : (entries.map Prod.fst).Nodup) :
    lookupIn? name entries = some value ↔ (name, value) ∈ entries := by
  refine ⟨Ledger.mem_of_lookupIn?, fun member => ?_⟩
  induction entries with
  | nil =>
      cases member
  | cons entry later inductionHypothesis =>
      rw [List.map_cons, List.nodup_cons] at distinct
      rw [lookupIn?]
      rcases List.mem_cons.mp member with rfl | member
      · exact if_pos rfl
      · have other : entry.1 ≠ name := by
          rintro rfl
          exact distinct.1 (List.mem_map.mpr ⟨_, member, rfl⟩)
        rw [if_neg other, inductionHypothesis distinct.2 member]

/-- What is found under a name does not depend on the order of the entries. -/
theorem lookupIn?_perm
    {first second : List (String × Value)}
    (distinct : (first.map Prod.fst).Nodup)
    (order : first.Perm second)
    (name : String) :
    lookupIn? name first = lookupIn? name second := by
  have secondDistinct : (second.map Prod.fst).Nodup :=
    (order.map Prod.fst).nodup_iff.mp distinct
  ext value
  rw [lookupIn?_eq_some_iff distinct, lookupIn?_eq_some_iff secondDistinct, order.mem_iff]

end Register

namespace Ledger

section

variable
    {ledger other : Ledger}
    (wellFormed : ledger.WellFormed)
    (order : other.accounts.entries.Perm ledger.accounts.entries)

include wellFormed order

theorem WellFormed.of_perm :
    other.WellFormed where
  names_nodup := (order.map Prod.fst).nodup_iff.mpr wellFormed.names_nodup
  own account member := wellFormed.own account (order.mem_iff.mp member)

theorem playsOf_of_accounts_perm (participant : String) :
    other.playsOf participant = ledger.playsOf participant := by
  have otherDistinct := (wellFormed.of_perm order).names_nodup
  rw [playsOf, playsOf, Register.find?, Register.find?,
    Register.lookupIn?_perm otherDistinct order]

/-- The list of all plays does not depend on the order of the accounts. -/
theorem allPlays_of_accounts_perm :
    other.allPlays = ledger.allPlays := by
  refine (wellFormed.of_perm order).allPlays_congr wellFormed fun instant participant => ?_
  rw [playsOf_of_accounts_perm wellFormed order]

end

/--
Plays that are filed under their participants and listed again, in whatever order the
accounts come, are the stable sort of the plays by instant and participant.  The
account of a participant holds the participant's plays in the order in which they came.
-/
theorem allPlays_regrouped
    {plays : List Play}
    {ledger : Ledger}
    (order : ledger.accounts.entries.Perm (ofPlays plays).accounts.entries) :
    (∀ listed, SortedStably Play.key plays listed ↔ listed = ledger.allPlays) ∧
      ∀ participant,
        ledger.playsOf participant = plays.filter fun play => play.participant = participant := by
  have wellFormed := WellFormed.ofPlays plays
  constructor
  · intro listed
    rw [allPlays_of_accounts_perm wellFormed order, allPlays_ofPlays, precedes_eq_keyLe]
    exact sortedStably_iff Play.key
  · intro participant
    rw [playsOf_of_accounts_perm wellFormed order, playsOf_ofPlays]

/-- Three plays at one instant and an earlier one, in the order of recording. -/
def recordedPlays : List Play :=
  [.onDayZero "bob" "sum" "b" 9, .onDayZero "ann" "sum" "z" 9, .onDayZero "ann" "sum" "y" 9,
    .onDayZero "ann" "sum" "x" 4]

/-- The ledger of these plays with its accounts the other way round. -/
def accountsReversed : Ledger where
  accounts := { entries := (ofPlays recordedPlays).accounts.entries.reverse }

/-- However the accounts lie, two plays of one name at one instant stay as they were recorded. -/
theorem allPlays_regrouped_accountsReversed :
    accountsReversed.accounts.entries.Perm (ofPlays recordedPlays).accounts.entries ∧
      accountsReversed.accounts.names = ["ann", "bob"] ∧
      SortedStably Play.key recordedPlays accountsReversed.allPlays ∧
      (ofKey Play.key (toLex (.onDayZero 9, "ann")) accountsReversed.allPlays).map
          Play.submission = ["z", "y"] ∧
      accountsReversed.playsOf "ann" =
        [.onDayZero "ann" "sum" "z" 9, .onDayZero "ann" "sum" "y" 9,
          .onDayZero "ann" "sum" "x" 4] := by
  have order :
      accountsReversed.accounts.entries.Perm (ofPlays recordedPlays).accounts.entries :=
    List.reverse_perm _
  obtain ⟨lists, accounts⟩ := allPlays_regrouped order
  have sorted := (lists _).mpr rfl
  refine ⟨order, by decide, sorted, ?_, (accounts "ann").trans (by decide)⟩
  rw [sorted.stable]
  decide

end Ledger

end TokenBudget
