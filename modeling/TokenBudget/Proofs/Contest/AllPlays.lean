import Mathlib.Data.List.Induction
import Mathlib.Data.List.Nodup
import Mathlib.Data.Prod.Lex
import Mathlib.Data.String.Basic
import TokenBudget.Contest.Ledger
import TokenBudget.Proofs.Instant.Plain
import TokenBudget.Proofs.Sorting

namespace TokenBudget

/-!
# All plays of a ledger

The list of all plays is sorted by instant and participant, and keeps the order
of accounts where these agree.  In a well-formed ledger, which is every ledger
that records make, the list and the accounts say the same: the accounts are found
in the list, `Ledger.WellFormed.sortedByInstant_playsOf`, and the list depends
only on the plays of each participant at each instant,
`Ledger.WellFormed.ofKey_allPlays`.
-/

/-- What plays are ordered by: the instant, then the participant. -/
def Play.key (play : Play) : Instant ×ₗ String :=
  toLex (play.instant, play.participant)

theorem Play.key_eq_iff
    {play : Play}
    {instant : Instant}
    {participant : String} :
    play.key = toLex (instant, participant) ↔
      play.instant = instant ∧ play.participant = participant := by
  simp [Play.key]

namespace Ledger

theorem precedes_eq_keyLe :
    precedes = keyLe Play.key := by
  funext first second
  unfold precedes keyLe Play.key
  by_cases same : first.instant = second.instant
  · simp [same, Prod.Lex.toLex_le_toLex]
  · simp [same, Prod.Lex.toLex_le_toLex, lt_iff_le_and_ne]

theorem allPlays_eq_sortedByKey (ledger : Ledger) :
    ledger.allPlays = sortedByKey Play.key ledger.accounts.values.flatten := by
  rw [allPlays, precedes_eq_keyLe, sortedByKey]

/--
No participant has two accounts, and an account holds plays of its participant
only.
-/
structure WellFormed (ledger : Ledger) : Prop where
  names_nodup : ledger.accounts.names.Nodup
  own : ∀ account ∈ ledger.accounts.entries, ∀ play ∈ account.2, play.participant = account.1

/-- The account that is found under a name is one of the accounts. -/
theorem mem_of_lookupIn?
    {Value : Type}
    {name : String}
    {value : Value}
    {entries : List (String × Value)}
    (found : Register.lookupIn? name entries = some value) :
    (name, value) ∈ entries := by
  induction entries with
  | nil =>
      simp [Register.lookupIn?] at found
  | cons entry later inductionHypothesis =>
      rw [Register.lookupIn?] at found
      split at found
      case isTrue here =>
        cases found
        subst here
        exact List.mem_cons_self
      case isFalse =>
        exact List.mem_cons_of_mem entry (inductionHypothesis found)

theorem mem_insertEntry
    {Value : Type}
    {name : String}
    {value : Value}
    {entries : List (String × Value)}
    {entry : String × Value}
    (member : entry ∈ Register.insertEntry name value entries) :
    entry = (name, value) ∨ entry ∈ entries := by
  induction entries with
  | nil =>
      simpa [Register.insertEntry] using member
  | cons first later inductionHypothesis =>
      rw [Register.insertEntry] at member
      split at member
      case isTrue =>
        rcases List.mem_cons.mp member with filed | member
        · exact .inl filed
        · exact .inr (List.mem_cons_of_mem first member)
      case isFalse =>
        rcases List.mem_cons.mp member with rfl | member
        · exact .inr List.mem_cons_self
        · exact (inductionHypothesis member).imp_right (List.mem_cons_of_mem first)

namespace WellFormed

variable {ledger : Ledger}

theorem participant_of_mem_playsOf
    (wellFormed : ledger.WellFormed)
    {participant : String}
    {play : Play}
    (member : play ∈ ledger.playsOf participant) :
    play.participant = participant := by
  rw [playsOf] at member
  cases found : ledger.accounts.find? participant with
  | none =>
      simp [found] at member
  | some plays =>
      simp only [found, Option.getD_some] at member
      exact wellFormed.own (participant, plays) (mem_of_lookupIn? found) play member

/-- An account of plays by its own participant may be filed anew. -/
theorem insert
    (wellFormed : ledger.WellFormed)
    {participant : String}
    {plays : List Play}
    (own : ∀ play ∈ plays, play.participant = participant) :
    WellFormed { accounts := ledger.accounts.insert participant plays } where
  names_nodup := by
    rw [Register.names_insert]
    split
    case isTrue =>
      exact wellFormed.names_nodup
    case isFalse new =>
      refine List.nodup_append.mpr ⟨wellFormed.names_nodup, List.nodup_singleton _, ?_⟩
      rintro name taken _ filed rfl
      exact new (List.mem_singleton.mp filed ▸ taken)
  own account member := by
    rcases mem_insertEntry member with rfl | member
    · exact own
    · exact wellFormed.own account member

theorem empty : WellFormed Ledger.empty where
  names_nodup := List.nodup_nil
  own := List.forall_mem_nil _

theorem record
    (wellFormed : ledger.WellFormed)
    (play : Play) :
    (ledger.record play).WellFormed := by
  refine wellFormed.insert fun recorded member => ?_
  rcases List.mem_append.mp member with earlier | last
  · exact wellFormed.participant_of_mem_playsOf earlier
  · exact List.mem_singleton.mp last ▸ rfl

theorem openAccount
    (wellFormed : ledger.WellFormed)
    (participant : String) :
    (ledger.openAccount participant).WellFormed :=
  wellFormed.insert fun _ => wellFormed.participant_of_mem_playsOf

theorem accept
    (wellFormed : ledger.WellFormed)
    (contest : Contest)
    (participation : Participation)
    (task submission : String)
    (now : Instant) :
    (ledger.accept contest participation task submission now).2.WellFormed := by
  unfold Ledger.accept
  split
  · exact wellFormed.record _
  · exact wellFormed.openAccount _

theorem ofPlays (plays : List Play) : (Ledger.ofPlays plays).WellFormed := by
  induction plays using List.reverseRecOn with
  | nil =>
      exact empty
  | append_singleton plays play inductionHypothesis =>
      rw [Ledger.ofPlays, List.foldl_append]
      exact inductionHypothesis.record play

end WellFormed

/-- The account of a participant holds the participant's plays in their order. -/
theorem playsOf_ofPlays
    (plays : List Play)
    (participant : String) :
    (ofPlays plays).playsOf participant =
      plays.filter fun play => play.participant = participant := by
  induction plays using List.reverseRecOn with
  | nil =>
      rfl
  | append_singleton plays play inductionHypothesis =>
      have unfolded : ofPlays (plays ++ [play]) = (ofPlays plays).record play := by
        simp [ofPlays]
      rw [unfolded, playsOf_record, List.filter_append, inductionHypothesis]
      by_cases own : participant = play.participant
      · simp [own]
      · simp [own, Ne.symm own]

/-- In accounts without a name there is no play of the participant. -/
theorem filter_flatten_of_absent
    {participant : String}
    {entries : List (String × List Play)}
    (own : ∀ account ∈ entries, ∀ play ∈ account.2, play.participant = account.1)
    (absent : participant ∉ entries.map Prod.fst) :
    ((entries.map Prod.snd).flatten.filter fun play => play.participant = participant) = [] := by
  rw [List.filter_eq_nil_iff]
  intro play member
  obtain ⟨plays, account, member⟩ := List.mem_flatten.mp member
  obtain ⟨⟨name, _⟩, entry, rfl⟩ := List.mem_map.mp account
  intro same
  have named := own _ entry play member
  rw [of_decide_eq_true same] at named
  exact absent (named ▸ List.mem_map_of_mem entry)

/-- Of the plays of all accounts, those of a participant are in the participant's account. -/
theorem filter_flatten_eq_lookup
    {participant : String}
    {entries : List (String × List Play)}
    (nodup : (entries.map Prod.fst).Nodup)
    (own : ∀ account ∈ entries, ∀ play ∈ account.2, play.participant = account.1) :
    ((entries.map Prod.snd).flatten.filter fun play => play.participant = participant) =
      (Register.lookupIn? participant entries).getD [] := by
  induction entries with
  | nil =>
      rfl
  | cons account later inductionHypothesis =>
      rw [List.map_cons, List.nodup_cons] at nodup
      rw [List.forall_mem_cons] at own
      rw [List.map_cons, List.flatten_cons, List.filter_append, Register.lookupIn?]
      split
      case isTrue here =>
        subst here
        rw [filter_flatten_of_absent own.2 nodup.1, List.append_nil, Option.getD_some,
          List.filter_eq_self]
        intro play member
        exact decide_eq_true (own.1 play member)
      case isFalse other =>
        rw [inductionHypothesis nodup.2 own.2, List.append_left_eq_self, List.filter_eq_nil_iff]
        intro play member same
        exact other ((own.1 play member).symm.trans (of_decide_eq_true same))

namespace WellFormed

variable {ledger : Ledger}

theorem filter_flatten
    (wellFormed : ledger.WellFormed)
    (participant : String) :
    (ledger.accounts.values.flatten.filter fun play => play.participant = participant) =
      ledger.playsOf participant :=
  filter_flatten_eq_lookup wellFormed.names_nodup wellFormed.own

/-- The plays of a participant at an instant are the same in the list and in the account. -/
theorem ofKey_allPlays
    (wellFormed : ledger.WellFormed)
    (instant : Instant)
    (participant : String) :
    ofKey Play.key (toLex (instant, participant)) ledger.allPlays =
      ofKey Play.instant instant (ledger.playsOf participant) := by
  rw [allPlays_eq_sortedByKey, ofKey_sortedByKey, ← wellFormed.filter_flatten, ofKey, ofKey,
    List.filter_filter]
  refine List.filter_congr fun play _ => ?_
  rw [Bool.eq_iff_iff]
  simp [Play.key_eq_iff]

/-- The plays of a participant, sorted by instant, are found in the list of all plays. -/
theorem sortedByInstant_playsOf
    (wellFormed : ledger.WellFormed)
    (participant : String) :
    sortedByKey Play.instant (ledger.playsOf participant) =
      ledger.allPlays.filter fun play => play.participant = participant := by
  have sorted : ledger.allPlays.Pairwise fun first second => first.instant ≤ second.instant := by
    rw [allPlays_eq_sortedByKey]
    refine (pairwise_sortedByKey Play.key _).imp fun before => ?_
    exact (Prod.Lex.monotone_fst _ _ before)
  apply eq_of_sorted_of_ofKey_eq Play.instant (pairwise_sortedByKey Play.instant _)
    (sorted.filter _)
  intro instant
  rw [ofKey_sortedByKey, ← wellFormed.ofKey_allPlays instant participant, ofKey, ofKey,
    List.filter_filter]
  refine List.filter_congr fun play _ => ?_
  rw [Bool.eq_iff_iff]
  simp [Play.key_eq_iff]

/-- The list holds the plays that their participants' accounts hold. -/
theorem mem_allPlays_iff
    (wellFormed : ledger.WellFormed)
    {play : Play} :
    play ∈ ledger.allPlays ↔ play ∈ ledger.playsOf play.participant := by
  rw [← (sortedByKey_perm Play.instant (ledger.playsOf play.participant)).mem_iff,
    wellFormed.sortedByInstant_playsOf, List.mem_filter]
  simp

/-- Well-formed ledgers with the same plays of each participant at each instant list the same. -/
theorem allPlays_congr
    {other : Ledger}
    (wellFormed : ledger.WellFormed)
    (otherWellFormed : other.WellFormed)
    (same : ∀ instant participant,
      ofKey Play.instant instant (ledger.playsOf participant) =
        ofKey Play.instant instant (other.playsOf participant)) :
    ledger.allPlays = other.allPlays := by
  rw [allPlays_eq_sortedByKey, allPlays_eq_sortedByKey]
  apply sortedByKey_congr
  intro sought
  have listed := wellFormed.ofKey_allPlays sought.1 sought.2
  have otherListed := otherWellFormed.ofKey_allPlays sought.1 sought.2
  rw [allPlays_eq_sortedByKey, ofKey_sortedByKey] at listed otherListed
  exact listed.trans ((same _ _).trans otherListed.symm)

end WellFormed

/-- A ledger of plays that were recorded without checks lists just these. -/
theorem allPlays_ofPlays (plays : List Play) :
    (ofPlays plays).allPlays = plays.mergeSort precedes := by
  have samePlays :
      sortedByKey Play.key (ofPlays plays).accounts.values.flatten =
        sortedByKey Play.key plays := by
    apply sortedByKey_congr
    intro sought
    have listed := (WellFormed.ofPlays plays).ofKey_allPlays sought.1 sought.2
    rw [allPlays_eq_sortedByKey, ofKey_sortedByKey, playsOf_ofPlays] at listed
    refine listed.trans ?_
    change _ = ofKey Play.key (toLex (sought.1, sought.2)) plays
    rw [ofKey, ofKey, List.filter_filter]
    refine List.filter_congr fun play _ => ?_
    rw [Bool.eq_iff_iff]
    simp [Play.key_eq_iff]
  rw [allPlays_eq_sortedByKey, samePlays, precedes_eq_keyLe, sortedByKey]

end Ledger

end TokenBudget
