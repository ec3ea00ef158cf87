import Mathlib.Data.List.Induction
import TokenBudget.Proofs.Pool.Answer
import TokenBudget.Proofs.Pool.Counts
import TokenBudget.Proofs.Pool.ExactBalance

namespace TokenBudget

/-!
# Replayed and exact balance

A replay adds the boundaries between two plays at once and cuts every sum to a
64-bit word.  `Agrees` is what the cuts leave true: the replayed balance is the
exact one, or both have grown beyond every count of tokens.  It holds from the
start, and plays and boundaries keep it, so the count of a pool is that of its
exact balance: `Policy.count_eq_exactCount`.
-/

/--
After so many plays a replayed balance agrees with the exact one: it is the
same, or both are out of reach of caps, lifetimes and counts.
-/
def Agrees
    (played : Nat)
    (replayed exact : Int) :
    Prop :=
  -(played : Int) ≤ replayed ∧
    (replayed = exact ∨ 2 ^ 62 - (played : Int) ≤ replayed ∧ 2 ^ 62 - (played : Int) ≤ exact)

theorem Agrees.play
    {played : Nat}
    {replayed exact : Int}
    (agrees : Agrees played replayed exact) :
    Agrees (played + 1) (replayed - 1) (exact - 1) := by
  simp only [Agrees] at *
  omega

/-- Where two balances agree they are below the same bounds, as far as counts reach. -/
theorem Agrees.lt_iff
    {played : Nat}
    {replayed exact bound : Int}
    (few : played ≤ 2 ^ 59)
    (agrees : Agrees played replayed exact)
    (small : bound < 2 ^ 32) :
    replayed < bound ↔ exact < bound := by
  simp only [Agrees] at agrees
  omega

namespace Policy

/-- What of a balance the lifetime still lets through, after so many plays. -/
def spendable
    (policy : Policy)
    (played : Nat)
    (balance : Int) :
    Int :=
  match policy.lifetime with
  | none => balance
  | some lifetime => min balance (lifetime.toNat - played)

/-- The lifetime lets through the smaller of the balance and the plays that are left. -/
theorem fst_withinLifetime
    (policy : Policy)
    (played : Nat)
    (balance : Int)
    (nextGrowth : Option Instant) :
    (policy.withinLifetime played balance nextGrowth).1 = policy.spendable played balance := by
  cases limited : policy.lifetime with
  | none =>
      simp only [withinLifetime, spendable, limited]
  | some lifetime =>
      simp only [withinLifetime, spendable, limited]
      by_cases exceeds : (lifetime.toNat : Int) - played ≤ balance
      · rw [if_pos exceeds, Int.min_eq_right exceeds]
      · rw [if_neg exceeds, Int.min_eq_left (Int.le_of_lt (Int.not_le.mp exceeds))]

theorem spendable_le
    (policy : Policy)
    (played : Nat)
    (balance : Int) :
    policy.spendable played balance ≤ balance := by
  simp only [spendable]
  split
  · exact Int.le_refl balance
  · exact Int.min_le_left _ _

theorem replay_concat
    (policy : Policy)
    (clock : Clock)
    (now : Instant)
    (balance : Int)
    (previous : Instant)
    (history : List Instant)
    (played : Instant) :
    policy.replay clock now balance previous (history ++ [played]) =
      policy.accrue clock
        (policy.replay clock played balance previous history - 1) played now := by
  induction history generalizing balance previous with
  | nil =>
      rfl
  | cons first later inductionHypothesis =>
      rw [List.cons_append, replay, replay, inductionHypothesis]

/-- After its last play, or from its start on, a pool only accrues. -/
theorem exists_accrue_since
    (policy : Policy)
    (clock : Clock)
    (balance : Int)
    (previous : Instant)
    (history : List Instant) :
    ∃ since ∈ previous :: history,
      ∃ remaining,
        ∀ now,
          policy.replay clock now balance previous history =
            policy.accrue clock remaining since now := by
  cases history using List.reverseRecOn with
  | nil =>
      exact ⟨previous, List.mem_singleton_self previous, balance, fun _ => rfl⟩
  | append_singleton history last =>
      refine ⟨last, by simp, policy.replay clock last balance previous history - 1, ?_⟩
      intro now
      exact policy.replay_concat clock now balance previous history last

section

variable
    {policy : Policy}
    {clock : Clock}
    {earlier later : Instant}
    (startPlain : clock.start.isLeap = false)
    (earlierPlain : earlier.isLeap = false)
    (laterPlain : later.isLeap = false)
    (ordered : earlier ≤ later)

include startPlain earlierPlain laterPlain ordered

/-- Boundaries are added at once, cut to a word, and capped. -/
theorem accrue_eq (balance : Int) :
    policy.accrue clock balance earlier later =
      policy.capped
        (saturate
          (balance +
            min ((clock.periods later - clock.periods earlier) * policy.perPeriod.toNat)
              (largestWord 64))) := by
  rw [accrue, Clock.saturate_boundaries_mul startPlain earlierPlain laterPlain ordered]

/-- Boundaries keep the agreement. -/
theorem agrees_accrue
    {played : Nat}
    {replayed exact : Int}
    (few : played ≤ 2 ^ 59)
    (agrees : Agrees played replayed exact) :
    Agrees played
      (policy.accrue clock replayed earlier later)
      (policy.refilled exact (clock.periods later - clock.periods earlier)) := by
  have increasing := Clock.periods_mono startPlain earlierPlain laterPlain ordered
  have addedNonneg :
      0 ≤ (clock.periods later - clock.periods earlier) * (policy.perPeriod.toNat : Int) :=
    Int.mul_nonneg (by omega) (Int.natCast_nonneg _)
  rw [accrue_eq startPlain earlierPlain laterPlain ordered, refilled]
  generalize
    (clock.periods later - clock.periods earlier) * (policy.perPeriod.toNat : Int) = added
    at addedNonneg
  simp only [Agrees, saturate, largestWord_64, smallestWord_64] at *
  cases capped : policy.cap with
  | none =>
      simp only [Policy.capped, capped]
      omega
  | some cap =>
      have capSmall := cap.toNat_lt
      simp only [Policy.capped, capped]
      omega

end

section

variable
    {policy : Policy}
    {initial : UInt32}
    {start now : Instant}
    {history : List Instant}

/-- The replayed balance of a pool agrees with its exact balance. -/
theorem agrees_replay
    (enabled : policy.initial = some initial)
    (finite : policy.isInfinite = false)
    (startPlain : start.isLeap = false)
    (nowPlain : now.isLeap = false)
    (playsPlain : ∀ played ∈ history, played.isLeap = false)
    (orderly : Orderly start now history)
    (few : history.length ≤ 2 ^ 59) :
    Agrees history.length
      (policy.replay (Clock.ofPolicy start policy) now initial.toNat start history)
      (policy.exactBalance initial start history now) := by
  have clockPlain := Clock.plain_ofPolicy startPlain policy
  induction history using List.reverseRecOn generalizing now with
  | nil =>
      have fresh : Agrees 0 (initial.toNat : Int) initial.toNat := by
        simp [Agrees]
      rw [exactBalance_nil enabled finite startPlain nowPlain orderly.started, replay]
      exact agrees_accrue clockPlain startPlain nowPlain orderly.started (by decide) fresh
  | append_singleton history played inductionHypothesis =>
      have playedPlain : played.isLeap = false := playsPlain played (by simp)
      have before :=
        inductionHypothesis playedPlain
          (fun earlier member => playsPlain earlier (by simp [member]))
          orderly.before_last (by simp at few; omega)
      rw [exactBalance_concat enabled finite startPlain nowPlain playedPlain orderly,
        replay_concat, List.length_append]
      exact agrees_accrue clockPlain playedPlain nowPlain orderly.last_within.2
        (by simpa using few) before.play

/-- Where replayed and exact balance agree, they make the same count, whatever was played. -/
theorem ofBalance_spendable_of_agrees
    {reach played : Nat}
    {replayed exact : Int}
    (few : reach ≤ 2 ^ 59)
    (agrees : Agrees reach replayed exact) :
    TokenCount.ofBalance (policy.spendable played replayed) =
      TokenCount.ofBalance (policy.spendable played exact) := by
  obtain ⟨-, rfl | ⟨replayedFar, exactFar⟩⟩ := agrees
  · rfl
  · cases limited : policy.lifetime with
    | none =>
        have replayedMost : min replayed.toNat (UInt32.size - 1) = UInt32.size - 1 := by
          simp only [UInt32.size]
          omega
        have exactMost : min exact.toNat (UInt32.size - 1) = UInt32.size - 1 := by
          simp only [UInt32.size]
          omega
        simp only [spendable, limited, TokenCount.ofBalance, replayedMost, exactMost]
    | some lifetime =>
        have lifetimeSmall := lifetime.toNat_lt
        simp only [spendable, limited]
        rw [Int.min_eq_right (by omega), Int.min_eq_right (by omega)]

/-- A pool that counts its tokens has the count of its replayed balance. -/
theorem count_eq_ofBalance_replay
    {standing : Standing}
    (enabled : policy.initial = some initial)
    (finite : policy.isInfinite = false)
    (left : policy.isExhausted history.length = false)
    (answered : policy.standing start history now = .ok standing) :
    standing.count =
      .ofBalance
        (policy.spendable history.length
          (policy.replay (Clock.ofPolicy start policy) now initial.toNat start history)) := by
  cases standing_eq_ok_iff.mp answered with
  | disabled off => simp [enabled] at off
  | infinite _ _ _ endless => simp [finite] at endless
  | exhausted _ _ _ _ usedUp => simp [left] at usedUp
  | counted sameEnabled _ _ _ _ replayed _ =>
      cases enabled.symm.trans sameEnabled
      rw [fst_withinLifetime, replayed]

/-- The count that the exact balance of a pool makes. -/
def exactCount
    (policy : Policy)
    (start : Instant)
    (history : List Instant)
    (now : Instant) :
    TokenCount :=
  match policy.initial with
  | none => .finite 0
  | some initial =>
      if policy.isInfinite then
        .infinite
      else if policy.isExhausted history.length then
        .finite 0
      else
        .ofBalance
          (policy.spendable history.length (policy.exactBalance initial start history now))

/-- Outside leap seconds a pool has the count of its exact balance. -/
theorem count_eq_exactCount_of_le
    {standing : Standing}
    (startPlain : start.isLeap = false)
    (nowPlain : now.isLeap = false)
    (playsPlain : ∀ played ∈ history, played.isLeap = false)
    (few : history.length ≤ 2 ^ 59)
    (answered : policy.standing start history now = .ok standing) :
    standing.count = policy.exactCount start history now := by
  cases standing_eq_ok_iff.mp answered with
  | disabled off =>
      simp only [exactCount, off]
      rfl
  | infinite enabled _ _ endless =>
      simp only [exactCount, enabled, if_pos endless]
  | exhausted enabled _ _ finite usedUp =>
      simp only [exactCount, enabled, finite, if_pos usedUp]
      rfl
  | counted enabled orderly _ finite left replayed _ =>
      subst replayed
      have agrees :=
        agrees_replay enabled finite startPlain nowPlain playsPlain orderly few
      simp only [exactCount, enabled, finite, left, fst_withinLifetime]
      exact ofBalance_spendable_of_agrees few agrees

theorem count_eq_exactCount
    {standing : Standing}
    (startPlain : start.isLeap = false)
    (nowPlain : now.isLeap = false)
    (playsPlain : ∀ played ∈ history, played.isLeap = false)
    (few : history.length < 2 ^ 59)
    (answered : policy.standing start history now = .ok standing) :
    standing.count = policy.exactCount start history now :=
  count_eq_exactCount_of_le startPlain nowPlain playsPlain (Nat.le_of_lt few) answered

end

end Policy

end TokenBudget
