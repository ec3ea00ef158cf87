import TokenBudget.Proofs.Pool.Growth
import TokenBudget.Proofs.Pool.Spending

namespace TokenBudget

/-!
# Pools whose plays were all backed by a token

A play is backed when the replayed balance had a token for it.  A pool lets no
other plays through, so the replayed balance of its own plays is never below
zero, and it tells its later counts however many plays there are:
`Policy.forecast_of_backed`.  Growth alone does not end a wait, since a cooldown
may still run: `Policy.cooldownEnd_eq_none_iff` says until when.
-/

namespace Policy

/-- Each play was made while the replayed balance had a token. -/
def Backed
    (policy : Policy)
    (start : Instant)
    (history : List Instant) :
    Prop :=
  ∀ initial,
    policy.initial = some initial →
    policy.isInfinite = false →
    AtEach
      (fun earlier played =>
        1 ≤ policy.replay (Clock.ofPolicy start policy) played initial.toNat start earlier)
      history

theorem Backed.nil
    (policy : Policy)
    (start : Instant) :
    policy.Backed start [] := by
  simp [Backed]

/-- A play that a pool lets through is backed. -/
theorem Backed.play
    {policy : Policy}
    {start now : Instant}
    {history : List Instant}
    {standing : Standing}
    (backed : policy.Backed start history)
    (answered : policy.standing start history now = .ok standing)
    (canPlay : standing.canPlay = true) :
    policy.Backed start (history ++ [now]) := by
  intro initial enabled finite
  refine atEach_concat.mpr ⟨backed initial enabled finite, ?_⟩
  obtain ⟨token, -⟩ := Standing.canPlay_iff.mp canPlay
  cases standing_eq_ok_iff.mp answered with
  | disabled off =>
      contradiction
  | infinite _ _ _ endless =>
      rw [finite] at endless
      contradiction
  | exhausted _ _ _ _ _ =>
      contradiction
  | counted sameEnabled _ _ _ _ replayed _ =>
      cases enabled.symm.trans sameEnabled
      have spendable := TokenCount.any_ofBalance_iff.mp token
      rw [fst_withinLifetime] at spendable
      rw [replayed]
      exact le_trans spendable (policy.spendable_le _ _)

section

variable
    {policy : Policy}
    {clock : Clock}
    {balance : Int}
    {since now later : Instant}
    (clockPlain : clock.start.isLeap = false)
    (sincePlain : since.isLeap = false)
    (nowPlain : now.isLeap = false)
    (played : since ≤ now)
    (solvent : 0 ≤ balance)

theorem withinCap_accrue
    (policy : Policy)
    (clock : Clock)
    (balance : Int)
    (earlier later : Instant) :
    policy.WithinCap (policy.accrue clock balance earlier later) :=
  policy.withinCap_capped _

include clockPlain sincePlain nowPlain played solvent

theorem accrue_nonneg :
    0 ≤ policy.accrue clock balance since now := by
  have increasing := Clock.periods_mono clockPlain sincePlain nowPlain played
  have addedNonneg :
      0 ≤ (clock.periods now - clock.periods since) * (policy.perPeriod.toNat : Int) :=
    Int.mul_nonneg (by omega) (Int.natCast_nonneg _)
  rw [accrue_eq clockPlain sincePlain nowPlain played]
  simp only [saturate, largestWord_64, smallestWord_64, Policy.capped]
  split <;> omega

/-- Accruing to a later instant at once agrees with accruing first to an earlier one. -/
theorem agrees_accrue_later
    (laterPlain : later.isLeap = false)
    (ordered : now ≤ later) :
    Agrees 0
      (policy.accrue clock balance since later)
      (policy.refilled (policy.accrue clock balance since now)
        (clock.periods later - clock.periods now)) := by
  have elapsed := Clock.periods_mono clockPlain sincePlain nowPlain played
  have increasing := Clock.periods_mono clockPlain nowPlain laterPlain ordered
  have firstNonneg :
      0 ≤ (clock.periods now - clock.periods since) * (policy.perPeriod.toNat : Int) :=
    Int.mul_nonneg (by omega) (Int.natCast_nonneg _)
  have secondNonneg :
      0 ≤ (clock.periods later - clock.periods now) * (policy.perPeriod.toNat : Int) :=
    Int.mul_nonneg (by omega) (Int.natCast_nonneg _)
  have split :
      (clock.periods later - clock.periods since) * (policy.perPeriod.toNat : Int) =
        (clock.periods now - clock.periods since) * policy.perPeriod.toNat +
          (clock.periods later - clock.periods now) * policy.perPeriod.toNat := by
    rw [← Int.add_mul]
    congr 1
    omega
  rw [accrue_eq clockPlain sincePlain laterPlain (le_trans played ordered),
    accrue_eq clockPlain sincePlain nowPlain played, refilled, split]
  generalize
    (clock.periods now - clock.periods since) * (policy.perPeriod.toNat : Int) = first
    at firstNonneg
  generalize
    (clock.periods later - clock.periods now) * (policy.perPeriod.toNat : Int) = second
    at secondNonneg
  simp only [Agrees, saturate, largestWord_64, smallestWord_64]
  cases capped : policy.cap with
  | none =>
      simp only [Policy.capped, capped]
      omega
  | some cap =>
      have capSmall := cap.toNat_lt
      simp only [Policy.capped, capped]
      omega

end

section

variable
    {policy : Policy}
    {initial : UInt32}
    {start now : Instant}
    {history : List Instant}
    {standing : Standing}

/-- Between plays a backed pool only accrues, from a balance that is not below zero. -/
theorem exists_replay_eq_accrue
    (enabled : policy.initial = some initial)
    (finite : policy.isInfinite = false)
    (startPlain : start.isLeap = false)
    (playsPlain : ∀ played ∈ history, played.isLeap = false)
    (orderly : Orderly start now history)
    (backed : policy.Backed start history) :
    ∃ balance since,
      since.isLeap = false ∧
        since ≤ now ∧
        0 ≤ balance ∧
        ∀ later,
          policy.replay (Clock.ofPolicy start policy) later initial.toNat start history =
            policy.accrue (Clock.ofPolicy start policy) balance since later := by
  cases history using List.reverseRecOn with
  | nil =>
      exact ⟨initial.toNat, start, startPlain, orderly.started, Int.natCast_nonneg _,
        fun _ => rfl⟩
  | append_singleton earlier last =>
      have token := (atEach_concat.mp (backed initial enabled finite)).2
      refine ⟨policy.replay (Clock.ofPolicy start policy) last initial.toNat start earlier - 1,
        last, playsPlain last (by simp), orderly.last_within.2, by omega, ?_⟩
      intro later
      exact policy.replay_concat _ _ _ _ _ _

section

variable
    (startPlain : start.isLeap = false)
    (nowPlain : now.isLeap = false)
    (playsPlain : ∀ played ∈ history, played.isLeap = false)
    (backed : policy.Backed start history)
    (answered : policy.standing start history now = .ok standing)

include startPlain nowPlain playsPlain backed answered

/-- The replayed balance of a backed pool explains its counts from then on. -/
theorem refills_of_backed
    (enabled : policy.initial = some initial)
    (orderly : Orderly start now history)
    (finite : policy.isInfinite = false)
    (left : policy.isExhausted history.length = false) :
    policy.Refills (Clock.ofPolicy start policy) history.length
      (policy.replay (Clock.ofPolicy start policy) now initial.toNat start history)
      (policy.standing start history) now standing := by
  obtain ⟨balance, since, sincePlain, played, solvent, accrues⟩ :=
    exists_replay_eq_accrue enabled finite startPlain playsPlain orderly backed
  refine ⟨count_eq_ofBalance_replay enabled finite left answered, ?_⟩
  intro later after laterPlain ordered laterAnswered
  rw [count_eq_ofBalance_replay enabled finite left laterAnswered, accrues later, accrues now]
  exact ofBalance_spendable_of_agrees (by decide)
    (agrees_accrue_later (Clock.plain_ofPolicy startPlain policy) sincePlain nowPlain played
      solvent laterPlain ordered)

/-- A backed pool tells its later counts. -/
theorem forecast_of_backed :
    Forecast (policy.standing start history) now standing := by
  apply forecast_of_refills startPlain nowPlain answered
  intro initial enabled orderly finite left
  have refills :=
    refills_of_backed startPlain nowPlain playsPlain backed answered enabled orderly finite left
  obtain ⟨balance, since, sincePlain, played, solvent, accrues⟩ :=
    exists_replay_eq_accrue enabled finite startPlain playsPlain orderly backed
  refine ⟨_, ?_, ?_, refills, Iff.rfl⟩
  · rw [accrues now]
    exact policy.withinCap_accrue _ _ _ _
  · rw [accrues now]
    exact accrue_nonneg (Clock.plain_ofPolicy startPlain policy) sincePlain nowPlain played
      solvent

end

/-- A closed pool reports no cooldown, every other pool the one after the last play. -/
theorem cooldownEnd_cases
    (answered : policy.standing start history now = .ok standing) :
    (policy.fixedCount? history.length = some (.finite 0) ∧ standing.cooldownEnd = none) ∨
      (policy.fixedCount? history.length ≠ some (.finite 0) ∧
        policy.cooldownEnd history now = .ok standing.cooldownEnd) := by
  cases standing_eq_ok_iff.mp answered with
  | disabled off =>
      exact .inl ⟨by simp [fixedCount?, isEnabled, off], rfl⟩
  | infinite enabled _ cooling endless =>
      exact .inr ⟨by simp [fixedCount?, isEnabled, enabled, endless], cooling⟩
  | exhausted enabled _ _ finite usedUp =>
      exact .inl ⟨by simp [fixedCount?, isEnabled, enabled, finite, usedUp], rfl⟩
  | counted enabled _ cooling finite left _ _ =>
      exact .inr ⟨by simp [fixedCount?, isEnabled, enabled, finite, left], cooling⟩

/-- A cooldown that runs is over at a later instant when its end has come. -/
theorem whileRunning_later
    {ends? running later? : Option Instant}
    {later : Instant}
    (ordered : now ≤ later)
    (runsNow : whileRunning now ends? = .ok running)
    (runsLater : whileRunning later ends? = .ok later?) :
    later? = none ↔ ∀ ends, running = some ends → ends ≤ later := by
  cases ends? with
  | none =>
      contradiction
  | some ends =>
      obtain rfl : (if now < ends then some ends else none) = running := by
        simpa [whileRunning] using runsNow
      obtain rfl : (if later < ends then some ends else none) = later? := by
        simpa [whileRunning] using runsLater
      by_cases runs : now < ends
      · simp [runs]
      · have ended : ¬ later < ends :=
          not_lt.mpr (le_trans (not_lt.mp runs) ordered)
        simp [runs, ended]

/-- Without a further play no cooldown runs once the reported one has ended. -/
theorem cooldownEnd_eq_none_iff
    {later : Instant}
    {after : Standing}
    (answered : policy.standing start history now = .ok standing)
    (ordered : now ≤ later)
    (laterAnswered : policy.standing start history later = .ok after) :
    after.cooldownEnd = none ↔ ∀ ends, standing.cooldownEnd = some ends → ends ≤ later := by
  rcases cooldownEnd_cases answered with ⟨closed, quiet⟩ | ⟨notClosed, cooling⟩
  · rcases cooldownEnd_cases laterAnswered with ⟨-, laterQuiet⟩ | ⟨notClosed, -⟩
    · simp [quiet, laterQuiet]
    · exact absurd closed notClosed
  · rcases cooldownEnd_cases laterAnswered with ⟨closed, -⟩ | ⟨-, laterCooling⟩
    · exact absurd closed notClosed
    · cases isLast : history.getLast? with
      | none =>
          simp only [Policy.cooldownEnd, isLast, Except.ok.injEq] at cooling laterCooling
          simp [← cooling, ← laterCooling]
      | some last =>
          simp only [Policy.cooldownEnd, isLast] at cooling laterCooling
          exact whileRunning_later ordered cooling laterCooling

end

end Policy

end TokenBudget
