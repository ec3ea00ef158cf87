import TokenBudget.Proofs.Instant.Elapsed
import TokenBudget.Proofs.Pool.Backing
import TokenBudget.Proofs.Pool.ExactCount
import TokenBudget.Proofs.Pool.Reach

namespace TokenBudget

/-!
# Waiting

Without a further play the count of a pool follows the elapsed time: as long as
this does not go back, no pool loses tokens, whatever its history.  Where elapsed
time goes back, about a leap second, some pool does: `Policy.count_lt_of_back`.
So pools keep their tokens exactly as far as elapsed time goes forwards, and a
cooldown that is over stays over in any case: `Policy.waiting_keeps_tokens_iff`.
-/

namespace Duration

/-- As many seconds as a word counts can be split into seconds and nanoseconds. -/
theorem exists_toNanos_eq
    {nanos : Nat}
    (short : nanos < 2 ^ 64 * nanosPerSecond) :
    ∃ duration : Duration, duration.toNanos = nanos := by
  have few : nanos / nanosPerSecond < 2 ^ 64 := by
    apply Nat.div_lt_of_lt_mul
    rwa [Nat.mul_comm]
  refine ⟨⟨.ofNat (nanos / nanosPerSecond), nanos % nanosPerSecond,
    Nat.mod_lt _ nanosPerSecond_pos⟩, ?_⟩
  rw [toNanos, UInt64.toNat_ofNat_of_lt' few, Nat.div_add_mod']

end Duration

theorem saturate_mono
    {smaller larger : Int}
    (ordered : smaller ≤ larger) :
    saturate smaller ≤ saturate larger := by
  simp only [saturate]
  omega

namespace Clock

section

variable
    {clock : Clock}
    {earlier later : Instant}

theorem periods_le_of_elapsed_le
    (forwards : clock.start.elapsed earlier ≤ clock.start.elapsed later) :
    clock.periods earlier ≤ clock.periods later :=
  Int.ediv_le_ediv (by exact_mod_cast clock.period_pos) forwards

/-- Elapsed time goes back by so little that the periods passed fit a word. -/
theorem smallestWord_le_periods_sub
    (ordered : earlier ≤ later) :
    smallestWord 64 ≤ clock.periods later - clock.periods earlier := by
  have positive : (0 : Int) < clock.period := by
    exact_mod_cast clock.period_pos
  have notFarBack :
      clock.start.elapsed earlier ≤
        clock.start.elapsed later + (3 * nanosPerSecond : Nat) * clock.period := by
    have back := @Instant.elapsed_lt_add clock.start _ _ ordered
    simp only [nanosPerSecond] at *
    omega
  have periods :
      clock.periods earlier ≤ clock.periods later + (3 * nanosPerSecond : Nat) := by
    rw [Clock.periods, Clock.periods,
      ← Int.add_mul_ediv_right _ _ (Int.ne_of_gt positive)]
    exact Int.ediv_le_ediv positive notFarBack
  simp only [smallestWord_64, nanosPerSecond] at *
  omega

theorem boundaries_eq_min
    (ordered : earlier ≤ later) :
    clock.boundaries earlier later =
      min (clock.periods later - clock.periods earlier) (largestWord 64) := by
  have notBelow := @smallestWord_le_periods_sub clock _ _ ordered
  simp only [boundaries]
  split <;> simp only [FitsWord] at * <;> omega

end

end Clock

namespace Policy

section

variable
    {policy : Policy}
    {clock : Clock}
    {since now later : Instant}

/-- The more periods have passed since a play, the more a pool has accrued. -/
theorem accrue_mono
    (played : since ≤ now)
    (ordered : now ≤ later)
    (periods : clock.periods now ≤ clock.periods later)
    (balance : Int) :
    policy.accrue clock balance since now ≤ policy.accrue clock balance since later := by
  have boundaries : clock.boundaries since now ≤ clock.boundaries since later := by
    rw [Clock.boundaries_eq_min played, Clock.boundaries_eq_min (le_trans played ordered)]
    omega
  have added :
      clock.boundaries since now * (policy.perPeriod.toNat : Int) ≤
        clock.boundaries since later * policy.perPeriod.toNat :=
    Int.mul_le_mul_of_nonneg_right boundaries (Int.natCast_nonneg _)
  rw [accrue, accrue]
  exact policy.capped_mono (saturate_mono (Int.add_le_add_left (saturate_mono added) balance))

variable
    {initial : UInt32}
    {start : Instant}
    {history : List Instant}
    {before after : Standing}

theorem replay_mono
    (orderly : Orderly start now history)
    (ordered : now ≤ later)
    (forwards : start.elapsed now ≤ start.elapsed later) :
    policy.replay (Clock.ofPolicy start policy) now initial.toNat start history ≤
      policy.replay (Clock.ofPolicy start policy) later initial.toNat start history := by
  obtain ⟨since, isPlay, remaining, accrues⟩ :=
    policy.exists_accrue_since (Clock.ofPolicy start policy) initial.toNat start history
  have played : since ≤ now := by
    rcases List.mem_cons.mp isPlay with rfl | member
    · exact orderly.started
    · exact (orderly.within since member).2
  have periods :
      (Clock.ofPolicy start policy).periods now ≤ (Clock.ofPolicy start policy).periods later :=
    Clock.periods_le_of_elapsed_le (by rwa [Clock.start_ofPolicy])
  rw [accrues, accrues]
  exact accrue_mono played ordered periods remaining

/-- A pool loses no tokens while elapsed time goes forwards. -/
theorem count_le_of_elapsed_le
    (ordered : now ≤ later)
    (forwards : start.elapsed now ≤ start.elapsed later)
    (answered : policy.standing start history now = .ok before)
    (laterAnswered : policy.standing start history later = .ok after) :
    before.count ≤ after.count := by
  cases fixed : policy.fixedCount? history.length with
  | some count =>
      rw [(count_of_fixedCount? fixed answered).1, (count_of_fixedCount? fixed laterAnswered).1]
  | none =>
      obtain ⟨isEnabled, finite, left⟩ := fixedCount?_eq_none_iff.mp fixed
      obtain ⟨initial, enabled⟩ := Option.isSome_iff_exists.mp isEnabled
      rw [count_eq_ofBalance_replay enabled finite left answered,
        count_eq_ofBalance_replay enabled finite left laterAnswered]
      apply TokenCount.ofBalance_mono
      apply policy.spendable_mono
      exact replay_mono (orderly_of_standing enabled answered) ordered forwards

end

/-- A pool for one token, without plays. -/
def singleToken
    (initial : UInt32)
    (period : Duration) :
    Policy :=
  { disabled with
    initial := some initial
    cap := some 1
    period := period
    perPeriod := 1 }

section

variable
    {initial : UInt32}
    {period : Duration}
    {start now : Instant}
    (positive : 0 < period.toNanos)
    (started : start ≤ now)

include positive

theorem clock_singleToken :
    Clock.ofPolicy start (singleToken initial period) = ⟨start, period.toNanos, positive⟩ :=
  dif_pos positive

include started

/-- The pool for one token has it when the elapsed periods have brought it. -/
theorem replay_singleToken :
    (singleToken initial period).replay (Clock.ofPolicy start (singleToken initial period)) now
        initial.toNat start [] =
      min (initial.toNat + start.elapsed now / period.toNanos) 1 := by
  have fromStart : (Clock.mk start period.toNanos positive).periods start = 0 :=
    Clock.periods_start
  have notBelow := @Clock.smallestWord_le_periods_sub ⟨start, _, positive⟩ _ _ started
  have initialSmall := initial.toNat_lt
  rw [clock_singleToken positive, replay, accrue, Clock.boundaries_eq_min started]
  rw [fromStart, Int.sub_zero] at notBelow ⊢
  simp only [Clock.periods, capped, singleToken, saturate, smallestWord_64, largestWord_64,
    UInt32.toNat_one] at *
  omega

theorem count_singleToken
    {growth : Option Instant}
    {balance : Int}
    (brought : min (initial.toNat + start.elapsed now / period.toNanos : Int) 1 = balance)
    (growing :
      (singleToken initial period).nextGrowth
          (Clock.ofPolicy start (singleToken initial period)) now balance =
        .ok growth) :
    ∃ standing,
      (singleToken initial period).standing start [] now = .ok standing ∧
        standing.count = .ofBalance balance := by
  have orderly : Orderly start now [] := ⟨started, .nil, by simp⟩
  have finite : (singleToken initial period).isInfinite = false := by
    simp [isInfinite, singleToken, Nat.ne_of_gt positive]
  have replayed := (replay_singleToken positive started).trans brought
  exact ⟨_, standing_eq_ok_iff.mpr (.counted rfl orderly rfl finite rfl replayed growing), rfl⟩

end

/-- Elapsed time that goes back is a distance that there are periods and instants for. -/
theorem exists_period_of_back
    {start now later : Instant}
    (ordered : now ≤ later)
    (back : start.elapsed later < start.elapsed now)
    (positive : 0 < start.elapsed now) :
    (∃ period : Duration, period.toNanos = start.elapsed now) ∧
      FitsWord 128 (start.elapsed now) ∧
      start.shift? (start.elapsed now) ≠ none := by
  have inRange := Instant.settledPlace_add_elapsed_of_back ordered back
  have startRange := start.settledPlace_within.1
  have narrow := Instant.lastPlace_lt_longestShift
  have short : start.elapsed now < Instant.longestShift := by
    omega
  have shortWord : (Instant.longestShift : Int) ≤ largestWord 128 := by
    decide
  have shortDuration : Instant.longestShift < 2 ^ 64 * nanosPerSecond := by
    decide
  refine ⟨?_, ⟨?_, ?_⟩, ?_⟩
  · obtain ⟨nanos, sameNanos⟩ := Int.eq_ofNat_of_zero_le (Int.le_of_lt positive)
    rw [sameNanos] at short ⊢
    obtain ⟨period, length⟩ := @Duration.exists_toNanos_eq nanos (by omega)
    exact ⟨period, by rw [length]⟩
  · have lowest : smallestWord 128 ≤ 0 := by
      decide
    omega
  · omega
  · rw [ne_eq, Instant.shift?_eq_none_iff (Int.le_of_lt positive)]
    omega

section

variable
    {start now later : Instant}
    (started : start ≤ now)
    (ordered : now ≤ later)

include started ordered

/-- The pool for one token loses it when the periods that brought it are taken back. -/
theorem count_singleToken_lt
    {initial : UInt32}
    {period : Duration}
    (positive : 0 < period.toNanos)
    (brought : 1 ≤ initial.toNat + start.elapsed now / period.toNanos)
    (taken : initial.toNat + start.elapsed later / period.toNanos = (0 : Int))
    (found : (Clock.ofPolicy start (singleToken initial period)).nextBoundary? later ≠ none) :
    ∃ (policy : Policy) (before after : Standing),
      policy.standing start [] now = .ok before ∧
        policy.standing start [] later = .ok after ∧
        after.count < before.count := by
  obtain ⟨growth, isNext⟩ := Option.ne_none_iff_exists'.mp found
  have full :
      (singleToken initial period).nextGrowth
          (Clock.ofPolicy start (singleToken initial period)) now 1 =
        .ok none :=
    rfl
  have growing :
      (singleToken initial period).nextGrowth
          (Clock.ofPolicy start (singleToken initial period)) later 0 =
        .ok (some growth) := by
    refine (if_pos rfl).trans ?_
    rw [isNext]
  obtain ⟨before, answered, one⟩ :=
    count_singleToken positive started (Int.min_eq_right brought) full
  obtain ⟨after, laterAnswered, lost⟩ :=
    count_singleToken positive (le_trans started ordered) (by rw [taken]; rfl) growing
  refine ⟨_, before, after, answered, laterAnswered, ?_⟩
  rw [one, lost]
  decide

/--
Where elapsed time goes back below zero, a pool with periods of a nanosecond loses its
token: just as many of them are taken back as there are initial tokens.
-/
theorem count_lt_of_back_of_neg
    (back : start.elapsed later < start.elapsed now)
    (fallen : start.elapsed later < 0) :
    ∃ (policy : Policy) (before after : Standing),
      policy.standing start [] now = .ok before ∧
        policy.standing start [] later = .ok after ∧
        after.count < before.count := by
  obtain ⟨period, length⟩ := @Duration.exists_toNanos_eq 1 (by decide)
  have positive : 0 < period.toNanos := by
    omega
  have startsInLeap := Instant.isLeap_of_elapsed_neg (le_trans started ordered) fallen
  have almost := Instant.neg_lt_elapsed (le_trans started ordered)
  have tokens :
      (UInt32.ofNat (start.elapsed later).natAbs).toNat = (start.elapsed later).natAbs := by
    apply UInt32.toNat_ofNat_of_lt'
    simp only [UInt32.size, nanosPerSecond] at *
    omega
  have fits : FitsWord 128 (start.elapsed later + 1) := by
    have lowest : smallestWord 128 ≤ -(nanosPerSecond : Int) := by
      decide
    have highest : 0 ≤ largestWord 128 := by
      decide
    exact ⟨by omega, by omega⟩
  have nextDistance :
      (start.elapsed later / period.toNanos + 1) * period.toNanos = start.elapsed later + 1 := by
    rw [length, Int.natCast_one, Int.ediv_one, Int.mul_one]
  obtain ⟨boundary, shifted⟩ :=
    Instant.exists_shift?_of_leap startsInLeap (Int.add_one_le_of_lt fallen) (by omega)
  refine @count_singleToken_lt _ _ _ started ordered (.ofNat (start.elapsed later).natAbs)
    period positive ?_ ?_ ?_
  · rw [tokens, length, Int.natCast_one, Int.ediv_one]
    omega
  · rw [tokens, length, Int.natCast_one, Int.ediv_one]
    omega
  · rw [clock_singleToken positive, Clock.nextBoundary?, Clock.periods, nextDistance,
      if_pos fits, shifted]
    exact Option.some_ne_none boundary

/-- Where elapsed time goes back, a pool for one token loses it. -/
theorem count_lt_of_back
    (back : start.elapsed later < start.elapsed now) :
    ∃ (policy : Policy) (before after : Standing),
      policy.standing start [] now = .ok before ∧
        policy.standing start [] later = .ok after ∧
        after.count < before.count := by
  by_cases fallen : start.elapsed later < 0
  · exact count_lt_of_back_of_neg started ordered back fallen
  · -- With periods of the elapsed time, one has passed before and none after.
    obtain ⟨⟨period, length⟩, fits, inRange⟩ :=
      exists_period_of_back ordered back (by omega)
    have positive : 0 < period.toNanos := by
      omega
    have onePeriod : start.elapsed now / period.toNanos = 1 := by
      rw [length]
      exact Int.ediv_self (by omega)
    have noPeriod : start.elapsed later / period.toNanos = 0 := by
      rw [length]
      exact Int.ediv_eq_zero_of_lt (by omega) back
    refine @count_singleToken_lt _ _ _ started ordered 0 period positive ?_ ?_ ?_
    · rw [onePeriod]
      decide
    · rw [noPeriod]
      rfl
    · rw [clock_singleToken positive, Clock.nextBoundary?, Clock.periods, noPeriod, Int.zero_add,
        Int.one_mul, length, if_pos fits]
      exact inRange

/--
While time passes without a play, pools keep their tokens exactly as far as elapsed
time goes forwards, and a cooldown that is over stays over.  Elapsed time goes back
only when the start or one of the two queries lies in a leap second, and not up to a
query three seconds later.
-/
theorem waiting_keeps_tokens_iff :
    ((∀ (policy : Policy) (history : List Instant) (before after : Standing),
          policy.standing start history now = .ok before →
          policy.standing start history later = .ok after →
          before.count ≤ after.count) ↔
        start.elapsed now ≤ start.elapsed later) ∧
      (∀ (policy : Policy) (history : List Instant) (before after : Standing),
        policy.standing start history now = .ok before →
        policy.standing start history later = .ok after →
        before.cooldownEnd = none →
        after.cooldownEnd = none) ∧
      (start.elapsed later < start.elapsed now →
        (start.isLeap = true ∨ now.isLeap = true ∨ later.isLeap = true) ∧
          later.secondCount < now.secondCount + 3) := by
  refine ⟨⟨?_, ?_⟩, ?_, Instant.elapsed_back ordered⟩
  · intro keeps
    by_contra notForwards
    obtain ⟨policy, before, after, answered, laterAnswered, lost⟩ :=
      count_lt_of_back started ordered (Int.not_le.mp notForwards)
    exact absurd (keeps policy [] before after answered laterAnswered) (not_le.mpr lost)
  · intro forwards policy history before after answered laterAnswered
    exact count_le_of_elapsed_le ordered forwards answered laterAnswered
  · intro policy history before after answered laterAnswered noCooldown
    rw [cooldownEnd_eq_none_iff answered ordered laterAnswered, noCooldown]
    intro ends running
    contradiction

end

/--
From the middle of the leap second that follows 59 seconds, no pool that began at zero
loses tokens up to 61 seconds, but some pool does up to 60 seconds.
-/
theorem waiting_keeps_tokens_iff_leapSecond :
    (∀ (policy : Policy) (history : List Instant) (before after : Standing),
        policy.standing (.onDayZero 0) history .inLeapSecond = .ok before →
        policy.standing (.onDayZero 0) history (.onDayZero 61) = .ok after →
        before.count ≤ after.count) ∧
      ¬ ∀ (policy : Policy) (history : List Instant) (before after : Standing),
        policy.standing (.onDayZero 0) history .inLeapSecond = .ok before →
        policy.standing (.onDayZero 0) history (.onDayZero 60) = .ok after →
        before.count ≤ after.count := by
  have started : Instant.onDayZero 0 ≤ .inLeapSecond := by
    decide
  have toSixtyOne :=
    @waiting_keeps_tokens_iff (.onDayZero 0) .inLeapSecond (.onDayZero 61) started (by decide)
  have toSixty :=
    @waiting_keeps_tokens_iff (.onDayZero 0) .inLeapSecond (.onDayZero 60) started (by decide)
  exact ⟨toSixtyOne.1.mpr (by decide), fun keeps => absurd (toSixty.1.mp keeps) (by decide)⟩

/--
In the leap second that follows 59 seconds a pool has a token that it does not have at
60 seconds, although both queries are in order and nothing was played.
-/
theorem count_lt_after_leapSecond :
    (singleToken 0 minutePool.period).isEnabled = true ∧
      Instant.onDayZero 0 ≤ .inLeapSecond ∧
      Instant.inLeapSecond ≤ .onDayZero 60 ∧
      ((singleToken 0 minutePool.period).standing (.onDayZero 0) [] .inLeapSecond).map
          Standing.count =
        .ok (.finite 1) ∧
      ((singleToken 0 minutePool.period).standing (.onDayZero 0) [] (.onDayZero 60)).map
          Standing.count =
        .ok (.finite 0) ∧
      TokenCount.finite 0 < .finite 1 := by
  decide +kernel

end Policy

end TokenBudget
