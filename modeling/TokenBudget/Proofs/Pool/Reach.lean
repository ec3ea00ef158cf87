import TokenBudget.Proofs.Instant.Reach
import TokenBudget.Proofs.Pool.Faults
import TokenBudget.Proofs.Pool.Periods

namespace TokenBudget

/-!
# How far a pool has to reach

`Policy.InReach` tells in plain sums over the timeline which instants an enabled
pool needs for a standing: the end of the cooldown after the last play, and the
next boundary if the counted tokens can still grow.  A pool has a standing exactly
when these are not after the last instant: `Policy.exists_standing_iff`.  Up to year
9999 they never are when period and cooldown take no more than a quarter of a
million years: `Policy.answers_of_brief`.

Plays, start and query may lie in leap seconds.  Elapsed time may then fall short
by almost a second, which is why periods of a second at least are asked for.
-/

namespace Duration

/-- The longest length of time. -/
def longest : Duration where
  seconds := 18446744073709551615
  nanos := 999999999
  nanos_lt := by decide

theorem toNanos_longest :
    longest.toNanos = 18446744073709551615999999999 := by
  decide

theorem toNanos_le_longest (duration : Duration) :
    duration.toNanos ≤ longest.toNanos := by
  have secondsBound := duration.seconds.toNat_lt
  have nanosBound := duration.nanos_lt
  rw [toNanos_longest]
  simp only [toNanos, nanosPerSecond] at *
  omega

theorem toNanos_zero :
    zero.toNanos = 0 := by
  decide

theorem toNanos_ofSeconds (seconds : UInt64) :
    (ofSeconds seconds).toNanos = seconds.toNat * nanosPerSecond := by
  simp [toNanos, ofSeconds]

end Duration

namespace Clock

/-- The place on the timeline of the first boundary after an instant. -/
def nextPlace
    (clock : Clock)
    (now : Instant) :
    Int :=
  clock.start.settledPlace + (clock.periods now + 1) * clock.period

section

variable
    {clock : Clock}
    {now : Instant}

/-- The next boundary lies no more than a period after the elapsed time. -/
theorem nextPlace_le :
    clock.nextPlace now ≤
      clock.start.settledPlace + clock.start.elapsed now + clock.period := by
  have positive : (clock.period : Int) ≠ 0 := by
    exact_mod_cast clock.period_pos.ne'
  have whole := Int.ediv_mul_le (clock.start.elapsed now) positive
  rw [nextPlace, periods, Int.add_mul, Int.one_mul]
  omega

section

variable
    (forwards : clock.start.settledPlace ≤ clock.nextPlace now)
    (notLonger : clock.period ≤ Duration.longest.toNanos)

include forwards notLonger

/-- The next boundary is at most a day and a period after the last instant, far inside the word. -/
theorem fitsWord_nextDistance :
    FitsWord 128 ((clock.periods now + 1) * clock.period) := by
  have notFar := @nextPlace_le clock now
  have elapsedBound := Instant.settledPlace_add_elapsed_le clock.start now
  have startWithin := clock.start.settledPlace_within.1
  have lastDay := now.le_lastDay
  have room :
      (Instant.lastDay + 2) * (secondsPerDay * nanosPerSecond : Nat) +
          Duration.longest.toNanos - Instant.firstPlace ≤
        largestWord 128 := by
    decide
  have lowest : smallestWord 128 ≤ 0 := by
    decide
  simp only [nextPlace, FitsWord, secondsPerDay, nanosPerSecond] at *
  omega

/-- A boundary that is not before the start is there unless it would lie after the last instant. -/
theorem nextBoundary?_eq_none_iff_of_forwards :
    clock.nextBoundary? now = none ↔ Instant.lastPlace < clock.nextPlace now := by
  rw [nextBoundary?, if_pos (fitsWord_nextDistance forwards notLonger),
    Instant.shift?_eq_none_iff]
  · rfl
  · rw [nextPlace] at forwards
    omega

end

variable
    (ordered : clock.start ≤ now)
    (aSecond : nanosPerSecond ≤ clock.period)

include ordered aSecond

theorem settledPlace_le_nextPlace :
    clock.start.settledPlace ≤ clock.nextPlace now := by
  have positive : (0 : Int) < clock.period := by
    exact_mod_cast clock.period_pos
  -- With leap seconds the elapsed time can be below zero, and the periods then count as -1.
  have almost := Instant.neg_lt_elapsed ordered
  have notBefore : -1 ≤ clock.periods now := by
    rw [periods, Int.le_ediv_iff_mul_le positive]
    omega
  have forwards : 0 ≤ (clock.periods now + 1) * clock.period :=
    Int.mul_nonneg (by omega) (Int.le_of_lt positive)
  rw [nextPlace]
  omega

/-- There is a next boundary unless it would lie after the last instant. -/
theorem nextBoundary?_eq_none_iff
    (notLonger : clock.period ≤ Duration.longest.toNanos) :
    clock.nextBoundary? now = none ↔ Instant.lastPlace < clock.nextPlace now :=
  nextBoundary?_eq_none_iff_of_forwards (settledPlace_le_nextPlace ordered aSecond) notLonger

end

/-!
Outside leap seconds the next place is the first boundary after an instant.
-/

section

variable
    {clock : Clock}
    {now : Instant}
    (startPlain : clock.start.isLeap = false)

include startPlain

theorem nextPlace_eq_boundaryPlace :
    clock.nextPlace now = clock.boundaryPlace (clock.periods now + 1) := by
  rw [nextPlace, boundaryPlace, Instant.settledPlace_of_not_leap startPlain]

variable (nowPlain : now.isLeap = false)

include nowPlain

theorem lt_nextPlace :
    now.timeline < clock.nextPlace now := by
  have notReached := boundaryPlace_le_iff startPlain nowPlain (clock.periods now + 1)
  rw [nextPlace_eq_boundaryPlace startPlain]
  omega

theorem nextPlace_le_boundaryPlace
    {index : Int}
    (ahead : now.timeline < clock.boundaryPlace index) :
    clock.nextPlace now ≤ clock.boundaryPlace index := by
  have notReached := boundaryPlace_le_iff startPlain nowPlain index
  rw [nextPlace_eq_boundaryPlace startPlain]
  exact clock.boundaryPlace_mono (by omega)

theorem settledPlace_le_nextPlace_of_plain
    (started : clock.start ≤ now) :
    clock.start.settledPlace ≤ clock.nextPlace now := by
  have fromStart := (Instant.le_iff_timeline startPlain nowPlain).mp started
  rw [Instant.settledPlace_of_not_leap startPlain]
  exact Int.le_trans fromStart (Int.le_of_lt (lt_nextPlace startPlain nowPlain))

end

/-- A policy without a period has one of a second in its stead. -/
theorem period_ofPolicy
    (start : Instant)
    (policy : Policy) :
    (ofPolicy start policy).period =
      if 0 < policy.period.toNanos then policy.period.toNanos else nanosPerSecond := by
  rw [ofPolicy]
  split <;> rfl

theorem period_ofPolicy_le_longest
    (start : Instant)
    (policy : Policy) :
    (ofPolicy start policy).period ≤ Duration.longest.toNanos := by
  rw [period_ofPolicy]
  split
  · exact policy.period.toNanos_le_longest
  · decide

end Clock

namespace Policy

/-- The instants that an enabled pool needs for a standing. -/
structure InReach
    (policy : Policy)
    (initial : UInt32)
    (start : Instant)
    (history : List Instant)
    (now : Instant) :
    Prop where
  /-- Nothing was played before the start. -/
  started : ∀ played ∈ history, start ≤ played
  /-- The cooldown after the last play ends where instants are. -/
  cooldown :
    ∀ last,
      history.getLast? = some last →
      last.settledPlace + policy.cooldown.toNanos ≤ Instant.lastPlace
  /-- While counted tokens can grow, the next boundary lies where instants are. -/
  growth :
    policy.isInfinite = false →
    policy.isExhausted history.length = false →
    0 < policy.perPeriod →
    policy.isSaturated
        (policy.replay (Clock.ofPolicy start policy) now initial.toNat start history) =
      false →
    (Clock.ofPolicy start policy).nextPlace now ≤ Instant.lastPlace

/-- A pool needs nothing for a standing while it is disabled, and is otherwise in reach. -/
def Answers
    (policy : Policy)
    (start : Instant)
    (history : List Instant)
    (now : Instant) :
    Prop :=
  ∀ initial,
    policy.initial = some initial →
    policy.InReach initial start history now

section

variable
    {policy : Policy}
    {start now : Instant}
    {history : List Instant}
    (ordered : start ≤ now)
    (sorted : history.Pairwise (· ≤ ·))
    (past : ∀ played ∈ history, played ≤ now)

include ordered

/-- A pool is out of reach when an instant that it needs would lie after the last one. -/
theorem outOfReach_iff
    {initial : UInt32}
    (aSecond : nanosPerSecond ≤ (Clock.ofPolicy start policy).period)
    (started : ∀ played ∈ history, start ≤ played) :
    policy.OutOfReach initial start history now ↔
      ¬ policy.InReach initial start history now := by
  have noBoundary :=
    Clock.nextBoundary?_eq_none_iff ((Clock.start_ofPolicy start policy).symm ▸ ordered)
      aSecond (Clock.period_ofPolicy_le_longest start policy)
  have noEnd (last : Instant) :
      last.shift? policy.cooldown.toNanos = none ↔
        Instant.lastPlace < last.settledPlace + policy.cooldown.toNanos :=
    Instant.shift?_eq_none_iff (Int.natCast_nonneg _)
  constructor
  · rintro (⟨isLast, beyond⟩ | ⟨finite, left, generates, room, beyond⟩) inReach
    · have ends := inReach.cooldown _ isLast
      rw [noEnd] at beyond
      omega
    · have boundary := inReach.growth finite left generates room
      rw [noBoundary] at beyond
      omega
  · intro outOfReach
    by_contra reaches
    refine outOfReach ⟨started, ?_, ?_⟩
    · intro last isLast
      refine Int.not_lt.mp fun beyond => reaches (.cooldown isLast ?_)
      exact (noEnd last).mpr beyond
    · intro finite left generates room
      refine Int.not_lt.mp fun beyond => reaches (.growth finite left generates room ?_)
      exact noBoundary.mpr beyond

include sorted past

/-- A pool with its plays in order up to the query has a standing exactly when it is in reach. -/
theorem exists_standing_iff
    (aSecond : nanosPerSecond ≤ (Clock.ofPolicy start policy).period) :
    (∃ standing, policy.standing start history now = .ok standing) ↔
      policy.Answers start history now := by
  cases enabled : policy.initial with
  | none =>
      simp [standing, Answers, enabled]
  | some initial =>
      simp only [Answers, enabled, Option.some.injEq, forall_eq']
      constructor
      · rintro ⟨standing, answered⟩
        have orderly := orderly_of_standing enabled answered
        by_contra outOfReach
        have failed :=
          (standing_eq_error_iff enabled).mpr
            (.inr ⟨orderly, rfl,
              (outOfReach_iff ordered aSecond fun played member =>
                (orderly.within played member).1).mpr outOfReach⟩)
        rw [answered] at failed
        contradiction
      · intro inReach
        cases answer : policy.standing start history now with
        | ok standing =>
            exact ⟨standing, rfl⟩
        | error fault =>
            have orderly : Orderly start now history :=
              ⟨ordered, sorted, fun played member =>
                ⟨inReach.started played member, past played member⟩⟩
            rcases (standing_eq_error_iff enabled).mp answer with atFault | ⟨-, -, outOfReach⟩
            · rw [timelineFault?_eq_none_iff.mpr orderly] at atFault
              contradiction
            · exact absurd inReach
                ((outOfReach_iff ordered aSecond inReach.started).mp outOfReach)

omit sorted ordered in
/-- Up to year 9999 a pool whose period and cooldown are brief is in reach. -/
theorem answers_of_brief
    (early : now.year ≤ 9999)
    (started : ∀ played ∈ history, start ≤ played)
    (briefCooldown :
      policy.cooldown.toNanos ≤ Instant.quarterMillionYears * nanosPerSecond)
    (briefPeriod :
      (Clock.ofPolicy start policy).period ≤
        Instant.quarterMillionYears * nanosPerSecond) :
    policy.Answers start history now := by
  have reach := Instant.reach_of_year_le early
  refine fun initial _ => ⟨started, ?_, ?_⟩
  · intro last isLast
    have lastBefore := past last (List.mem_of_getLast? isLast)
    have lastPlace := last.settledPlace_bounds.2
    have lastSecond := last.second_lt
    rw [Instant.le_iff] at lastBefore
    simp only [secondsPerDay, nanosPerSecond] at *
    omega
  · intro _ _ _ _
    have boundary := @Clock.nextPlace_le (Clock.ofPolicy start policy) now
    have elapsedBound :=
      Instant.settledPlace_add_elapsed_le (Clock.ofPolicy start policy).start now
    omega

end

end Policy

end TokenBudget
