import Mathlib.Data.Set.Card
import Mathlib.Order.Interval.Finset.Nat
import TokenBudget.Proofs.Pool.Waiting

namespace TokenBudget

/-!
# Counting boundaries and finding the next

The boundaries of a clock lie one, two, three and more periods after its start.
Outside leap seconds the clock counts exactly those that were crossed from one
instant to another, up to the largest word, and finds the first after an instant
unless it would lie where no instants are.  Both agree on where the boundaries are:
no boundary is counted before the next one, and one at least from there on,
`Clock.boundaries_agree_with_next`.
-/

/-- Outside leap seconds there is one instant at a place on the timeline. -/
theorem Instant.eq_of_timeline_eq
    {first second : Instant}
    (firstPlain : first.isLeap = false)
    (secondPlain : second.isLeap = false)
    (same : first.timeline = second.timeline) :
    first = second := by
  apply Option.some.inj
  rw [← atTimeline?_timeline firstPlain, ← atTimeline?_timeline secondPlain, same]

namespace Clock

/-- The numbers of the boundaries after one instant, up to and with another. -/
def crossed
    (clock : Clock)
    (earlier later : Instant) :
    Set Nat :=
  { number |
    1 ≤ number ∧
      earlier.timeline < clock.boundaryPlace number ∧
      clock.boundaryPlace number ≤ later.timeline }

/-- The places on the timeline where boundaries lie after an instant. -/
def placesAfter
    (clock : Clock)
    (now : Instant) :
    Set Int :=
  { place | now.timeline < place ∧ ∃ number : Nat, place = clock.boundaryPlace number }

section

variable
    {clock : Clock}
    (startPlain : clock.start.isLeap = false)

include startPlain

section

variable
    {earlier later : Instant}
    (earlierPlain : earlier.isLeap = false)
    (laterPlain : later.isLeap = false)
    (started : clock.start ≤ earlier)

include earlierPlain laterPlain started

/-- The boundaries that are crossed carry on the numbering from those passed before. -/
theorem crossed_eq_Ioc :
    clock.crossed earlier later =
      Set.Ioc (clock.periods earlier).toNat (clock.periods later).toNat := by
  have passed := periods_nonneg startPlain earlierPlain started
  ext number
  have notReached := boundaryPlace_le_iff startPlain earlierPlain number
  have reached := boundaryPlace_le_iff startPlain laterPlain number
  rw [crossed, Set.mem_ofPred_eq, Set.mem_Ioc]
  omega

theorem finite_crossed :
    (clock.crossed earlier later).Finite := by
  rw [crossed_eq_Ioc startPlain earlierPlain laterPlain started]
  exact Set.finite_Ioc _ _

variable (ordered : earlier ≤ later)

include ordered

/-- As many boundaries are crossed as periods pass. -/
theorem ncard_crossed :
    ((clock.crossed earlier later).ncard : Int) = clock.periods later - clock.periods earlier := by
  have passed := periods_nonneg startPlain earlierPlain started
  have increasing := periods_mono startPlain earlierPlain laterPlain ordered
  rw [crossed_eq_Ioc startPlain earlierPlain laterPlain started, ← Finset.coe_Ioc,
    Set.ncard_coe_finset, Nat.card_Ioc]
  omega

theorem boundaries_eq_ncard :
    clock.boundaries earlier later =
      min ((clock.crossed earlier later).ncard : Int) (largestWord 64) := by
  rw [boundaries_eq_min ordered,
    ncard_crossed startPlain earlierPlain laterPlain started ordered]

omit ordered in
/-- Boundaries crossed on the way to an instant and from there on are all that are crossed. -/
theorem ncard_crossed_split
    {middle : Instant}
    (middlePlain : middle.isLeap = false)
    (before : earlier ≤ middle)
    (after : middle ≤ later) :
    (clock.crossed earlier later).ncard =
      (clock.crossed earlier middle).ncard + (clock.crossed middle later).ncard := by
  have all := ncard_crossed startPlain earlierPlain laterPlain started (le_trans before after)
  have first := ncard_crossed startPlain earlierPlain middlePlain started before
  have second :=
    ncard_crossed startPlain middlePlain laterPlain (le_trans started before) after
  omega

end

section

variable
    {now : Instant}
    (nowPlain : now.isLeap = false)
    (started : clock.start ≤ now)

include nowPlain started

/-- The place of the next boundary is the first of those that lie after an instant. -/
theorem isLeast_nextPlace :
    IsLeast (clock.placesAfter now) (clock.nextPlace now) := by
  have passed := periods_nonneg startPlain nowPlain started
  constructor
  · refine ⟨lt_nextPlace startPlain nowPlain, (clock.periods now + 1).toNat, ?_⟩
    rw [nextPlace_eq_boundaryPlace startPlain, Int.toNat_of_nonneg (by omega)]
  · rintro _ ⟨ahead, number, rfl⟩
    exact nextPlace_le_boundaryPlace startPlain nowPlain ahead

variable (notLonger : clock.period ≤ Duration.longest.toNanos)

include notLonger

theorem fitsWord_nextDistance_of_plain :
    FitsWord 128 ((clock.periods now + 1) * clock.period) :=
  fitsWord_nextDistance (settledPlace_le_nextPlace_of_plain startPlain nowPlain started) notLonger

/-- The next boundary is the instant at its place, if there is one. -/
theorem nextBoundary?_eq_some_iff
    {boundary : Instant} :
    clock.nextBoundary? now = some boundary ↔
      boundary.isLeap = false ∧ boundary.timeline = clock.nextPlace now := by
  have place : clock.nextPlace now = clock.boundaryPlace (clock.periods now + 1) :=
    nextPlace_eq_boundaryPlace startPlain
  rw [place]
  constructor
  · intro found
    exact (nextBoundary?_place startPlain found).symm
  · rintro ⟨plain, atPlace⟩
    -- A boundary is found, since an instant lies at its place, and no other lies there.
    have within := boundary.settledPlace_within.2
    rw [Instant.settledPlace_of_not_leap plain, atPlace, ← place] at within
    have missing :=
      nextBoundary?_eq_none_iff_of_forwards
        (settledPlace_le_nextPlace_of_plain startPlain nowPlain started) notLonger
    obtain ⟨found, finds⟩ :=
      Option.ne_none_iff_exists'.mp (missing.not.mpr (Int.not_lt.mpr within))
    obtain ⟨foundPlace, foundPlain⟩ := nextBoundary?_place startPlain finds
    rw [finds, Instant.eq_of_timeline_eq foundPlain plain (foundPlace.trans atPlace.symm)]

/-- The next boundary is missing when no instant lies at its place. -/
theorem nextBoundary?_eq_none_iff_of_plain :
    clock.nextBoundary? now = none ↔
      ∀ instant : Instant, instant.isLeap = false → instant.timeline ≠ clock.nextPlace now := by
  simp only [Option.eq_none_iff_forall_ne_some, ne_eq,
    nextBoundary?_eq_some_iff startPlain nowPlain started notLonger, not_and]

end

end

section

variable
    {clock : Clock}
    {now later boundary : Instant}
    (startPlain : clock.start.isLeap = false)
    (nowPlain : now.isLeap = false)
    (laterPlain : later.isLeap = false)
    (ordered : now ≤ later)
    (found : clock.nextBoundary? now = some boundary)

include startPlain nowPlain laterPlain ordered found

theorem boundaries_eq_zero_of_lt
    (notReached : later < boundary) :
    clock.boundaries now later = 0 := by
  rw [boundaries_eq_min ordered,
    periods_eq_of_lt_nextBoundary? startPlain nowPlain found laterPlain ordered notReached,
    Int.sub_self, largestWord_64]
  rfl

omit nowPlain in
theorem one_le_boundaries_of_le
    (reached : boundary ≤ later) :
    1 ≤ clock.boundaries now later := by
  have more := lt_periods_of_nextBoundary?_le startPlain found laterPlain reached
  rw [boundaries_eq_min ordered, largestWord_64]
  omega

end

/--
Outside leap seconds, for periods up to the longest length of time: the boundaries
between two instants are counted exactly, up to the largest word, and their exact
numbers add up; the next boundary is the first place after an instant that lies whole
periods after the start, or is missing when there is no instant at this place, and
the distance to it always fits its word; and none is counted before the next boundary
but one at least from there on.
-/
theorem boundaries_agree_with_next
    {clock : Clock}
    (startPlain : clock.start.isLeap = false)
    (notLonger : clock.period ≤ Duration.longest.toNanos) :
    (∀ earlier later : Instant,
        earlier.isLeap = false →
        later.isLeap = false →
        clock.start ≤ earlier →
        earlier ≤ later →
        (clock.crossed earlier later).Finite ∧
          clock.boundaries earlier later =
            min ((clock.crossed earlier later).ncard : Int) (largestWord 64) ∧
          ∀ middle : Instant,
            middle.isLeap = false →
            earlier ≤ middle →
            middle ≤ later →
            (clock.crossed earlier later).ncard =
              (clock.crossed earlier middle).ncard + (clock.crossed middle later).ncard) ∧
      ∀ now : Instant,
        now.isLeap = false →
        clock.start ≤ now →
        FitsWord 128 ((clock.periods now + 1) * clock.period) ∧
          (∃ place,
            IsLeast (clock.placesAfter now) place ∧
              (∀ boundary,
                clock.nextBoundary? now = some boundary ↔
                  boundary.isLeap = false ∧ boundary.timeline = place) ∧
              (clock.nextBoundary? now = none ↔
                ∀ instant : Instant, instant.isLeap = false → instant.timeline ≠ place)) ∧
          ∀ boundary later : Instant,
            clock.nextBoundary? now = some boundary →
            later.isLeap = false →
            now ≤ later →
            (later < boundary → clock.boundaries now later = 0) ∧
              (boundary ≤ later → 1 ≤ clock.boundaries now later) := by
  constructor
  · intro earlier later earlierPlain laterPlain started ordered
    exact ⟨finite_crossed startPlain earlierPlain laterPlain started,
      boundaries_eq_ncard startPlain earlierPlain laterPlain started ordered,
      fun middle => ncard_crossed_split startPlain earlierPlain laterPlain started⟩
  · intro now nowPlain started
    refine ⟨fitsWord_nextDistance_of_plain startPlain nowPlain started notLonger,
      ⟨clock.nextPlace now, isLeast_nextPlace startPlain nowPlain started,
        fun _ => nextBoundary?_eq_some_iff startPlain nowPlain started notLonger,
        nextBoundary?_eq_none_iff_of_plain startPlain nowPlain started notLonger⟩, ?_⟩
    intro boundary later found laterPlain ordered
    exact ⟨boundaries_eq_zero_of_lt startPlain nowPlain laterPlain ordered found,
      one_le_boundaries_of_le startPlain laterPlain ordered found⟩

/-- A clock with a boundary every seven seconds of a day. -/
def sevenSeconds : Clock where
  start := .onDayZero 0
  period := 7 * nanosPerSecond
  period_pos := by decide

/-- A boundary is not after itself, and it counts where it is reached. -/
theorem boundaries_agree_with_next_sevenSeconds :
    sevenSeconds.start.isLeap = false ∧
      sevenSeconds.period ≤ Duration.longest.toNanos ∧
      (sevenSeconds.crossed (.onDayZero 7) (.onDayZero 28)).ncard = 3 ∧
      sevenSeconds.nextBoundary? (.onDayZero 7) = some (.onDayZero 14) ∧
      ∀ later : Instant,
        later.isLeap = false →
        .onDayZero 7 ≤ later →
        (later < .onDayZero 14 → sevenSeconds.boundaries (.onDayZero 7) later = 0) ∧
          (.onDayZero 14 ≤ later → 1 ≤ sevenSeconds.boundaries (.onDayZero 7) later) := by
  have startPlain : sevenSeconds.start.isLeap = false := by
    decide
  have notLonger : sevenSeconds.period ≤ Duration.longest.toNanos := by
    decide
  have found : sevenSeconds.nextBoundary? (.onDayZero 7) = some (.onDayZero 14) := by
    decide +kernel
  have counted : sevenSeconds.boundaries (.onDayZero 7) (.onDayZero 28) = 3 := by
    decide +kernel
  obtain ⟨counts, next⟩ := boundaries_agree_with_next startPlain notLonger
  obtain ⟨_, exactly, _⟩ :=
    counts (.onDayZero 7) (.onDayZero 28) (by decide) (by decide) (by decide) (by decide)
  obtain ⟨_, _, agree⟩ := next (.onDayZero 7) (by decide) (by decide)
  refine ⟨startPlain, notLonger, ?_, found, fun later => agree _ later found⟩
  rw [counted, largestWord_64] at exactly
  omega

end Clock

end TokenBudget
