import Mathlib.Algebra.Order.Ring.Int
import TokenBudget.Pool.Clock
import TokenBudget.Proofs.Instant.Plain

namespace TokenBudget

/-!
# Periods of a generation clock

Outside leap seconds the whole periods up to an instant are counted by the
boundaries that are not after it: `Clock.boundaryPlace_le_iff`.  The next
boundary after an instant ends the period in which the instant lies.
-/

theorem largestWord_64 :
    largestWord 64 = 9223372036854775807 := by
  decide

theorem smallestWord_64 :
    smallestWord 64 = -9223372036854775808 := by
  decide

theorem saturate_of_nonneg
    {value : Int}
    (nonneg : 0 ≤ value) :
    saturate value = min value (largestWord 64) := by
  simp only [saturate, largestWord_64, smallestWord_64]
  omega

namespace Clock

/-- The place on the timeline where so many periods have passed. -/
def boundaryPlace
    (clock : Clock)
    (index : Int) :
    Int :=
  clock.start.timeline + index * clock.period

@[simp]
theorem boundaryPlace_zero (clock : Clock) :
    clock.boundaryPlace 0 = clock.start.timeline := by
  simp [boundaryPlace]

theorem boundaryPlace_succ
    (clock : Clock)
    (index : Int) :
    clock.boundaryPlace (index + 1) = clock.boundaryPlace index + clock.period := by
  rw [boundaryPlace, boundaryPlace, Int.add_mul, Int.one_mul]
  omega

theorem boundaryPlace_mono
    (clock : Clock)
    {first second : Int}
    (ordered : first ≤ second) :
    clock.boundaryPlace first ≤ clock.boundaryPlace second := by
  have distances : first * clock.period ≤ second * clock.period :=
    Int.mul_le_mul_of_nonneg_right ordered (Int.natCast_nonneg _)
  rw [boundaryPlace, boundaryPlace]
  omega

section

variable
    {clock : Clock}
    (startPlain : clock.start.isLeap = false)

include startPlain

theorem periods_of_not_leap
    {instant : Instant}
    (plain : instant.isLeap = false) :
    clock.periods instant = (instant.timeline - clock.start.timeline) / clock.period := by
  rw [periods, Instant.elapsed_of_not_leap startPlain plain]

/-- A boundary is reached when that many whole periods have passed. -/
theorem boundaryPlace_le_iff
    {instant : Instant}
    (plain : instant.isLeap = false)
    (index : Int) :
    clock.boundaryPlace index ≤ instant.timeline ↔ index ≤ clock.periods instant := by
  have positive : (0 : Int) < clock.period := by
    exact_mod_cast clock.period_pos
  rw [periods_of_not_leap startPlain plain, Int.le_ediv_iff_mul_le positive, boundaryPlace]
  omega

omit startPlain in
@[simp]
theorem periods_start :
    clock.periods clock.start = 0 := by
  simp [periods]

/-- Later instants lie no fewer periods after the start. -/
theorem periods_mono
    {earlier later : Instant}
    (earlierPlain : earlier.isLeap = false)
    (laterPlain : later.isLeap = false)
    (ordered : earlier ≤ later) :
    clock.periods earlier ≤ clock.periods later := by
  rw [← boundaryPlace_le_iff startPlain laterPlain]
  have reached :=
    (boundaryPlace_le_iff startPlain earlierPlain (clock.periods earlier)).mpr (Int.le_refl _)
  exact Int.le_trans reached
    ((Instant.le_iff_timeline earlierPlain laterPlain).mp ordered)

theorem periods_nonneg
    {instant : Instant}
    (plain : instant.isLeap = false)
    (started : clock.start ≤ instant) :
    0 ≤ clock.periods instant := by
  rw [← @periods_start clock]
  exact periods_mono startPlain startPlain plain started

/-- What the boundaries add is cut at the largest word only once, after all of them. -/
theorem saturate_boundaries_mul
    {earlier later : Instant}
    (earlierPlain : earlier.isLeap = false)
    (laterPlain : later.isLeap = false)
    (ordered : earlier ≤ later)
    (amount : Nat) :
    saturate (clock.boundaries earlier later * amount) =
      min ((clock.periods later - clock.periods earlier) * amount) (largestWord 64) := by
  have increasing := periods_mono startPlain earlierPlain laterPlain ordered
  have crossedNonneg :
      0 ≤ clock.periods later - clock.periods earlier := by
    omega
  simp only [boundaries]
  generalize clock.periods later - clock.periods earlier = crossed at crossedNonneg
  have allNonneg : 0 ≤ crossed * amount :=
    Int.mul_nonneg crossedNonneg (Int.natCast_nonneg amount)
  by_cases fits : FitsWord 64 crossed
  · rw [if_pos fits]
    exact saturate_of_nonneg allNonneg
  · rw [if_neg fits]
    have tooMany : largestWord 64 < crossed := by
      simp only [FitsWord, smallestWord_64, largestWord_64] at *
      omega
    cases amount with
    | zero =>
        simp [saturate_of_nonneg]
    | succ amount =>
        have wordNonneg : 0 ≤ largestWord 64 := by
          decide
        have amountPositive : (1 : Int) ≤ (amount + 1 : Nat) := by
          omega
        have wordReached :
            largestWord 64 ≤ largestWord 64 * (amount + 1 : Nat) :=
          le_mul_of_one_le_right wordNonneg amountPositive
        have crossedReached :
            crossed ≤ crossed * (amount + 1 : Nat) :=
          le_mul_of_one_le_right crossedNonneg amountPositive
        rw [saturate_of_nonneg (Int.le_trans wordNonneg wordReached),
          Int.min_eq_right wordReached,
          Int.min_eq_right (Int.le_trans (Int.le_of_lt tooMany) crossedReached)]

section

variable
    {instant boundary : Instant}
    (plain : instant.isLeap = false)
    (found : clock.nextBoundary? instant = some boundary)

include found

/-- The next boundary lies at the end of the period that is not over yet. -/
theorem nextBoundary?_place :
    boundary.timeline = clock.boundaryPlace (clock.periods instant + 1) ∧
      boundary.isLeap = false := by
  simp only [nextBoundary?] at found
  split at found
  · exact Instant.timeline_of_shift? startPlain found
  · contradiction

/-- From the next boundary on, one more period at least has passed. -/
theorem lt_periods_of_nextBoundary?_le
    {later : Instant}
    (laterPlain : later.isLeap = false)
    (reached : boundary ≤ later) :
    clock.periods instant < clock.periods later := by
  obtain ⟨place, boundaryPlain⟩ := nextBoundary?_place startPlain found
  rw [Instant.le_iff_timeline boundaryPlain laterPlain, place,
    boundaryPlace_le_iff startPlain laterPlain] at reached
  omega

include plain

/-- The next boundary has not been reached. -/
theorem lt_nextBoundary? :
    instant < boundary := by
  obtain ⟨place, boundaryPlain⟩ := nextBoundary?_place startPlain found
  have notReached :=
    (boundaryPlace_le_iff startPlain plain (clock.periods instant + 1)).not
  rw [Instant.lt_iff_timeline plain boundaryPlain, place]
  omega

/-- Until the next boundary no further period passes. -/
theorem periods_eq_of_lt_nextBoundary?
    {later : Instant}
    (laterPlain : later.isLeap = false)
    (ordered : instant ≤ later)
    (notReached : later < boundary) :
    clock.periods later = clock.periods instant := by
  obtain ⟨place, boundaryPlain⟩ := nextBoundary?_place startPlain found
  have increasing := periods_mono startPlain plain laterPlain ordered
  rw [← not_le, Instant.le_iff_timeline boundaryPlain laterPlain, place,
    boundaryPlace_le_iff startPlain laterPlain] at notReached
  omega

end

end

@[simp]
theorem start_ofPolicy
    (start : Instant)
    (policy : Policy) :
    (ofPolicy start policy).start = start := by
  unfold ofPolicy
  split <;> rfl

end Clock

end TokenBudget
