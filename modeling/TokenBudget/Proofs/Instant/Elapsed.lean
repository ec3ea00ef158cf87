import TokenBudget.Proofs.Instant.Reach

namespace TokenBudget

/-!
# Elapsed time from one instant to the next

Outside leap seconds elapsed time grows with the instant.  In and after a leap
second it can go back, since the leap second counts into the second before it or
into the one after it: `Instant.elapsed_back`.  It goes back by less than three
seconds, and never up to an instant three seconds later.  It falls below zero only
from a leap second, and where it goes back a shift by it ends where instants are.
-/

namespace Instant

/-- Seconds from the start of day zero, without leap seconds. -/
def secondCount (instant : Instant) : Int :=
  instant.day * secondsPerDay + instant.second

theorem secondCount_le
    {earlier later : Instant}
    (ordered : earlier ≤ later) :
    earlier.secondCount ≤ later.secondCount := by
  have earlierSecond := earlier.second_lt
  have laterSecond := later.second_lt
  simp only [le_iff, secondCount, secondsPerDay] at *
  omega

/-- Elapsed time leads into the second of an instant or one of the two after it. -/
theorem elapsed_within (origin instant : Instant) :
    instant.secondCount * nanosPerSecond ≤ origin.timeline + origin.elapsed instant ∧
      origin.timeline + origin.elapsed instant <
        (instant.secondCount + 3) * nanosPerSecond := by
  obtain ⟨leapSecond, distance, notMore, notLess, -⟩ := exists_elapsed_eq origin instant
  have nanoBound := instant.nano_lt
  rw [distance]
  simp only [timeline, secondCount, nanosPerSecond, secondsPerDay] at *
  omega

/-- A shift by the elapsed time leads no further on the timeline than the instant. -/
theorem settledPlace_add_elapsed_le_timeline (origin instant : Instant) :
    origin.settledPlace + origin.elapsed instant ≤ instant.timeline := by
  have distance :
      origin.elapsed instant + origin.timeline ≤
        instant.timeline + (if origin.isLeap then nanosPerSecond else 0 : Nat) := by
    simp only [elapsed, timeline, nanosPerSecond, secondsPerDay]
    split <;> split <;> omega
  cases leap : origin.isLeap with
  | false =>
      rw [settledPlace_of_not_leap leap]
      simp only [leap] at distance
      simpa [Int.add_comm] using distance
  | true =>
      rw [settledPlace_of_leap leap]
      simp only [leap, if_true] at distance
      omega

/-- Up to a later instant elapsed time is below zero only from a leap second. -/
theorem isLeap_of_elapsed_neg
    {origin instant : Instant}
    (ordered : origin ≤ instant)
    (negative : origin.elapsed instant < 0) :
    origin.isLeap = true := by
  by_contra notLeap
  have originNano : origin.nano < nanosPerSecond := by
    simpa [isLeap] using notLeap
  have originSecond := origin.second_lt
  obtain ⟨leapSecond, distance, -, notLess, -⟩ := exists_elapsed_eq origin instant
  rw [le_iff] at ordered
  rw [distance] at negative
  simp only [timeline, nanosPerSecond, secondsPerDay] at *
  omega

/-- Within one second, or within one leap second, elapsed time goes forwards. -/
theorem elapsed_le_of_same_second
    {origin earlier later : Instant}
    (sameDay : earlier.day = later.day)
    (sameSecond : earlier.second = later.second)
    (sameLeap : earlier.isLeap = later.isLeap)
    (ordered : earlier.nano ≤ later.nano) :
    origin.elapsed earlier ≤ origin.elapsed later := by
  simp only [elapsed, sameDay, sameSecond, sameLeap]
  omega

section

variable
    {origin earlier later : Instant}
    (ordered : earlier ≤ later)

include ordered

/-- From an instant to a later one elapsed time goes back by less than three seconds. -/
theorem elapsed_lt_add :
    origin.elapsed earlier < origin.elapsed later + 3 * nanosPerSecond := by
  have seconds := secondCount_le ordered
  have earlierWithin := elapsed_within origin earlier
  have laterWithin := elapsed_within origin later
  simp only [nanosPerSecond] at *
  omega

variable
    (back : origin.elapsed later < origin.elapsed earlier)

include back

/-- Elapsed time goes back only about a leap second, and only within three seconds. -/
theorem elapsed_back :
    (origin.isLeap = true ∨ earlier.isLeap = true ∨ later.isLeap = true) ∧
      later.secondCount < earlier.secondCount + 3 := by
  constructor
  · by_contra noLeap
    simp only [not_or, Bool.not_eq_true] at noLeap
    obtain ⟨originPlain, earlierPlain, laterPlain⟩ := noLeap
    rw [elapsed_of_not_leap originPlain earlierPlain,
      elapsed_of_not_leap originPlain laterPlain] at back
    have forwards := (le_iff_timeline earlierPlain laterPlain).mp ordered
    omega
  · have earlierWithin := elapsed_within origin earlier
    have laterWithin := elapsed_within origin later
    simp only [nanosPerSecond] at *
    omega

theorem settledPlace_add_elapsed_of_back :
    origin.settledPlace + origin.elapsed earlier ≤ lastPlace := by
  refine Int.le_trans (settledPlace_add_elapsed_le_timeline origin earlier) ?_
  by_contra outOfRange
  -- Only the leap second that ends the last day is out of range, and nothing follows it.
  have lastSecond :
      earlier.day = later.day ∧ earlier.second = later.second ∧
        nanosPerSecond ≤ earlier.nano ∧ earlier.nano ≤ later.nano := by
    have earlierRange := earlier.le_lastDay
    have laterRange := later.le_lastDay
    have earlierSecond := earlier.second_lt
    have laterSecond := later.second_lt
    have earlierNano := earlier.nano_lt
    rw [le_iff] at ordered
    simp only [timeline, lastPlace, nanosPerSecond, secondsPerDay] at *
    omega
  obtain ⟨sameDay, sameSecond, earlierLeap, nanos⟩ := lastSecond
  have sameLeap : earlier.isLeap = later.isLeap := by
    simp only [isLeap, earlierLeap, Nat.le_trans earlierLeap nanos]
  exact Int.not_lt.mpr (elapsed_le_of_same_second sameDay sameSecond sameLeap nanos) back

end

end Instant

end TokenBudget
