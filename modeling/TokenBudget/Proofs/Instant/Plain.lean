import Mathlib.Order.Defs.LinearOrder
import TokenBudget.Instant.Shift

namespace TokenBudget

/-!
# Instants outside leap seconds

Instants are in a linear order that begins with `Instant.earliest`.  Outside leap
seconds this order, the time elapsed between instants and their shifts are all
read off the timeline of nanoseconds, and every place on the timeline between two
such instants has an instant.
-/

namespace Instant

instance : LinearOrder Instant where
  le_refl instant :=
    Int.le_refl instant.rank
  le_trans _ _ _ before after :=
    Int.le_trans before after
  lt_iff_le_not_ge _ _ :=
    Int.lt_iff_le_and_not_ge
  le_antisymm _ _ before after :=
    rank_injective (Int.le_antisymm before after)
  le_total first second :=
    Int.le_total first.rank second.rank
  toDecidableLE :=
    inferInstance

theorem nano_lt_of_not_leap
    {instant : Instant}
    (notLeap : instant.isLeap = false) :
    instant.nano < nanosPerSecond := by
  simpa [isLeap] using notLeap

/-- Outside leap seconds the order of instants is the order of the timeline. -/
theorem le_iff_timeline
    {first second : Instant}
    (firstPlain : first.isLeap = false)
    (secondPlain : second.isLeap = false) :
    first ≤ second ↔ first.timeline ≤ second.timeline := by
  have firstShort := nano_lt_of_not_leap firstPlain
  have secondShort := nano_lt_of_not_leap secondPlain
  have firstSecond := first.second_lt
  have secondSecond := second.second_lt
  simp only [le_iff, timeline, nanosPerSecond, secondsPerDay] at *
  omega

theorem lt_iff_timeline
    {first second : Instant}
    (firstPlain : first.isLeap = false)
    (secondPlain : second.isLeap = false) :
    first < second ↔ first.timeline < second.timeline := by
  rw [← not_le, le_iff_timeline secondPlain firstPlain, Int.not_le]

/-- Outside leap seconds elapsed time is distance on the timeline. -/
theorem elapsed_of_not_leap
    {origin instant : Instant}
    (originPlain : origin.isLeap = false)
    (instantPlain : instant.isLeap = false) :
    origin.elapsed instant = instant.timeline - origin.timeline := by
  simp only [elapsed, timeline, originPlain, instantPlain, nanosPerSecond, secondsPerDay]
  split
  · simp
    omega
  · split
    · simp
      omega
    · omega

/-- Every place between two instants outside leap seconds has an instant. -/
theorem exists_atTimeline?
    {first last : Instant}
    {place : Int}
    (firstPlain : first.isLeap = false)
    (lastPlain : last.isLeap = false)
    (afterFirst : first.timeline ≤ place)
    (beforeLast : place ≤ last.timeline) :
    ∃ instant,
      atTimeline? place = some instant := by
  have firstShort := nano_lt_of_not_leap firstPlain
  have lastShort := nano_lt_of_not_leap lastPlain
  have firstSecond := first.second_lt
  have lastSecond := last.second_lt
  have firstInRange := first.firstDay_le
  have lastInRange := last.le_lastDay
  have inRange :
      firstDay ≤ place / (secondsPerDay * nanosPerSecond : Nat) ∧
        place / (secondsPerDay * nanosPerSecond : Nat) ≤ lastDay := by
    simp only [timeline, nanosPerSecond, secondsPerDay] at *
    omega
  simp only [atTimeline?]
  rw [dif_pos inRange]
  exact ⟨_, rfl⟩

/-- A shift from an instant outside leap seconds moves it along the timeline. -/
theorem timeline_of_shift?
    {instant shifted : Instant}
    {nanos : Int}
    (notLeap : instant.isLeap = false)
    (moved : instant.shift? nanos = some shifted) :
    shifted.timeline = instant.timeline + nanos ∧ shifted.isLeap = false := by
  by_cases short : nanos.natAbs ≤ longestShift
  · rw [shift?_of_not_leap notLeap short] at moved
    exact atTimeline?_eq_some moved
  · rw [shift?, if_pos (Nat.not_le.mp short)] at moved
    contradiction

/-- An instant outside leap seconds is the one at its place on the timeline. -/
theorem atTimeline?_timeline
    {instant : Instant}
    (plain : instant.isLeap = false) :
    atTimeline? instant.timeline = some instant := by
  obtain ⟨found, atPlace⟩ :=
    exists_atTimeline? plain plain (Int.le_refl instant.timeline) (Int.le_refl _)
  obtain ⟨place, foundPlain⟩ := atTimeline?_eq_some atPlace
  have same : found = instant := by
    apply le_antisymm
    · exact (le_iff_timeline foundPlain plain).mpr (Int.le_of_eq place)
    · exact (le_iff_timeline plain foundPlain).mpr (Int.le_of_eq place.symm)
  rw [atPlace, same]

/-- A shift by nothing moves no instant. -/
theorem shift?_zero (instant : Instant) :
    instant.shift? 0 = some instant := by
  cases leap : instant.isLeap with
  | false =>
      rw [shift?_of_not_leap leap (by simp), Int.add_zero, atTimeline?_timeline leap]
  | true =>
      have nanoBound := instant.nano_lt
      have notPast : ¬ ((2 * nanosPerSecond : Nat) : Int) ≤ instant.nano + 0 := by
        omega
      have notBack : ¬ (0 : Int) ≤ -nanosPerSecond := by
        decide
      rw [shift?, if_neg (by simp), if_pos leap, dif_neg notPast, if_neg notBack]
      simp [withNano]

/-- The first instant of all. -/
def earliest : Instant :=
  .ofSecond firstDay 0 (Int.le_refl firstDay) (by decide) secondsPerDay_pos

/-- No instant precedes the first. -/
theorem earliest_le (instant : Instant) :
    earliest ≤ instant := by
  have inRange := instant.firstDay_le
  simp only [le_iff, earliest, ofSecond]
  omega

/-- A whole second of day zero. -/
def onDayZero (second : Nat) : Instant :=
  .ofSecond 0 (second % secondsPerDay) (by decide) (by decide)
    (Nat.mod_lt second secondsPerDay_pos)

/-- The middle of the leap second that ends the first minute of day zero. -/
def inLeapSecond : Instant :=
  (onDayZero 59).withNano 1500000000 (by decide)

/-- The later of two instants is one of them, and neither is after it. -/
theorem later_cases (first second : Instant) :
    first ≤ second ∧ first.later second = second ∨
      second < first ∧ first.later second = first := by
  by_cases ordered : first ≤ second
  · exact .inl ⟨ordered, if_pos ordered⟩
  · exact .inr ⟨not_le.mp ordered, if_neg ordered⟩

end Instant

end TokenBudget
