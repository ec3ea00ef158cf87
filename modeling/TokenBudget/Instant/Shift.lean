import TokenBudget.Instant.Basic

namespace TokenBudget

/-!
# Shifting an instant

A shift moves an instant by nanoseconds, forwards or backwards.  Outside leap
seconds it is addition on the line of nanoseconds counted without leap seconds,
`Instant.timeline`: `Instant.shift?_of_not_leap`.  A shift that starts in a leap
second and stays within its reach only changes the nanoseconds; one that leaves
it forwards has first to use up the extra second.

A shift fails when it ends on a day that has no instants, or when it is longer
than `Instant.longestShift`.
-/

namespace Instant

/-- The longest shift in nanoseconds: the milliseconds of a signed 64-bit word. -/
def longestShift : Nat := (Nat.pow 2 63 - 1) * 1000000

/-- Nanoseconds from the start of day zero, counting every day as 86400 seconds. -/
def timeline (instant : Instant) : Int :=
  (instant.day * secondsPerDay + instant.second) * nanosPerSecond + instant.nano

/-- The second of the day at a place on the timeline. -/
theorem secondAt_lt (place : Int) :
    (place / nanosPerSecond % secondsPerDay).toNat < secondsPerDay := by
  simp only [secondsPerDay]
  omega

/-- The nanoseconds at a place on the timeline do not reach into a leap second. -/
theorem nanoAt_lt (place : Int) :
    (place % nanosPerSecond).toNat < nanosPerSecond := by
  simp only [nanosPerSecond]
  omega

theorem nanoAt_lt_two (place : Int) :
    (place % nanosPerSecond).toNat < 2 * nanosPerSecond := by
  have short := nanoAt_lt place
  omega

/-- The instant at a place on the timeline, if its day has instants. -/
def atTimeline? (place : Int) : Option Instant :=
  let day := place / (secondsPerDay * nanosPerSecond : Nat)
  if inRange : firstDay ≤ day ∧ day ≤ lastDay then
    some
      { day := day
        second := (place / nanosPerSecond % secondsPerDay).toNat
        nano := (place % nanosPerSecond).toNat
        firstDay_le := inRange.1
        le_lastDay := inRange.2
        second_lt := secondAt_lt place
        nano_lt := nanoAt_lt_two place }
  else
    none

/-- The same second with other nanoseconds. -/
def withNano
    (instant : Instant)
    (nano : Nat)
    (nano_lt : nano < 2 * nanosPerSecond) :
    Instant :=
  { instant with nano, nano_lt }

theorem shiftedNano_lt
    (instant : Instant)
    (nanos : Int)
    (notPast : ¬ (2 * nanosPerSecond : Nat) ≤ instant.nano + nanos) :
    (instant.nano + nanos).toNat < 2 * nanosPerSecond := by
  simp only [nanosPerSecond] at *
  omega

/-- Move an instant by nanoseconds, if the shift is not too long and ends where instants are. -/
def shift?
    (instant : Instant)
    (nanos : Int) :
    Option Instant :=
  if longestShift < nanos.natAbs then
    none
  else if instant.isLeap then
    if pastLeap : (2 * nanosPerSecond : Nat) ≤ instant.nano + nanos then
      atTimeline? (instant.timeline - nanosPerSecond + nanos)
    else if nanos ≤ -nanosPerSecond then
      atTimeline? (instant.timeline + nanos)
    else
      some
        (instant.withNano (instant.nano + nanos).toNat
          (instant.shiftedNano_lt nanos pastLeap))
  else
    atTimeline? (instant.timeline + nanos)

/-- Outside leap seconds a shift is addition on the timeline. -/
theorem shift?_of_not_leap
    {instant : Instant}
    {nanos : Int}
    (notLeap : instant.isLeap = false)
    (short : nanos.natAbs ≤ longestShift) :
    instant.shift? nanos = atTimeline? (instant.timeline + nanos) := by
  simp [shift?, notLeap, Nat.not_lt.mpr short]

/-- An instant outside leap seconds lies on the timeline no later than those that do not precede it. -/
theorem timeline_le_of_le
    {first second : Instant}
    (notLeap : first.isLeap = false)
    (ordered : first ≤ second) :
    first.timeline ≤ second.timeline := by
  have short : first.nano < nanosPerSecond := by
    simpa [isLeap] using notLeap
  have secondFirst := first.second_lt
  have secondSecond := second.second_lt
  simp only [le_iff, timeline, nanosPerSecond, secondsPerDay] at *
  omega

/-- The instant found at a place on the timeline lies there and is no leap second. -/
theorem atTimeline?_eq_some
    {place : Int}
    {instant : Instant}
    (found : atTimeline? place = some instant) :
    instant.timeline = place ∧ instant.isLeap = false := by
  simp only [atTimeline?] at found
  split at found
  · cases found
    simp only [timeline, isLeap, secondsPerDay, nanosPerSecond]
    refine ⟨by omega, ?_⟩
    apply decide_eq_false
    omega
  · contradiction

end Instant

end TokenBudget
