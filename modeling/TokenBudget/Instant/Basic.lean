import TokenBudget.Instant.Date

namespace TokenBudget

/-!
# Instants

An instant is a day, a second of that day and nanoseconds into that second.  A
leap second is kept inside the second it follows, which then holds up to two
thousand million nanoseconds instead of one.  Texts name leap seconds only at the
end of a minute, but an instant may have one after any second.

Instants are ordered by day, second and nanosecond.  `Instant.rank` gives each
second room for its leap second, so the order of instants is the order of their
ranks and every order question is one about integers.  Elapsed time, which does
not count the leap seconds between two instants, is `Instant.elapsed`.
-/

/-- Nanoseconds in a second. -/
def nanosPerSecond : Nat := 1000000000

/-- Seconds in a day. -/
def secondsPerDay : Nat := 86400

theorem nanosPerSecond_pos :
    0 < nanosPerSecond := by
  decide

theorem secondsPerDay_pos :
    0 < secondsPerDay := by
  decide

namespace Instant

/-- The first day that has instants: 1 January of year -262143. -/
def firstDay : Int :=
  ({ year := -262143, month := 1, day := 1 } : Date).dayNumber

/-- The last day that has instants: 31 December of year 262142. -/
def lastDay : Int :=
  ({ year := 262142, month := 12, day := 31 } : Date).dayNumber

end Instant

/-- A day, a second of the day, and nanoseconds that reach past one second in a leap second. -/
structure Instant where
  day : Int
  second : Nat
  nano : Nat
  firstDay_le : Instant.firstDay ≤ day
  le_lastDay : day ≤ Instant.lastDay
  second_lt : second < secondsPerDay
  nano_lt : nano < 2 * nanosPerSecond
  deriving Repr, DecidableEq

namespace Instant

/-- The instant at which a second of a day begins. -/
def ofSecond
    (day : Int)
    (second : Nat)
    (firstDay_le : firstDay ≤ day)
    (le_lastDay : day ≤ lastDay)
    (second_lt : second < secondsPerDay) :
    Instant where
  day := day
  second := second
  nano := 0
  firstDay_le := firstDay_le
  le_lastDay := le_lastDay
  second_lt := second_lt
  nano_lt := by decide

/-- The instant lies in the leap second that follows its second. -/
def isLeap (instant : Instant) : Bool :=
  nanosPerSecond ≤ instant.nano

/-- Position in the order of instants, with room for a leap second in every second. -/
def rank (instant : Instant) : Int :=
  (instant.day * secondsPerDay + instant.second) * (2 * nanosPerSecond : Nat) + instant.nano

instance : LE Instant where
  le earlier later := earlier.rank ≤ later.rank

instance : LT Instant where
  lt earlier later := earlier.rank < later.rank

theorem le_iff_rank
    {first second : Instant} :
    first ≤ second ↔ first.rank ≤ second.rank :=
  Iff.rfl

theorem lt_iff_rank
    {first second : Instant} :
    first < second ↔ first.rank < second.rank :=
  Iff.rfl

/-- Instants of one rank are the same instant. -/
theorem rank_injective
    {first second : Instant}
    (same : first.rank = second.rank) :
    first = second := by
  have firstSecond := first.second_lt
  have firstNano := first.nano_lt
  have secondSecond := second.second_lt
  have secondNano := second.nano_lt
  simp only [rank, nanosPerSecond, secondsPerDay] at *
  have sameDay : first.day = second.day := by omega
  have sameSecond : first.second = second.second := by omega
  have sameNano : first.nano = second.nano := by omega
  cases first
  cases second
  simp_all

/-- The order is by day, then second of the day, then nanosecond. -/
theorem lt_iff
    {first second : Instant} :
    first < second ↔
      first.day < second.day ∨
        first.day = second.day ∧
          (first.second < second.second ∨
            first.second = second.second ∧ first.nano < second.nano) := by
  have firstSecond := first.second_lt
  have firstNano := first.nano_lt
  have secondSecond := second.second_lt
  have secondNano := second.nano_lt
  simp only [lt_iff_rank, rank, nanosPerSecond, secondsPerDay] at *
  omega

/-- One instant is no later than another when it is not after it by day, second and nanosecond. -/
theorem le_iff
    {first second : Instant} :
    first ≤ second ↔
      first.day < second.day ∨
        first.day = second.day ∧
          (first.second < second.second ∨
            first.second = second.second ∧ first.nano ≤ second.nano) := by
  have firstSecond := first.second_lt
  have firstNano := first.nano_lt
  have secondSecond := second.second_lt
  have secondNano := second.nano_lt
  simp only [le_iff_rank, rank, nanosPerSecond, secondsPerDay] at *
  omega

instance (earlier later : Instant) : Decidable (earlier ≤ later) :=
  decidable_of_iff' _ le_iff

instance (earlier later : Instant) : Decidable (earlier < later) :=
  decidable_of_iff' _ lt_iff

/-- The later of two instants. -/
def later (first second : Instant) : Instant :=
  if first ≤ second then second else first

/--
Nanoseconds from an origin to an instant.  Days count 86400 seconds.  Where the
second of the day rises, a leap second at the origin has still to pass; where it
falls, a leap second at the instant is not yet over.
-/
def elapsed
    (origin : Instant)
    (instant : Instant) :
    Int :=
  let leapSecond : Int :=
    if origin.second < instant.second then
      if origin.isLeap then 1 else 0
    else if instant.second < origin.second then
      if instant.isLeap then -1 else 0
    else
      0
  ((instant.day - origin.day) * secondsPerDay +
      ((instant.second : Int) - origin.second) + leapSecond) * nanosPerSecond +
    ((instant.nano : Int) - origin.nano)

/-- No time passes from an instant to itself. -/
@[simp]
theorem elapsed_self (instant : Instant) :
    elapsed instant instant = 0 := by
  simp [elapsed]

end Instant

end TokenBudget
