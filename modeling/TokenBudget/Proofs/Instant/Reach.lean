import TokenBudget.Proofs.Instant.Plain

namespace TokenBudget

/-!
# Shifts that end where instants are

A shift forwards fails exactly when it would end after the last place on the
timeline, however long it is: `Instant.shift?_eq_none_iff`.  From an instant up to
year 9999 every shift by at most a quarter of a million years ends in time:
`Instant.reach_of_year_le`.
-/

namespace Instant

/-- The first place on the timeline that has an instant. -/
def firstPlace : Int :=
  firstDay * (secondsPerDay * nanosPerSecond : Nat)

/-- The last place on the timeline that has an instant. -/
def lastPlace : Int :=
  (lastDay + 1) * (secondsPerDay * nanosPerSecond : Nat) - 1

/-- Where a shift forwards sets out on the timeline: a leap second is used up first. -/
def settledPlace (instant : Instant) : Int :=
  if instant.isLeap then instant.timeline - nanosPerSecond else instant.timeline

theorem settledPlace_of_not_leap
    {instant : Instant}
    (plain : instant.isLeap = false) :
    instant.settledPlace = instant.timeline := by
  simp [settledPlace, plain]

theorem settledPlace_of_leap
    {instant : Instant}
    (leap : instant.isLeap = true) :
    instant.settledPlace = instant.timeline - nanosPerSecond := by
  simp [settledPlace, leap]

/-- An instant sets out within its own second. -/
theorem settledPlace_bounds (instant : Instant) :
    (instant.day * secondsPerDay + instant.second) * nanosPerSecond ≤ instant.settledPlace ∧
      instant.settledPlace <
        (instant.day * secondsPerDay + instant.second + 1) * nanosPerSecond := by
  have nanoBound := instant.nano_lt
  cases leap : instant.isLeap with
  | false =>
      have short := nano_lt_of_not_leap leap
      rw [settledPlace_of_not_leap leap]
      simp only [timeline, nanosPerSecond, secondsPerDay] at *
      omega
  | true =>
      have long : nanosPerSecond ≤ instant.nano := by
        simpa [isLeap] using leap
      rw [settledPlace_of_leap leap]
      simp only [timeline, nanosPerSecond, secondsPerDay] at *
      omega

theorem settledPlace_within (instant : Instant) :
    firstPlace ≤ instant.settledPlace ∧ instant.settledPlace ≤ lastPlace := by
  have bounds := instant.settledPlace_bounds
  have inRange := instant.firstDay_le
  have notAfter := instant.le_lastDay
  have secondBound := instant.second_lt
  simp only [firstPlace, lastPlace, nanosPerSecond, secondsPerDay] at *
  omega

theorem atTimeline?_eq_none_iff
    {place : Int} :
    atTimeline? place = none ↔ place < firstPlace ∨ lastPlace < place := by
  rw [atTimeline?]
  split
  · next inRange =>
      simp only [nanosPerSecond, secondsPerDay] at inRange
      simp only [reduceCtorEq, false_iff, firstPlace, lastPlace, nanosPerSecond, secondsPerDay]
      omega
  · next outOfRange =>
      simp only [nanosPerSecond, secondsPerDay] at outOfRange
      simp only [true_iff, firstPlace, lastPlace, nanosPerSecond, secondsPerDay]
      omega

/-- All instants lie closer together than the longest shift. -/
theorem lastPlace_lt_longestShift :
    lastPlace < firstPlace + longestShift := by
  decide

/-- A shift forwards fails exactly when it ends after the last place that has an instant. -/
theorem shift?_eq_none_iff
    {instant : Instant}
    {nanos : Int}
    (forwards : 0 ≤ nanos) :
    instant.shift? nanos = none ↔ lastPlace < instant.settledPlace + nanos := by
  have within := instant.settledPlace_within
  by_cases long : longestShift < nanos.natAbs
  · have narrow := lastPlace_lt_longestShift
    rw [shift?, if_pos long]
    simp only [true_iff]
    omega
  · cases leap : instant.isLeap with
    | false =>
        rw [shift?_of_not_leap leap (Nat.not_lt.mp long), atTimeline?_eq_none_iff,
          ← settledPlace_of_not_leap leap]
        omega
    | true =>
        have settled := settledPlace_of_leap leap
        rw [shift?, if_neg long, if_pos leap]
        split
        · rw [atTimeline?_eq_none_iff, ← settled]
          omega
        · next notPast =>
            have notBack : ¬ nanos ≤ -nanosPerSecond := by
              simp only [nanosPerSecond]
              omega
            have bounds := instant.settledPlace_bounds
            have notAfter := instant.le_lastDay
            have secondBound := instant.second_lt
            rw [if_neg notBack]
            simp only [reduceCtorEq, false_iff]
            simp only [settled, timeline, lastPlace, nanosPerSecond, secondsPerDay] at *
            omega

/-- Within a leap second there is always room for a shift back. -/
theorem exists_shift?_of_leap
    {instant : Instant}
    {nanos : Int}
    (leap : instant.isLeap = true)
    (back : nanos ≤ 0)
    (short : -(nanosPerSecond : Int) < nanos) :
    ∃ shifted, instant.shift? nanos = some shifted := by
  have nanoBound := instant.nano_lt
  have notLong : ¬ longestShift < nanos.natAbs := by
    have room : nanosPerSecond ≤ longestShift := by
      decide
    omega
  have notPast : ¬ ((2 * nanosPerSecond : Nat) : Int) ≤ instant.nano + nanos := by
    omega
  rw [shift?, if_neg notLong, if_pos leap, dif_neg notPast, if_neg (by omega)]
  exact ⟨_, rfl⟩

/-- Elapsed time is the distance on the timeline, with a leap second put in or left out. -/
theorem exists_elapsed_eq (origin instant : Instant) :
    ∃ leapSecond : Int,
      origin.elapsed instant =
          instant.timeline - origin.timeline + leapSecond * nanosPerSecond ∧
        leapSecond ≤ 1 ∧
        (0 ≤ leapSecond ∨
          leapSecond = -1 ∧ instant.second < origin.second ∧ nanosPerSecond ≤ instant.nano) ∧
        (origin.second < instant.second → nanosPerSecond ≤ origin.nano → leapSecond = 1) := by
  have distance (leapSecond : Int) :
      ((instant.day - origin.day) * secondsPerDay +
            ((instant.second : Int) - origin.second) + leapSecond) * nanosPerSecond +
          ((instant.nano : Int) - origin.nano) =
        instant.timeline - origin.timeline + leapSecond * nanosPerSecond := by
    simp only [timeline, secondsPerDay, nanosPerSecond]
    omega
  refine ⟨_, distance _, ?_⟩
  simp only [isLeap, decide_eq_true_eq]
  by_cases rises : origin.second < instant.second
  · by_cases leap : nanosPerSecond ≤ origin.nano
    · simp [rises, leap]
    · simp [rises, leap]
  · by_cases falls : instant.second < origin.second
    · by_cases leap : nanosPerSecond ≤ instant.nano
      · simp [rises, falls, leap]
      · simp [rises, falls, leap]
    · simp [rises, falls]

/-- Up to a later instant the elapsed time falls short by less than a second. -/
theorem neg_lt_elapsed
    {origin instant : Instant}
    (ordered : origin ≤ instant) :
    -(nanosPerSecond : Int) < origin.elapsed instant := by
  obtain ⟨leapSecond, distance, -, notLess, leapOver⟩ := exists_elapsed_eq origin instant
  have originNano := origin.nano_lt
  have originSecond := origin.second_lt
  rw [le_iff] at ordered
  rw [distance]
  simp only [timeline, nanosPerSecond, secondsPerDay] at *
  omega

/-- From where a shift from the origin sets out, the elapsed time leads no further than a day on. -/
theorem settledPlace_add_elapsed_le (origin instant : Instant) :
    origin.settledPlace + origin.elapsed instant ≤
      (instant.day + 2) * (secondsPerDay * nanosPerSecond : Nat) := by
  obtain ⟨leapSecond, distance, notMore, -, -⟩ := exists_elapsed_eq origin instant
  have instantNano := instant.nano_lt
  have instantSecond := instant.second_lt
  have settled : origin.settledPlace ≤ origin.timeline := by
    rw [settledPlace]
    split <;> omega
  rw [distance]
  simp only [timeline, nanosPerSecond, secondsPerDay] at *
  omega

/-- The year of an instant. -/
def year (instant : Instant) : Int :=
  (Date.ofDayNumber instant.day).year

/-- A quarter of a million years of 365 days, in seconds. -/
def quarterMillionYears : Nat :=
  250000 * 365 * secondsPerDay

/-- A year that begins in March is over by the end of the next February. -/
theorem day_le_of_year_le
    {instant : Instant}
    (early : instant.year ≤ 9999) :
    instant.day ≤ Date.marchOfYear 9999 + 365 := by
  have inYear := (Date.yearOfDayNumber_spec instant.day).2.1
  have marchYear : Date.yearOfDayNumber instant.day ≤ instant.year := by
    simp only [year, Date.ofDayNumber]
    split <;> dsimp only <;> omega
  have earlyMarch : Date.yearOfDayNumber instant.day ≤ 9999 := by
    omega
  simp only [Date.marchOfYear] at inYear ⊢
  omega

/-- Two days and a quarter of a million years after year 9999 there are still instants. -/
theorem reach_of_year_le
    {instant : Instant}
    (early : instant.year ≤ 9999) :
    (instant.day + 2) * (secondsPerDay * nanosPerSecond : Nat) +
        (quarterMillionYears * nanosPerSecond : Nat) ≤
      lastPlace := by
  have dayBound := day_le_of_year_le early
  have room :
      (Date.marchOfYear 9999 + 365 + 2) * (secondsPerDay * nanosPerSecond : Nat) +
          (quarterMillionYears * nanosPerSecond : Nat) ≤
        lastPlace := by
    decide
  simp only [secondsPerDay, nanosPerSecond] at *
  omega

end Instant

end TokenBudget
