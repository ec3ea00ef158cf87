namespace TokenBudget

/-!
# Civil dates and day numbers

Dates of the proleptic Gregorian calendar, which has a year zero, and their
numbering by whole days.  Day zero is 1 March of year 0.  With the year taken
to begin in March, the leap day is the last day of its year, so a day number
splits into years and months without a special case for February.

Every day number has a date: `Date.dayNumber_ofDayNumber` gives the number
back, and `Date.exists_ofDayNumber` says that the date is in the calendar.
-/

/-- A year, a month counted from one, and a day of the month counted from one. -/
structure Date where
  year : Int
  month : Nat
  day : Nat
  deriving Repr, DecidableEq

namespace Date

/-- Every fourth year is long, centuries only when divisible by four hundred. -/
def isLeapYear (year : Int) : Bool :=
  year % 4 == 0 && (year % 100 != 0 || year % 400 == 0)

/-- Days in a month of the given year. -/
def monthLength
    (year : Int)
    (month : Nat) :
    Nat :=
  if month = 2 then
    if isLeapYear year then 29 else 28
  else if month = 4 ∨ month = 6 ∨ month = 9 ∨ month = 11 then
    30
  else
    31

/-- The date names a day of the calendar. -/
def Exists (date : Date) : Prop :=
  1 ≤ date.month ∧
    date.month ≤ 12 ∧
    1 ≤ date.day ∧
    date.day ≤ monthLength date.year date.month

instance (date : Date) : Decidable date.Exists := by
  unfold Exists
  infer_instance

/-- Days from 1 March of year 0 to 1 March of the given year. -/
def marchOfYear (year : Int) : Int :=
  year * 365 + year / 4 - year / 100 + year / 400

/-- Days from 1 March to the first day of a month, with months counted from March as zero. -/
def daysBeforeMonth (month : Nat) : Nat :=
  (153 * month + 2) / 5

/-- Days from 1 March of year 0 to the date. -/
def dayNumber (date : Date) : Int :=
  if date.month ≤ 2 then
    marchOfYear (date.year - 1) + daysBeforeMonth (date.month + 9) + (date.day - 1)
  else
    marchOfYear date.year + daysBeforeMonth (date.month - 3) + (date.day - 1)

/-- The year, begun in March, that holds a day number. -/
def yearOfDayNumber (number : Int) : Int :=
  let century := min (number % 146097 / 36524) 3
  let dayOfCentury := number % 146097 - century * 36524
  let year := min (dayOfCentury % 1461 / 365) 3
  number / 146097 * 400 + century * 100 + dayOfCentury / 1461 * 4 + year

/-- Days since 1 March of the year that holds a day number. -/
def dayOfYear (number : Int) : Nat :=
  (number - marchOfYear (yearOfDayNumber number)).toNat

/-- The month, counted from March as zero, that holds a day of the year. -/
def monthOfDay (day : Nat) : Nat :=
  (5 * day + 2) / 153

/-- The date of a day number. -/
def ofDayNumber (number : Int) : Date :=
  let year := yearOfDayNumber number
  let day := dayOfYear number
  let month := monthOfDay day
  if month < 10 then
    { year := year
      month := month + 3
      day := day - daysBeforeMonth month + 1 }
  else
    { year := year + 1
      month := month - 9
      day := day - daysBeforeMonth month + 1 }

/-- March firsts by cycle, century, group of four years and year of the group. -/
theorem marchOfYear_split
    (cycle century group year : Int)
    (century_nonneg : 0 ≤ century)
    (century_le : century ≤ 3)
    (group_nonneg : 0 ≤ group)
    (group_le : group ≤ 24)
    (year_nonneg : 0 ≤ year)
    (year_le : year ≤ 3) :
    marchOfYear (cycle * 400 + century * 100 + group * 4 + year) =
      cycle * 146097 + century * 36524 + group * 1461 + year * 365 := by
  have fourth :
      (cycle * 400 + century * 100 + group * 4 + year) / 4 = cycle * 100 + century * 25 + group := by
    omega
  have hundredth :
      (cycle * 400 + century * 100 + group * 4 + year) / 100 = cycle * 4 + century := by
    omega
  have fourHundredth :
      (cycle * 400 + century * 100 + group * 4 + year) / 400 = cycle := by
    omega
  simp only [marchOfYear, fourth, hundredth, fourHundredth]
  omega

/-- A day falls into its year; only a long year has a day 365. -/
theorem yearOfDayNumber_spec (number : Int) :
    marchOfYear (yearOfDayNumber number) ≤ number ∧
      number ≤ marchOfYear (yearOfDayNumber number) + 365 ∧
      (number = marchOfYear (yearOfDayNumber number) + 365 →
        isLeapYear (yearOfDayNumber number + 1) = true) := by
  have cycleOfDay := Int.mul_ediv_add_emod number 146097
  have dayOfCycle_nonneg := Int.emod_nonneg number (show (146097 : Int) ≠ 0 by omega)
  have dayOfCycle_lt := Int.emod_lt_of_pos number (show (0 : Int) < 146097 by omega)
  simp only [yearOfDayNumber]
  generalize number / 146097 = cycle at *
  generalize number % 146097 = dayOfCycle at *
  subst cycleOfDay
  have century_nonneg : 0 ≤ min (dayOfCycle / 36524) 3 := by omega
  have century_le : min (dayOfCycle / 36524) 3 ≤ 3 := by omega
  have dayOfCentury_nonneg : 0 ≤ dayOfCycle - min (dayOfCycle / 36524) 3 * 36524 := by omega
  have dayOfCentury_le :
      dayOfCycle - min (dayOfCycle / 36524) 3 * 36524 ≤ 36524 ∧
        (dayOfCycle - min (dayOfCycle / 36524) 3 * 36524 = 36524 →
          min (dayOfCycle / 36524) 3 = 3) := by
    omega
  have rebuild :
      dayOfCycle =
        min (dayOfCycle / 36524) 3 * 36524 +
          (dayOfCycle - min (dayOfCycle / 36524) 3 * 36524) := by
    omega
  generalize min (dayOfCycle / 36524) 3 = century at *
  generalize dayOfCycle - century * 36524 = dayOfCentury at *
  subst rebuild
  have groupOfDay := Int.mul_ediv_add_emod dayOfCentury 1461
  have group_nonneg : 0 ≤ dayOfCentury / 1461 := by omega
  have group_le : dayOfCentury / 1461 ≤ 24 := by omega
  have dayOfGroup_nonneg := Int.emod_nonneg dayOfCentury (show (1461 : Int) ≠ 0 by omega)
  have dayOfGroup_lt := Int.emod_lt_of_pos dayOfCentury (show (0 : Int) < 1461 by omega)
  generalize dayOfCentury / 1461 = group at *
  generalize dayOfCentury % 1461 = dayOfGroup at *
  subst groupOfDay
  have year_nonneg : 0 ≤ min (dayOfGroup / 365) 3 := by omega
  have year_le : min (dayOfGroup / 365) 3 ≤ 3 := by omega
  have dayOfYear_nonneg : min (dayOfGroup / 365) 3 * 365 ≤ dayOfGroup := by omega
  have dayOfYear_le :
      dayOfGroup ≤ min (dayOfGroup / 365) 3 * 365 + 365 ∧
        (dayOfGroup = min (dayOfGroup / 365) 3 * 365 + 365 →
          min (dayOfGroup / 365) 3 = 3) := by
    omega
  generalize min (dayOfGroup / 365) 3 = year at *
  rw [marchOfYear_split cycle century group year
    century_nonneg century_le group_nonneg group_le year_nonneg year_le]
  refine ⟨by omega, by omega, ?_⟩
  intro lastDay
  have year_eq : year = 3 := by omega
  simp only [isLeapYear, Bool.and_eq_true, Bool.or_eq_true, beq_iff_eq, bne_iff_ne]
  omega

/-- Day and month of the year rebuild the day number. -/
theorem dayOfYear_spec (number : Int) :
    marchOfYear (yearOfDayNumber number) + dayOfYear number = number ∧
      dayOfYear number ≤ 365 := by
  have bounds := yearOfDayNumber_spec number
  simp only [dayOfYear]
  omega

/-- Numbering the date of a day gives the day back. -/
theorem dayNumber_ofDayNumber (number : Int) :
    (ofDayNumber number).dayNumber = number := by
  have inYear := dayOfYear_spec number
  simp only [ofDayNumber]
  generalize dayOfYear number = day at *
  have inMonth : daysBeforeMonth (monthOfDay day) ≤ day := by
    simp only [daysBeforeMonth, monthOfDay]
    omega
  have month_le : monthOfDay day ≤ 11 := by
    simp only [monthOfDay]
    omega
  generalize monthOfDay day = month at *
  by_cases spring : month < 10
  · have notEarly : ¬ month + 3 ≤ 2 := by omega
    simp only [dayNumber, if_pos spring, if_neg notEarly, Nat.add_sub_cancel]
    omega
  · have early : month - 9 ≤ 2 := by omega
    have back : month - 9 + 9 = month := by omega
    simp only [dayNumber, if_neg spring, if_pos early, Int.add_sub_cancel, back]
    omega

/-- The date of a day number is in the calendar. -/
theorem exists_ofDayNumber (number : Int) :
    (ofDayNumber number).Exists := by
  have inYear := dayOfYear_spec number
  have lastDay := (yearOfDayNumber_spec number).2.2
  simp only [ofDayNumber]
  generalize dayOfYear number = day at *
  generalize yearOfDayNumber number = year at *
  have lastDay : day = 365 → isLeapYear (year + 1) = true := by
    intro last
    apply lastDay
    omega
  have dayOfMonth : day - daysBeforeMonth (monthOfDay day) + 1 ≤
      daysBeforeMonth (monthOfDay day + 1) - daysBeforeMonth (monthOfDay day) := by
    simp only [daysBeforeMonth, monthOfDay]
    omega
  have month_le : monthOfDay day ≤ 11 := by
    simp only [monthOfDay]
    omega
  have last_le : monthOfDay day = 11 → day - daysBeforeMonth (monthOfDay day) ≤ 28 ∧
      (day - daysBeforeMonth (monthOfDay day) = 28 → day = 365) := by
    simp only [daysBeforeMonth, monthOfDay]
    omega
  generalize monthOfDay day = month at *
  simp only [Exists, monthLength]
  by_cases february : month = 11
  · subst february
    have last_le := last_le rfl
    by_cases long : isLeapYear (year + 1) = true
    · simp [long]
      omega
    · have short : day ≠ 365 := fun last => long (lastDay last)
      simp [long]
      omega
  · have cases : month = 0 ∨ month = 1 ∨ month = 2 ∨ month = 3 ∨ month = 4 ∨ month = 5 ∨
        month = 6 ∨ month = 7 ∨ month = 8 ∨ month = 9 ∨ month = 10 := by
      omega
    rcases cases with rfl | rfl | rfl | rfl | rfl | rfl | rfl | rfl | rfl | rfl | rfl <;>
      simp [daysBeforeMonth] at dayOfMonth ⊢ <;>
      omega

end Date

end TokenBudget
