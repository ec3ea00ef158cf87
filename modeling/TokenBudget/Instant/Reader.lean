import TokenBudget.Instant.Basic
import TokenBudget.Text.Scanner

namespace TokenBudget

/-!
# Reading instants

The relaxed text form of an instant: a date, one of `T`, `t` or a space, a time
of day, and an offset from universal time.  White space may stand around every
number; numbers may be short.  The fraction of the second may have any number
of digits, of which nine count.  Second 60 is the leap second of any minute.

The date as written and the day in universal time must both have instants.
-/

namespace Instant

open Text (Scanner)

/-- The parts of a written instant, before they are checked. -/
structure Written where
  date : Date
  hour : Nat
  minute : Nat
  second : Nat
  nano : Nat
  offsetMinutes : Int
  deriving Repr, DecidableEq

/-- A number with white space before it. -/
def spacedNumber (limit : Nat) : Scanner Nat := do
  Scanner.blanks
  Scanner.number limit

/-- A mark with white space before it. -/
def spacedMark (mark : Char) : Scanner Unit := do
  Scanner.blanks
  Scanner.char mark

/-- A year: four digits at most, or a sign and any number of digits. -/
def yearScanner : Scanner Int := do
  Scanner.blanks
  if ← Scanner.char? '-' then
    let text ← Scanner.rest
    return -(← Scanner.number text.length : Nat)
  else if ← Scanner.char? '+' then
    let text ← Scanner.rest
    return (← Scanner.number text.length : Nat)
  else
    return (← Scanner.number 4 : Nat)

/-- A date: year, month and day with hyphens between them. -/
def dateScanner : Scanner Date := do
  let year ← yearScanner
  spacedMark '-'
  let month ← spacedNumber 2
  spacedMark '-'
  let day ← spacedNumber 2
  pure { year, month, day }

/-- Nanoseconds of a fraction: the first nine digits count, missing ones are zero. -/
def fractionNanos (taken : List Char) : Nat :=
  Text.value ((taken.take 9) ++ List.replicate (9 - taken.length) '0')

/-- The fraction that may follow the second. -/
def fractionScanner : Scanner Nat := do
  if ← Scanner.char? '.' then
    let taken ← Scanner.run Char.isDigit
    guard (!taken.isEmpty)
    pure (fractionNanos taken)
  else
    pure 0

/-- The sign of an offset; the mathematical minus sign counts as a hyphen. -/
def offsetSign? (mark : Char) : Option Int :=
  if mark = '+' then
    some 1
  else if mark = '-' ∨ mark = '\u2212' then
    some (-1)
  else
    none

/-- What may stand between the hours and the minutes of an offset. -/
def isOffsetGap (char : Char) : Bool :=
  char = ':' || Text.isBlank char

/-- Hours and minutes of an offset, in minutes. -/
def numericOffsetScanner : Scanner Int := do
  let some sign := offsetSign? (← Scanner.one fun _ => true)
    | failure
  let hours ← Scanner.fixedNumber 2
  let _ ← Scanner.run isOffsetGap
  let minutes ← Scanner.fixedNumber 2
  guard (minutes < 60)
  pure (sign * (hours * 60 + minutes : Nat))

/-- The letters of universal time, in either case. -/
def universalScanner : Scanner Unit := do
  let _ ← Scanner.one fun char => char.toLower = 'u'
  let _ ← Scanner.one fun char => char.toLower = 't'
  let _ ← Scanner.one fun char => char.toLower = 'c'
  pure ()

/-- The offset from universal time, in minutes. -/
def offsetScanner : Scanner Int := do
  match ← Scanner.peek? with
  | some first =>
      if first.toLower = 'u' then
        universalScanner
        pure 0
      else if first.toLower = 'z' then
        let _ ← Scanner.one fun _ => true
        pure 0
      else
        numericOffsetScanner
  | none =>
      failure

/-- The whole text of an instant. -/
def writtenScanner : Scanner Written := do
  let date ← dateScanner
  let _ ← Scanner.one fun char => char = 'T' || char = 't' || char = ' '
  let hour ← spacedNumber 2
  spacedMark ':'
  let minute ← spacedNumber 2
  spacedMark ':'
  let second ← spacedNumber 2
  let nano ← fractionScanner
  Scanner.blanks
  let offsetMinutes ← offsetScanner
  Scanner.blanks
  Scanner.finished
  pure { date, hour, minute, second, nano, offsetMinutes }

/-- The day has instants. -/
def HasInstants (day : Int) : Prop :=
  firstDay ≤ day ∧ day ≤ lastDay

instance (day : Int) : Decidable (HasInstants day) := by
  unfold HasInstants
  infer_instance

/-- Every number of the written instant is one that dates, clocks and offsets have. -/
def Written.Valid (written : Written) : Prop :=
  written.date.Exists ∧
    HasInstants written.date.dayNumber ∧
    written.hour < 24 ∧
    written.minute < 60 ∧
    written.second ≤ 60 ∧
    written.nano < nanosPerSecond ∧
    written.offsetMinutes.natAbs < 1440

instance (written : Written) : Decidable written.Valid := by
  unfold Written.Valid
  infer_instance

/-- Minutes of universal time from the start of the day as written; they may leave that day. -/
def Written.universalMinutes (written : Written) : Int :=
  (written.hour * 60 + written.minute : Nat) - written.offsetMinutes

/-- The second of the day in universal time; a leap second is kept in the second before it. -/
def Written.secondOfDay (written : Written) : Nat :=
  (written.universalMinutes % 1440).toNat * 60 + min written.second 59

/-- The nanoseconds of that second, which a leap second takes past its end. -/
def Written.nanoOfSecond (written : Written) : Nat :=
  if written.second = 60 then
    written.nano + nanosPerSecond
  else
    written.nano

theorem Written.secondOfDay_lt (written : Written) :
    written.secondOfDay < secondsPerDay := by
  simp only [secondOfDay, secondsPerDay]
  omega

theorem Written.Valid.nanoOfSecond_lt
    {written : Written}
    (valid : written.Valid) :
    written.nanoOfSecond < 2 * nanosPerSecond := by
  have small := valid.2.2.2.2.2.1
  unfold Written.nanoOfSecond
  split <;> omega

/-- The instant that valid parts name, if its day in universal time has instants. -/
def Written.instant? (written : Written) : Option Instant :=
  let day := written.date.dayNumber + written.universalMinutes / 1440
  if valid : written.Valid ∧ HasInstants day then
    some
      { day := day
        second := written.secondOfDay
        nano := written.nanoOfSecond
        firstDay_le := valid.2.1
        le_lastDay := valid.2.2
        second_lt := written.secondOfDay_lt
        nano_lt := valid.1.nanoOfSecond_lt }
  else
    none

/-- The instant that a text names. -/
def ofText? (text : String) : Option Instant :=
  (writtenScanner.read? text).bind Written.instant?

end Instant

end TokenBudget
