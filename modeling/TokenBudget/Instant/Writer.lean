import TokenBudget.Instant.Basic
import TokenBudget.Text.Digits

namespace TokenBudget

/-!
# Writing instants

Instants are written in universal time.  The fraction has no, three, six or
nine digits, the fewest that are exact; years from 0 to 9999 have four digits,
others a sign and at least four; a leap second is written as the second after
its own, which is second 60 at the end of a minute.

The three forms differ in what stands between date and time and at the end.
-/

/-- A text form of instants: the mark between date and time, and the zone at the end. -/
structure InstantForm where
  separator : List Char
  zone : List Char
  deriving Repr, DecidableEq

namespace InstantForm

/-- The form of play logs and data: `2024-03-01T09:00:00Z`. -/
def data : InstantForm where
  separator := ['T']
  zone := ['Z']

/-- The form of reports, with a numeric offset: `2024-03-01T09:00:00+00:00`. -/
def report : InstantForm where
  separator := ['T']
  zone := ['+', '0', '0', ':', '0', '0']

/-- The form of messages: `2024-03-01 09:00:00 UTC`. -/
def message : InstantForm where
  separator := [' ']
  zone := [' ', 'U', 'T', 'C']

end InstantForm

namespace Instant

open Text (padded)

/-- A year of four digits, or a sign and at least four digits. -/
def yearText (year : Int) : List Char :=
  if 0 ≤ year ∧ year ≤ 9999 then
    padded 4 year.toNat
  else if year < 0 then
    '-' :: padded 4 year.natAbs
  else
    '+' :: padded 4 year.natAbs

/-- Year, month and day with hyphens between them. -/
def dateText (date : Date) : List Char :=
  yearText date.year ++ '-' :: padded 2 date.month ++ '-' :: padded 2 date.day

/-- The fewest digits, of none, three, six and nine, that write a fraction exactly. -/
def fractionText (nanos : Nat) : List Char :=
  if nanos = 0 then
    []
  else if nanos % 1000000 = 0 then
    '.' :: padded 3 (nanos / 1000000)
  else if nanos % 1000 = 0 then
    '.' :: padded 6 (nanos / 1000)
  else
    '.' :: padded 9 nanos

/-- The second of the minute as written: one more in a leap second. -/
def shownSecond (instant : Instant) : Nat :=
  if instant.isLeap then instant.second % 60 + 1 else instant.second % 60

/-- The nanoseconds as written. -/
def shownNano (instant : Instant) : Nat :=
  if instant.isLeap then instant.nano - nanosPerSecond else instant.nano

/-- Hour, minute and second with colons between them, and the fraction. -/
def timeText (instant : Instant) : List Char :=
  padded 2 (instant.second / 3600) ++ ':' :: padded 2 (instant.second / 60 % 60) ++
    ':' :: padded 2 instant.shownSecond ++ fractionText instant.shownNano

/-- The characters of an instant in a form. -/
def write
    (form : InstantForm)
    (instant : Instant) :
    List Char :=
  dateText (Date.ofDayNumber instant.day) ++ form.separator ++ instant.timeText ++ form.zone

/-- The text of an instant in a form. -/
def toText
    (form : InstantForm)
    (instant : Instant) :
    String :=
  String.ofList (instant.write form)

end Instant

end TokenBudget
