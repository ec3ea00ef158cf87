import TokenBudget.Instant.Date
import TokenBudget.Toml.Node
import TokenBudget.Text.Scanner

namespace TokenBudget.Toml

/-!
# Numbers and dates of TOML

Integers are decimal with a sign, or hexadecimal, octal or binary without one,
and fit a signed 64-bit word.  Single underscores may stand between digits.  Of
floating-point numbers, dates and times only the form counts here, and that a
number does not round to positive infinity.
-/

open Text (Scanner)

/-- Digits of a base, each perhaps after an underscore, and the text after them. -/
def moreDigits (base : Nat) : List Char → Option (List Char × List Char)
  | [] => some ([], [])
  | ['_'] => none
  | '_' :: digit :: rest =>
      if Text.isDigitOf base digit then do
        let (digits, after) ← moreDigits base rest
        some (digit :: digits, after)
      else
        none
  | char :: rest =>
      if Text.isDigitOf base char then do
        let (digits, after) ← moreDigits base rest
        some (char :: digits, after)
      else
        some ([], char :: rest)

/-- At least one digit of a base, with underscores between digits. -/
def digitRun (base : Nat) : Scanner (List Char) := do
  let first ← Scanner.one (Text.isDigitOf base)
  return first :: (← moreDigits base)

/-- The sign of a number: whether it is negative. -/
def sign : Scanner Bool := do
  if ← Scanner.char? '-' then
    pure true
  else
    let _ ← Scanner.char? '+'
    pure false

/-- Digits of a decimal number: zero alone, or no zero in front. -/
def wholeDigits : Scanner (List Char) := do
  if ← Scanner.char? '0' then
    pure ['0']
  else
    digitRun 10

/-- The value fits a signed 64-bit word. -/
def isWord (value : Int) : Bool :=
  -Int.pow 2 63 ≤ value && value < Int.pow 2 63

/-- An integer in the digits of a base, after the mark of the base. -/
def markedInteger (base : Nat) : Scanner Node := do
  let value := (Text.valueInBase base (← digitRun base) : Int)
  guard (isWord value)
  pure (.integer value)

/-- A decimal integer. -/
def decimalInteger : Scanner Node := do
  let negative ← sign
  let size := (Text.value (← wholeDigits) : Int)
  let value := if negative then -size else size
  guard (isWord value)
  pure (.integer value)

/-- An integer in any base. -/
def integer : Scanner Node := do
  match ← Scanner.rest with
  | '0' :: 'x' :: _ =>
      Scanner.word ['0', 'x']
      markedInteger 16
  | '0' :: 'o' :: _ =>
      Scanner.word ['0', 'o']
      markedInteger 8
  | '0' :: 'b' :: _ =>
      Scanner.word ['0', 'b']
      markedInteger 2
  | _ =>
      decimalInteger

/--
The number of some digits times a power of ten is too large for a double-precision
float: it is nearer to the next power of two than to the largest float.
-/
def overflows
    (digits : List Char)
    (exponent : Int) :
    Bool :=
  let size := Text.value digits
  let significant := digits.dropWhile (· = '0')
  let magnitude := significant.length + exponent
  if size = 0 ∨ magnitude ≤ 308 then
    false
  else if 310 ≤ magnitude then
    true
  else if 0 ≤ exponent then
    Nat.pow 2 1024 - Nat.pow 2 970 ≤ size * Nat.pow 10 exponent.toNat
  else
    (Nat.pow 2 1024 - Nat.pow 2 970) * Nat.pow 10 exponent.natAbs ≤ size

/-- A point and digits, if a point comes next. -/
def fraction : Scanner (List Char) := do
  if ← Scanner.char? '.' then
    digitRun 10
  else
    pure []

/-- The power of ten after the letter of an exponent. -/
def exponentTail : Scanner Int := do
  let negative ← sign
  let size := (Text.value (← digitRun 10) : Int)
  pure (if negative then -size else size)

/-- An exponent, if one comes next. -/
def exponent : Scanner (Option Int) := do
  if ← Scanner.char? 'e' then
    some <$> exponentTail
  else if ← Scanner.char? 'E' then
    some <$> exponentTail
  else
    pure none

/-- A number with a fraction or an exponent. -/
def decimalFloat : Scanner Node := do
  let negative ← sign
  let whole ← wholeDigits
  let fraction ← fraction
  let exponent ← exponent
  guard (!fraction.isEmpty || exponent.isSome)
  guard (negative || !overflows (whole ++ fraction) (exponent.getD 0 - fraction.length))
  pure .float

/-- An infinity or no number at all, with a sign or without. -/
def specialFloat : Scanner Node := do
  let _ ← sign
  Scanner.word ['i', 'n', 'f'] <|> Scanner.word ['n', 'a', 'n']
  pure .float

/-- A two-digit number up to a limit. -/
def twoDigits (limit : Nat) : Scanner Nat := do
  let number ← Scanner.fixedNumber 2
  guard (number ≤ limit)
  pure number

/-- A date that exists. -/
def date : Scanner Unit := do
  let year ← Scanner.fixedNumber 4
  Scanner.char '-'
  let month ← Scanner.fixedNumber 2
  Scanner.char '-'
  let day ← Scanner.fixedNumber 2
  guard ({ year := (year : Int), month, day } : Date).Exists

/-- A time of day, with a leap second perhaps and a fraction. -/
def time : Scanner Unit := do
  let _ ← twoDigits 23
  Scanner.char ':'
  let _ ← twoDigits 59
  Scanner.char ':'
  let _ ← twoDigits 60
  if ← Scanner.char? '.' then
    let digits ← Scanner.run Char.isDigit
    guard (!digits.isEmpty)

/-- An offset from universal time. -/
def offset : Scanner Unit := do
  match ← Scanner.one fun char => char = 'Z' || char = 'z' || char = '+' || char = '-' with
  | 'Z' => pure ()
  | 'z' => pure ()
  | _ =>
      let _ ← twoDigits 23
      Scanner.char ':'
      let _ ← twoDigits 59

/-- A time of day after the mark that parts it from the date, and perhaps an offset. -/
def timeOfDate : Scanner Unit := do
  let _ ← Scanner.one fun char => char = 'T' || char = 't' || char = ' '
  time
  offset <|> pure ()

/-- A date, a date with a time, or a time. -/
def moment : Scanner Node := do
  (do date
      timeOfDate <|> pure ()) <|> time
  pure .moment

/-- A number, a date or a time. -/
def number : Scanner Node :=
  moment <|> decimalFloat <|> specialFloat <|> integer

end TokenBudget.Toml
