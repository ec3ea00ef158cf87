import TokenBudget.Json.Value
import TokenBudget.Text.Scanner

namespace TokenBudget.Json

/-!
# Reading JSON

A strict reader: white space is space, tab, line feed and carriage return,
nothing follows the value, and no comma trails.  Strings hold no control
characters, and their escapes are those of the standard.  How deep values nest
is not limited.
-/

open Text (Scanner)

/-- White space between tokens. -/
def isGap (char : Char) : Bool :=
  char = ' ' || char = '\t' || char = '\n' || char = '\r'

/-- Pass over white space between tokens. -/
def gap : Scanner Unit :=
  fun text => some ((), text.dropWhile isGap)

/-- The number that hexadecimal digits spell, if all of them are such digits. -/
def hexNumber? (digits : List Char) : Option Nat :=
  if digits.all (Text.isDigitOf 16) then
    some (Text.valueInBase 16 digits)
  else
    none

/-- The character that a one-letter escape names. -/
def shortEscape? : Char → Option Char
  | '"' => some '"'
  | '\\' => some '\\'
  | '/' => some '/'
  | 'b' => some '\x08'
  | 'f' => some '\x0c'
  | 'n' => some '\n'
  | 'r' => some '\r'
  | 't' => some '\t'
  | _ => none

/-- The pieces of a string after its opening quote, and the text after its closing one. -/
def stringTail : List Char → Option (List Piece × List Char)
  | [] => none
  | '"' :: rest => some ([], rest)
  | '\\' :: 'u' :: first :: second :: third :: fourth :: rest => do
      let code ← hexNumber? [first, second, third, fourth]
      let (pieces, after) ← stringTail rest
      some (.unit code :: pieces, after)
  | '\\' :: letter :: rest => do
      let char ← shortEscape? letter
      let (pieces, after) ← stringTail rest
      some (.plain char :: pieces, after)
  | char :: rest =>
      if char.toNat < 0x20 ∨ char = '\\' then
        none
      else do
        let (pieces, after) ← stringTail rest
        some (.plain char :: pieces, after)

/-- A string. -/
def string : Scanner (List Piece) := do
  Scanner.char '"'
  stringTail

/-- The digits before point and exponent: zero alone, or no zero in front. -/
def wholeDigits : Scanner (List Char) := do
  let digits ← Scanner.run Char.isDigit
  guard (!digits.isEmpty && (digits.head? != some '0' || digits.length == 1))
  pure digits

/-- A point and digits, if a point comes next. -/
def fraction : Scanner (List Char) := do
  if ← Scanner.char? '.' then
    let digits ← Scanner.run Char.isDigit
    guard (!digits.isEmpty)
    pure ('.' :: digits)
  else
    pure []

/-- The sign of an exponent, if there is one. -/
def exponentSign : Scanner (List Char) := do
  if ← Scanner.char? '+' then
    pure ['+']
  else if ← Scanner.char? '-' then
    pure ['-']
  else
    pure []

/-- The letter of an exponent, if one comes next. -/
def exponentLetter : Scanner (List Char) := do
  if ← Scanner.char? 'e' then
    pure ['e']
  else if ← Scanner.char? 'E' then
    pure ['E']
  else
    pure []

/-- An exponent, if one comes next. -/
def exponent : Scanner (List Char) := do
  let letter ← exponentLetter
  if letter.isEmpty then
    pure []
  else
    let sign ← exponentSign
    let digits ← Scanner.run Char.isDigit
    guard (!digits.isEmpty)
    pure (letter ++ sign ++ digits)

/-- A number as it is written. -/
def number : Scanner (List Char) := do
  let sign := if ← Scanner.char? '-' then ['-'] else []
  let whole ← wholeDigits
  let fraction ← fraction
  let exponent ← exponent
  pure (sign ++ whole ++ fraction ++ exponent)

/-- At least one and at most so many items with commas between them, up to a closing mark. -/
def itemsUpTo
    (close : Char)
    (item : Scanner Item) :
    Nat → Scanner (List Item)
  | 0 => failure
  | limit + 1 => do
      let first ← item
      gap
      if ← Scanner.char? ',' then
        let others ← itemsUpTo close item limit
        pure (first :: others)
      else
        Scanner.char close
        pure [first]

/-- Items with commas between them up to a closing mark; there may be none. -/
def items
    (close : Char)
    (item : Scanner Item) :
    Scanner (List Item) := do
  gap
  if ← Scanner.char? close then
    pure []
  else
    let text ← Scanner.rest
    itemsUpTo close item text.length

/-- A key, a colon and a value. -/
def field (value : Scanner Value) : Scanner (List Piece × Value) := do
  gap
  let key ← string
  gap
  Scanner.char ':'
  let content ← value
  pure (key, content)

/-- A value that nests at most so deep, with white space before it. -/
def valueWithin : Nat → Scanner Value
  | 0 => failure
  | depth + 1 => do
      gap
      match ← Scanner.peek? with
      | some '"' =>
          return .string (← string)
      | some '[' =>
          Scanner.char '['
          return .array (← items ']' (valueWithin depth))
      | some '{' =>
          Scanner.char '{'
          return .object (← items '}' (field (valueWithin depth)))
      | some 'n' =>
          Scanner.word ['n', 'u', 'l', 'l']
          return .null
      | some 't' =>
          Scanner.word ['t', 'r', 'u', 'e']
          return .boolean true
      | some 'f' =>
          Scanner.word ['f', 'a', 'l', 's', 'e']
          return .boolean false
      | _ =>
          return .number (← number)

/-- A whole text: one value with white space around it. -/
def document : Scanner Value := do
  let text ← Scanner.rest
  let value ← valueWithin (text.length + 1)
  gap
  Scanner.finished
  pure value

/-- The value that a text spells. -/
def read? (text : String) : Option Value :=
  document.read? text

end TokenBudget.Json
