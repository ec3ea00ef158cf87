import TokenBudget.Toml.Lexical

namespace TokenBudget.Toml

/-!
# Text in quotes

Double quotes allow escapes, single quotes do not.  One quote on each side keeps
the text on its line; three quotes let it run over lines, whose ends then count
as line feeds, and drop a line break right after the opening quotes.

Within three quotes, one or two quotes in a row are text.  Up to five end it: the
last three close the text, and those before them belong to it.
-/

open Text (Scanner)

/-- The character of a number, unless it is half of a surrogate pair or too large. -/
def scalar? (code : Nat) : Option Char :=
  if code.isValidChar then
    some (Char.ofNat code)
  else
    none

/-- The character that a number of hexadecimal digits names. -/
def hexScalar (width : Nat) : Scanner Char := do
  let digits ← Scanner.runUpTo width (Text.isDigitOf 16)
  guard (digits.length = width)
  let some char := scalar? (Text.valueInBase 16 digits)
    | failure
  pure char

/-- The character of an escape, after its backslash. -/
def escape : Scanner Char := do
  match ← Scanner.one fun _ => true with
  | 'b' => pure '\x08'
  | 't' => pure '\t'
  | 'n' => pure '\n'
  | 'f' => pure '\x0c'
  | 'r' => pure '\r'
  | '"' => pure '"'
  | '\\' => pure '\\'
  | 'u' => hexScalar 4
  | 'U' => hexScalar 8
  | _ => failure

/-- Text up to a double quote, of at most so many characters and escapes. -/
def basicTail : Nat → Scanner (List Char)
  | 0 => failure
  | limit + 1 => do
      match ← Scanner.one isPlain with
      | '"' =>
          return []
      | '\\' =>
          let char ← escape
          return char :: (← basicTail limit)
      | char =>
          return char :: (← basicTail limit)

/-- Text in double quotes on one line. -/
def basic : Scanner (List Char) := do
  Scanner.char '"'
  let text ← Scanner.rest
  basicTail text.length

/-- Text in single quotes on one line. -/
def literal : Scanner (List Char) := do
  Scanner.char '\''
  let text ← Scanner.run fun char => isPlain char && char ≠ '\''
  Scanner.char '\''
  pure text

/-- White space and line breaks. -/
def skipBreaks : List Char → List Char
  | ' ' :: rest => skipBreaks rest
  | '\t' :: rest => skipBreaks rest
  | '\n' :: rest => skipBreaks rest
  | '\r' :: '\n' :: rest => skipBreaks rest
  | text => text

/-- A line break that a backslash takes out, with the white space around it. -/
def continuation : Scanner Unit := do
  gap
  newline
  fun text => some ((), skipBreaks text)

/-- Text up to three quotes, of at most so many pieces; escapes count in double quotes. -/
def longTail (mark : Char) : Nat → Scanner (List Char)
  | 0 => failure
  | limit + 1 => do
      match ← Scanner.peek? with
      | none =>
          failure
      | some char =>
          if char = mark then
            let quotes ← Scanner.run (· = mark)
            if quotes.length < 3 then
              return quotes ++ (← longTail mark limit)
            else
              guard (quotes.length ≤ 5)
              return quotes.drop 3
          else if char = '\\' ∧ mark = '"' then
            Scanner.char '\\'
            let chars ← (do return [← escape]) <|> (do continuation; return [])
            return chars ++ (← longTail mark limit)
          else if char = '\n' ∨ char = '\r' then
            newline
            return '\n' :: (← longTail mark limit)
          else
            let char ← Scanner.one isPlain
            return char :: (← longTail mark limit)

/-- Text in three quotes. -/
def long (mark : Char) : Scanner (List Char) := do
  Scanner.word [mark, mark, mark]
  newline <|> pure ()
  let text ← Scanner.rest
  longTail mark text.length

/-- Text in quotes of any kind. -/
def quoted : Scanner (List Char) := do
  match (← Scanner.rest) with
  | '"' :: '"' :: '"' :: _ => long '"'
  | '"' :: _ => basic
  | '\'' :: '\'' :: '\'' :: _ => long '\''
  | _ => literal

end TokenBudget.Toml
