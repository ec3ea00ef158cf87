import TokenBudget.Json.Value

namespace TokenBudget.Json

/-!
# Writing JSON

Values in lines: every item of an array and every field of an object has a line
of its own, two spaces further in than the brackets around it.  Empty arrays and
objects stay on one line.  Strings escape quotes, backslashes and control
characters, and nothing else.
-/

/-- A hexadecimal digit in lower case. -/
def hexDigit (value : Nat) : Char :=
  if value < 10 then Char.ofNat (48 + value) else Char.ofNat (87 + value)

/-- The escape of a code unit by its number. -/
def unitEscape (code : Nat) : List Char :=
  ['\\', 'u', hexDigit (code / 4096), hexDigit (code / 256 % 16),
    hexDigit (code / 16 % 16), hexDigit (code % 16)]

/-- A character as it stands in a string. -/
def writeChar (char : Char) : List Char :=
  if char = '"' then
    ['\\', '"']
  else if char = '\\' then
    ['\\', '\\']
  else if char = '\x08' then
    ['\\', 'b']
  else if char = '\t' then
    ['\\', 't']
  else if char = '\n' then
    ['\\', 'n']
  else if char = '\x0c' then
    ['\\', 'f']
  else if char = '\r' then
    ['\\', 'r']
  else if char.toNat < 0x20 then
    unitEscape char.toNat
  else
    [char]

/-- A piece of a string. -/
def writePiece : Piece → List Char
  | .plain char => writeChar char
  | .unit code => unitEscape code

/-- A string with its quotes. -/
def writeString (pieces : List Piece) : List Char :=
  '"' :: pieces.flatMap writePiece ++ ['"']

/-- A new line and the spaces of its depth. -/
def lineBreak (depth : Nat) : List Char :=
  '\n' :: List.replicate (2 * depth) ' '

mutual

/-- A value whose brackets stand at a depth. -/
def writeValue (depth : Nat) : Value → List Char
  | .null => ['n', 'u', 'l', 'l']
  | .boolean true => ['t', 'r', 'u', 'e']
  | .boolean false => ['f', 'a', 'l', 's', 'e']
  | .number text => text
  | .string pieces => writeString pieces
  | .array [] => ['[', ']']
  | .array (first :: others) =>
      '[' :: lineBreak (depth + 1) ++ writeValue (depth + 1) first ++
        writeItems (depth + 1) others ++ lineBreak depth ++ [']']
  | .object [] => ['\x7b', '\x7d']
  | .object ((key, value) :: others) =>
      '\x7b' :: lineBreak (depth + 1) ++ writeString key ++ [':', ' '] ++
        writeValue (depth + 1) value ++ writeFields (depth + 1) others ++ lineBreak depth ++
        ['\x7d']

/-- The items after the first, each after a comma and on its own line. -/
def writeItems (depth : Nat) : List Value → List Char
  | [] => []
  | item :: others =>
      ',' :: lineBreak depth ++ writeValue depth item ++ writeItems depth others

/-- The fields after the first, each after a comma and on its own line. -/
def writeFields (depth : Nat) : List (List Piece × Value) → List Char
  | [] => []
  | (key, value) :: others =>
      ',' :: lineBreak depth ++ writeString key ++ [':', ' '] ++ writeValue depth value ++
        writeFields depth others

end

/-- The text of a value. -/
def write (value : Value) : String :=
  String.ofList (writeValue 0 value)

end TokenBudget.Json
