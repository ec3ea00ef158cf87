namespace TokenBudget.Json

/-!
# JSON values

A value as its text has it: numbers keep their characters, objects keep every
field in order, and strings keep the escapes that name a code unit.  A string
with such an escape need not be a text, since a surrogate may stand alone;
`Piece.decode?` tells.
-/

/-- A character of a string, or a 16-bit code unit that an escape names. -/
inductive Piece where
  | plain (char : Char)
  | unit (code : Nat)
  deriving Repr, DecidableEq

/-- A JSON value. -/
inductive Value where
  | null
  | boolean (value : Bool)
  | number (text : List Char)
  | string (pieces : List Piece)
  | array (items : List Value)
  | object (fields : List (List Piece × Value))
  deriving Repr

namespace Piece

/-- The code unit is the first half of a pair. -/
def isHighSurrogate (code : Nat) : Bool :=
  0xD800 ≤ code && code ≤ 0xDBFF

/-- The code unit is the second half of a pair. -/
def isLowSurrogate (code : Nat) : Bool :=
  0xDC00 ≤ code && code ≤ 0xDFFF

/-- The characters of a string; none if a surrogate stands alone. -/
def decode? : List Piece → Option (List Char)
  | [] => some []
  | .plain char :: rest =>
      (decode? rest).map (char :: ·)
  | .unit code :: rest =>
      if isHighSurrogate code then
        match rest with
        | .unit low :: others =>
            if isLowSurrogate low then
              (decode? others).map
                (Char.ofNat (0x10000 + (code - 0xD800) * 0x400 + (low - 0xDC00)) :: ·)
            else
              none
        | _ => none
      else if isLowSurrogate code then
        none
      else
        (decode? rest).map (Char.ofNat code :: ·)

/-- A text as pieces of a string. -/
def ofText (text : String) : List Piece :=
  text.toList.map plain

/-- The text that pieces spell. -/
def toText? (pieces : List Piece) : Option String :=
  (decode? pieces).map String.ofList

end Piece

namespace Value

/-- A text as a value. -/
def ofText (text : String) : Value :=
  .string (Piece.ofText text)

/-- An object with the given fields. -/
def ofFields (fields : List (String × Value)) : Value :=
  .object (fields.map fun field => (Piece.ofText field.1, field.2))

/-- The text of a string value. -/
def text? : Value → Option String
  | .string pieces => Piece.toText? pieces
  | _ => none

end Value

end TokenBudget.Json
