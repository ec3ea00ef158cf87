import TokenBudget.Toml.Number
import TokenBudget.Toml.Quoted

namespace TokenBudget.Toml

/-!
# Keys and values of TOML

A key has one part or several with dots between them.  A value is text, a number,
a date, a truth value, an array, which may run over lines and end in a comma, or
an inline table, which may not.

Values nest at most 79 deep, and a key has at most 79 parts.
-/

open Text (Scanner)

/-- The least depth and the least number of parts that is too much. -/
def nestingLimit : Nat := 80

/-- A character of a key without quotes. -/
def isKeyChar (char : Char) : Bool :=
  char.isAlphanum || char = '-' || char = '_'

/-- One part of a key. -/
def keyPart : Scanner String := do
  match ← Scanner.peek? with
  | some '"' =>
      String.ofList <$> basic
  | some '\'' =>
      String.ofList <$> literal
  | _ =>
      let chars ← Scanner.run isKeyChar
      guard (!chars.isEmpty)
      pure (String.ofList chars)

/-- At most so many parts of a key with dots between them. -/
def keyParts : Nat → Scanner (List String)
  | 0 => failure
  | limit + 1 => do
      gap
      let part ← keyPart
      gap
      if ← Scanner.char? '.' then
        return part :: (← keyParts limit)
      else
        return [part]

/-- A key, dotted perhaps, with white space around its parts. -/
def key : Scanner (List String) :=
  keyParts (nestingLimit - 1)

/-- The text after white space, line breaks and comments; a comment ends in a line break. -/
def afterGaps (inComment : Bool) : List Char → Option (List Char)
  | [] => if inComment then none else some []
  | '\n' :: rest => afterGaps false rest
  | '\r' :: '\n' :: rest => afterGaps false rest
  | char :: rest =>
      if inComment then
        if isPlain char then afterGaps true rest else none
      else if isGap char then
        afterGaps false rest
      else if char = '#' then
        afterGaps true rest
      else
        some (char :: rest)

/-- White space, comments and line breaks in an array. -/
def arrayGaps : Scanner Unit :=
  fun text => (afterGaps false text).map fun rest => ((), rest)

/-- At most so many items of an array up to its closing bracket. -/
def arrayItems (value : Scanner Node) : Nat → Scanner (List Node)
  | 0 => failure
  | limit + 1 => do
      arrayGaps
      if ← Scanner.char? ']' then
        return []
      else
        let item ← value
        arrayGaps
        if ← Scanner.char? ',' then
          return item :: (← arrayItems value limit)
        else
          Scanner.char ']'
          return [item]

/-- A key, an equals sign and a value. -/
def pair (value : Scanner Node) : Scanner (List String × Node) := do
  let key ← key
  Scanner.char '='
  gap
  let value ← value
  pure (key, value)

/-- At least one and at most so many pairs of an inline table up to its closing brace. -/
def inlinePairs (value : Scanner Node) : Nat → Scanner (List (List String × Node))
  | 0 => failure
  | limit + 1 => do
      let first ← pair value
      gap
      if ← Scanner.char? ',' then
        return first :: (← inlinePairs value limit)
      else
        Scanner.char '\x7d'
        return [first]

/-- The pairs of an inline table after its opening brace. -/
def inlineBody (value : Scanner Node) : Scanner (List (List String × Node)) := do
  gap
  if ← Scanner.char? '\x7d' then
    pure []
  else
    let text ← Scanner.rest
    inlinePairs value text.length

/-- A value in which arrays and inline tables nest at most so deep. -/
def valueWithin (depth : Nat) : Scanner Node := do
  match ← Scanner.peek? with
  | some '"' =>
      return .text (String.ofList (← quoted))
  | some '\'' =>
      return .text (String.ofList (← quoted))
  | some 't' =>
      Scanner.word ['t', 'r', 'u', 'e']
      return .boolean true
  | some 'f' =>
      Scanner.word ['f', 'a', 'l', 's', 'e']
      return .boolean false
  | some '[' =>
      match depth with
      | 0 => failure
      | inner + 1 =>
          Scanner.char '['
          let text ← Scanner.rest
          return .array (← arrayItems (valueWithin inner) text.length)
  | some '\x7b' =>
      match depth with
      | 0 => failure
      | inner + 1 =>
          Scanner.char '\x7b'
          let pairs ← inlineBody (valueWithin inner)
          let some table := Table.ofPairs? pairs
            | failure
          return table.toNode
  | _ =>
      number

/-- A value. -/
def value : Scanner Node :=
  valueWithin (nestingLimit - 1)

end TokenBudget.Toml
