import TokenBudget.Toml.Value

namespace TokenBudget.Toml

/-!
# TOML documents

A document is read line by line: a header, a repeated header, or a key with a
value.  The lines are then carried out one after the other on an empty table.  A
byte order mark at the front of the text is passed over.
-/

open Text (Scanner)

/-- A line that says something. -/
inductive Line where
  | header (keys : List String)
  | repeatedHeader (keys : List String)
  | entry (keys : List String) (value : Node)
  deriving Repr

/-- A line, up to the start of the next; none for one that says nothing. -/
def line : Scanner (Option Line) := do
  gap
  match ← Scanner.rest with
  | '#' :: _ =>
      lineRest
      return none
  | '\n' :: _ =>
      newline
      return none
  | '\r' :: _ =>
      newline
      return none
  | '[' :: '[' :: _ =>
      Scanner.word ['[', '[']
      let keys ← key
      Scanner.word [']', ']']
      lineRest
      return some (.repeatedHeader keys)
  | '[' :: _ =>
      Scanner.char '['
      let keys ← key
      Scanner.char ']'
      lineRest
      return some (.header keys)
  | _ =>
      let (keys, value) ← pair value
      lineRest
      return some (.entry keys value)

/-- At most so many lines up to the end of the text. -/
def lines : Nat → Scanner (List Line)
  | 0 => Scanner.finished *> pure []
  | limit + 1 => do
      gap
      match ← Scanner.rest with
      | [] => return []
      | _ =>
          let read ← line
          return read.toList ++ (← lines limit)

/-- A whole text as lines. -/
def document : Scanner (List Line) := do
  let _ ← Scanner.char? '\uFEFF'
  let text ← Scanner.rest
  lines text.length

/-- A document as far as it is read, with the header in force. -/
structure Draft where
  table : Table
  header : List String
  deriving Repr

/-- Carry out a line. -/
def Draft.add (draft : Draft) : Line → Option Draft
  | .header keys =>
      (draft.table.openHeader keys).map fun table => { table, header := keys }
  | .repeatedHeader keys =>
      (draft.table.openRepeated keys).map fun table => { table, header := keys }
  | .entry keys value =>
      (draft.table.assignUnder draft.header keys value).map fun table => { draft with table }

/-- The table of a document. -/
def Table.ofLines? (lines : List Line) : Option Table :=
  (lines.foldlM Draft.add { table := .empty, header := [] }).map Draft.table

/-- The table that a text spells. -/
def read? (text : String) : Option Table :=
  (document.read? text).bind Table.ofLines?

end TokenBudget.Toml
