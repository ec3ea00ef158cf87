namespace TokenBudget.Toml

/-!
# TOML trees

A document is a table of nodes under keys.  How a table came about decides who
may add to it: a table under a header of its own, a table that only lies on the
way of a header, one that dotted keys opened, or one written inline.

`Table.descend` walks from a table along keys, opening tables on its way, and
`Table.assign` and the header functions say what each kind of line adds.
-/

/-- How a table came about. -/
inductive TableKind where
  /-- It has a header of its own, or is the document. -/
  | header
  /-- It lies on the way of a header. -/
  | implied
  /-- Dotted keys opened it. -/
  | dotted
  /-- It is written as a value. -/
  | inline
  deriving Repr, DecidableEq

/-- A value, a table, or the tables of one repeated header. -/
inductive Node where
  | text (text : String)
  | integer (value : Int)
  | float
  | boolean (value : Bool)
  | moment
  | array (items : List Node)
  | table (kind : TableKind) (entries : List (String × Node))
  | tables (elements : List (List (String × Node)))
  deriving Repr

/-- A table with its entries. -/
structure Table where
  kind : TableKind
  entries : List (String × Node)
  deriving Repr

namespace Table

/-- A document without lines. -/
def empty : Table where
  kind := .header
  entries := []

/-- The node under a key. -/
def find?
    (table : Table)
    (key : String) :
    Option Node :=
  table.entries.lookup key

/-- The table with a node under a key, in place of one that is there. -/
def put
    (table : Table)
    (key : String)
    (node : Node) :
    Table :=
  { table with
    entries := table.entries.filter (fun entry => entry.1 != key) ++ [(key, node)] }

/-- A table as a node. -/
def toNode (table : Table) : Node :=
  .table table.kind table.entries

/--
Change the table that keys lead to.  Tables that are missing are opened, of
repeated tables the last is meant, and values, inline tables among them, lead
nowhere.  Dotted keys do not lead into a table with a header.
-/
def descend
    (byDots : Bool)
    (change : Table → Option Table) :
    List String → Table → Option Table
  | [], table => change table
  | key :: path, table =>
      match table.find? key with
      | none => do
          let opened := { kind := if byDots then .dotted else .implied, entries := [] }
          let changed ← descend byDots change path opened
          return table.put key changed.toNode
      | some (.table kind entries) =>
          if kind = .inline ∨ (byDots ∧ kind = .header) then
            none
          else do
            let changed ← descend byDots change path { kind, entries }
            return table.put key changed.toNode
      | some (.tables elements) =>
          match elements.getLast? with
          | none => none
          | some last => do
              let changed ← descend byDots change path { kind := .header, entries := last }
              return table.put key (.tables (elements.dropLast ++ [changed.entries]))
      | some _ => none

/-- Give the table at the end of dotted keys a new entry. -/
def assign
    (keys : List String)
    (value : Node)
    (table : Table) :
    Option Table :=
  match keys.getLast? with
  | none => none
  | some last =>
      let path := keys.dropLast
      descend true
        (fun target =>
          if decide (target.kind = .dotted) = path.isEmpty ∨ (target.find? last).isSome then
            none
          else
            some (target.put last value))
        path table

/-- Open the table of a header, which may so far only lie on the way of others. -/
def openHeader
    (keys : List String)
    (document : Table) :
    Option Table :=
  match keys.getLast? with
  | none => none
  | some last =>
      descend false
        (fun parent =>
          match parent.find? last with
          | none => some (parent.put last (.table .header []))
          | some (.table .implied entries) => some (parent.put last (.table .header entries))
          | some _ => none)
        keys.dropLast document

/-- Add one more table under a repeated header. -/
def openRepeated
    (keys : List String)
    (document : Table) :
    Option Table :=
  match keys.getLast? with
  | none => none
  | some last =>
      descend false
        (fun parent =>
          match parent.find? last with
          | none => some (parent.put last (.tables [[]]))
          | some (.tables elements) => some (parent.put last (.tables (elements ++ [[]])))
          | some _ => none)
        keys.dropLast document

/-- Give the table under the header in force a new entry. -/
def assignUnder
    (header keys : List String)
    (value : Node)
    (document : Table) :
    Option Table :=
  descend false (assign keys value) header document

/-- An inline table of its pairs in order. -/
def ofPairs? (pairs : List (List String × Node)) : Option Table :=
  pairs.foldlM (fun table pair => table.assign pair.1 pair.2) { kind := .inline, entries := [] }

end Table

end TokenBudget.Toml
