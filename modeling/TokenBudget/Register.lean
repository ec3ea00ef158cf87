namespace TokenBudget

/-!
# Registers

Values filed under names.  Filing under a name that is taken replaces its value
in place; a new name goes to the end.  The view of a register is `find?`:
`find?_insert` says what an insertion does to it.
-/

/-- Values under names, in the order in which the names came. -/
structure Register (Value : Type) where
  entries : List (String × Value)
  deriving Repr, DecidableEq

namespace Register

/-- Nothing filed. -/
def empty : Register Value where
  entries := []

instance : Inhabited (Register Value) where
  default := empty

/-- The value of the first entry under a name. -/
def lookupIn?
    (name : String) :
    List (String × Value) → Option Value
  | [] => none
  | entry :: later =>
      if entry.1 = name then
        some entry.2
      else
        lookupIn? name later

/-- The value under a name. -/
def find?
    (register : Register Value)
    (name : String) :
    Option Value :=
  lookupIn? name register.entries

/-- Entries after filing a value under a name. -/
def insertEntry
    (name : String)
    (value : Value) :
    List (String × Value) → List (String × Value)
  | [] => [(name, value)]
  | entry :: later =>
      if entry.1 = name then
        (name, value) :: later
      else
        entry :: insertEntry name value later

/-- File a value under a name, in place of one that is there. -/
def insert
    (register : Register Value)
    (name : String)
    (value : Value) :
    Register Value where
  entries := insertEntry name value register.entries

/-- Take out what is filed under a name. -/
def erase
    (register : Register Value)
    (name : String) :
    Register Value where
  entries := register.entries.filter fun entry => entry.1 != name

/-- The names in order of entry. -/
def names (register : Register Value) : List String :=
  register.entries.map Prod.fst

/-- The names in the order of their code points. -/
def sortedNames (register : Register Value) : List String :=
  register.names.mergeSort fun first second => decide (first ≤ second)

/-- The values in order of entry. -/
def values (register : Register Value) : List Value :=
  register.entries.map Prod.snd

@[simp]
theorem find?_empty (name : String) :
    (empty : Register Value).find? name = none :=
  rfl

/-- After filing, the name has the new value and every other name what it had. -/
theorem find?_insert
    (register : Register Value)
    (name other : String)
    (value : Value) :
    (register.insert name value).find? other =
      if other = name then some value else register.find? other := by
  obtain ⟨entries⟩ := register
  simp only [insert, find?]
  induction entries with
  | nil =>
      simp [insertEntry, lookupIn?, eq_comm]
  | cons entry later inductionHypothesis =>
      by_cases taken : entry.1 = name
      · by_cases same : other = name
        · simp [insertEntry, lookupIn?, taken, same]
        · have differs : ¬ name = other := fun equal => same equal.symm
          simp [insertEntry, lookupIn?, taken, same, differs]
      · by_cases here : entry.1 = other
        · have differs : ¬ other = name := fun equal => taken (here.trans equal)
          simp [insertEntry, lookupIn?, here, differs]
        · simp [insertEntry, lookupIn?, taken, here, inductionHypothesis]

/-- After taking out a name, every other name has what it had. -/
theorem find?_erase
    (register : Register Value)
    (name other : String) :
    (register.erase name).find? other =
      if other = name then none else register.find? other := by
  obtain ⟨entries⟩ := register
  simp only [erase, find?]
  induction entries with
  | nil =>
      simp [lookupIn?]
  | cons entry later inductionHypothesis =>
      by_cases taken : entry.1 = name
      · by_cases same : other = name
        · simpa [lookupIn?, taken, same] using inductionHypothesis
        · have differs : ¬ name = other := fun equal => same equal.symm
          simpa [lookupIn?, taken, same, differs] using inductionHypothesis
      · by_cases here : entry.1 = other
        · have differs : ¬ other = name := fun equal => taken (here.trans equal)
          simp [lookupIn?, here, differs]
        · simpa [lookupIn?, taken, here] using inductionHypothesis

theorem names_insertEntry
    (name : String)
    (value : Value)
    (entries : List (String × Value)) :
    (insertEntry name value entries).map Prod.fst =
      if name ∈ entries.map Prod.fst then
        entries.map Prod.fst
      else
        entries.map Prod.fst ++ [name] := by
  induction entries with
  | nil =>
      simp [insertEntry]
  | cons entry later inductionHypothesis =>
      by_cases taken : entry.1 = name
      · simp [insertEntry, taken]
      · have other : name ≠ entry.1 := fun same => taken same.symm
        simp only [insertEntry, taken, if_false, List.map_cons, inductionHypothesis,
          List.mem_cons, other, false_or]
        by_cases member : name ∈ later.map Prod.fst
        · simp only [if_pos member]
        · simp only [if_neg member, List.cons_append]

/-- Filing under a taken name adds no name; a new name is added. -/
theorem names_insert
    (register : Register Value)
    (name : String)
    (value : Value) :
    (register.insert name value).names =
      if name ∈ register.names then register.names else register.names ++ [name] :=
  names_insertEntry name value register.entries

end Register

end TokenBudget
