import Mathlib.Data.List.Basic
import TokenBudget.Files.Tree

namespace TokenBudget

/-!
# Locations in a file tree

A path leads to a location, which is found in its names alone: fillers stay, two
dots go back, any other name goes on.  A place that was reached in a tree lies at
that location, and what is there is what the tree has under it.  A change at a
place is seen at its location and below, and nowhere else: `lookIn_put` and
`lookIn_clear`.
-/

/-- What is seen of a node from outside. -/
inductive FileKind where
  | file (content : ByteArray)
  | directory

namespace FileNode

/-- What a node is, without what is in it if it is a directory. -/
def kind : FileNode → FileKind
  | .file content => .file content
  | .directory _ => .directory

@[simp]
theorem find?_nil (node : FileNode) :
    node.find? [] = some node := by
  cases node <;> rfl

theorem find?_append
    (node : FileNode)
    (front back : Location) :
    node.find? (front ++ back) = (node.find? front).bind fun found => found.find? back := by
  induction front generalizing node with
  | nil =>
      simp
  | cons name front inductionHypothesis =>
      cases node with
      | file content =>
          rfl
      | directory entries =>
          cases found : entries.find? name with
          | none =>
              simp [find?, found]
          | some next =>
              simp [find?, found, inductionHypothesis]

theorem find?_directory_cons
    (entries : Register FileNode)
    (name : String)
    (below : Location) :
    (directory entries).find? (name :: below) =
      (entries.find? name).bind fun found => found.find? below := by
  cases found : entries.find? name <;> simp [find?, found]

end FileNode

/-- What is seen at a location below a root. -/
def lookIn
    (root : Register FileNode)
    (location : Location) :
    Option FileKind :=
  ((FileNode.directory root).find? location).map FileNode.kind

theorem lookIn_cons
    (root : Register FileNode)
    (name : String)
    (below : Location) :
    lookIn root (name :: below) =
      (root.find? name).bind fun node => (node.find? below).map FileNode.kind := by
  rw [lookIn, FileNode.find?_directory_cons, Option.map_bind]
  rfl

/-- The location that a name leads to. -/
def onward
    (location : Location)
    (name : String) :
    Location :=
  if Path.isFiller name then
    location
  else if name = ".." then
    location.dropLast
  else
    location ++ [name]

namespace Place

/-- The names that lead on through directories, given from the innermost to the root. -/
def locationOf (around : List (Register FileNode × String)) : Location :=
  (around.map Prod.snd).reverse

/-- The names from the root to a place. -/
def location (place : Place) : Location :=
  locationOf place.around

@[simp]
theorem locationOf_cons
    (entries : Register FileNode)
    (name : String)
    (around : List (Register FileNode × String)) :
    locationOf ((entries, name) :: around) = locationOf around ++ [name] := by
  simp [locationOf]

/-- The place was reached from a root: the directories around it are those of the root. -/
inductive Within (root : Register FileNode) : Place → Prop
  | root : Within root (.ofRoot root)
  | under
      {entries : Register FileNode}
      {around : List (Register FileNode × String)}
      (name : String)
      (outer : Within root { node := some (.directory entries), around }) :
      Within root { node := entries.find? name, around := (entries, name) :: around }

variable {root : Register FileNode}

/-- What is at a place is what the root has at its location. -/
theorem Within.node_eq
    {place : Place}
    (within : Within root place) :
    place.node = (FileNode.directory root).find? place.location := by
  induction within with
  | root =>
      rfl
  | under name outer inductionHypothesis =>
      simp only [location, locationOf_cons] at inductionHypothesis ⊢
      rw [FileNode.find?_append, ← inductionHypothesis, Option.bind_some,
        FileNode.find?_directory_cons]
      simp

theorem Within.lookIn_eq
    {place : Place}
    (within : Within root place) :
    lookIn root place.location = place.node.map FileNode.kind := by
  rw [lookIn, within.node_eq]

/-- Below a directory that was reached, the root has what the directory has. -/
theorem Within.lookIn_append
    {entries : Register FileNode}
    {around : List (Register FileNode × String)}
    (within : Within root { node := some (.directory entries), around })
    (below : Location) :
    lookIn root (locationOf around ++ below) = lookIn entries below := by
  have node := within.node_eq
  rw [location] at node
  rw [lookIn, FileNode.find?_append, ← node, Option.bind_some, lookIn]

theorem Within.outward
    {place : Place}
    (within : Within root place) :
    Within root place.outward ∧ place.outward.location = place.location.dropLast := by
  cases within with
  | root =>
      exact ⟨.root, rfl⟩
  | under name outer =>
      exact ⟨outer, by simp [Place.outward, location]⟩

/-- A name leads on from a directory only, and no name that leads on is too long. -/
theorem step_eq_ok_iff
    {place next : Place}
    {name : String} :
    place.step name = .ok next ↔
      ∃ entries,
        place.node = some (.directory entries) ∧
          (Path.isFiller name = true ∧ next = place ∨
            Path.isFiller name = false ∧ name = ".." ∧ next = place.outward ∨
            Path.isFiller name = false ∧ name ≠ ".." ∧ name.utf8ByteSize ≤ longestName ∧
              next = { node := entries.find? name, around := (entries, name) :: place.around }) := by
  obtain ⟨node, around⟩ := place
  rcases node with _ | ⟨content⟩ | ⟨entries⟩
  · simp [Place.step, Place.entries, bind, Except.bind]
  · simp [Place.step, Place.entries, bind, Except.bind]
  · simp only [Place.step, Place.entries, bind, Except.bind, Option.some.injEq,
      FileNode.directory.injEq, exists_eq_left']
    by_cases filler : Path.isFiller name = true
    · simp [filler, pure, Except.pure, eq_comm]
    · by_cases back : name = ".."
      · subst back
        simp [filler, pure, Except.pure, eq_comm]
      · by_cases long : longestName < name.utf8ByteSize
        · simp [filler, back, long, Nat.not_le.mpr long, throw, throwThe, MonadExceptOf.throw]
        · simp [filler, back, long, Nat.not_lt.mp long, pure, Except.pure, eq_comm]

/-- A step leads to the location that its name leads to. -/
theorem Within.step
    {place next : Place}
    {name : String}
    (within : Within root place)
    (steps : place.step name = .ok next) :
    Within root next ∧ next.location = onward place.location name := by
  obtain ⟨entries, directory, ⟨filler, rfl⟩ | ⟨named, rfl, rfl⟩ | ⟨named, notBack, _, rfl⟩⟩ :=
    step_eq_ok_iff.mp steps
  · simp [onward, filler, within]
  · simpa [onward, named] using within.outward
  · obtain ⟨node, around⟩ := place
    cases directory
    refine ⟨within.under name, ?_⟩
    simp [onward, named, notBack, location]

/-- Following names leads to the location that they lead to. -/
theorem Within.follow
    {place next : Place}
    {names : List String}
    (within : Within root place)
    (follows : place.follow names = .ok next) :
    Within root next ∧ next.location = names.foldl onward place.location := by
  induction names generalizing place with
  | nil =>
      cases follows
      exact ⟨within, rfl⟩
  | cons name names inductionHypothesis =>
      rw [Place.follow, List.foldlM_cons] at follows
      cases steps : place.step name with
      | error fault =>
          simp [steps, bind, Except.bind] at follows
      | ok middle =>
          obtain ⟨withinMiddle, led⟩ := within.step steps
          rw [steps] at follows
          obtain ⟨withinNext, led'⟩ := inductionHypothesis withinMiddle follows
          exact ⟨withinNext, by rw [led', led, List.foldl_cons]⟩

/-- The root of a place in a directory has the entries of that directory. -/
theorem Within.outer
    {node : Option FileNode}
    {entries : Register FileNode}
    {name : String}
    {around : List (Register FileNode × String)}
    (within : Within root { node, around := (entries, name) :: around }) :
    Within root { node := some (.directory entries), around } ∧ node = entries.find? name := by
  cases within with
  | under _ outer =>
      exact ⟨outer, rfl⟩

/-- A directory that gets other entries is seen with these in the root. -/
theorem lookIn_enclose
    (changed : Register FileNode)
    (around : List (Register FileNode × String))
    (below : Location) :
    lookIn (enclose changed around) (locationOf around ++ below) = lookIn changed below := by
  induction around generalizing changed below with
  | nil =>
      rfl
  | cons entry around inductionHypothesis =>
      obtain ⟨outer, name⟩ := entry
      rw [enclose, locationOf_cons, List.append_assoc, inductionHypothesis, List.singleton_append,
        lookIn_cons, Register.find?_insert, if_pos rfl, Option.bind_some, lookIn]

theorem lookIn_congr
    {entries changed : Register FileNode}
    {name : String}
    (others : ∀ other, other ≠ name → changed.find? other = entries.find? other)
    {sought : Location}
    (outside : ¬ [name] <+: sought) :
    lookIn changed sought = lookIn entries sought := by
  cases sought with
  | nil =>
      rfl
  | cons other below =>
      have differs : other ≠ name := by
        rintro rfl
        exact outside (List.prefix_append [other] below)
      rw [lookIn_cons, lookIn_cons, others other differs]

/--
Where a directory gets other entries under one name only, the root stays as it was
except at that name and below.
-/
theorem Within.lookIn_enclose_outside
    {entries changed : Register FileNode}
    {around : List (Register FileNode × String)}
    {name : String}
    (within : Within root { node := some (.directory entries), around })
    (others : ∀ other, other ≠ name → changed.find? other = entries.find? other)
    {sought : Location}
    (outside : ¬ locationOf around ++ [name] <+: sought) :
    lookIn (enclose changed around) sought = lookIn root sought := by
  induction around generalizing entries changed name with
  | nil =>
      have whole : lookIn root sought = lookIn entries sought := within.lookIn_append sought
      rw [whole]
      exact lookIn_congr others outside
  | cons entry around inductionHypothesis =>
      obtain ⟨outer, outerName⟩ := entry
      obtain ⟨withinOuter, found⟩ := within.outer
      rw [locationOf_cons] at outside
      rw [enclose]
      by_cases inside : locationOf around ++ [outerName] <+: sought
      · obtain ⟨below, rfl⟩ := inside
        have outsideBelow : ¬ [name] <+: below := fun starts =>
          outside ((List.prefix_append_right_inj _).mpr starts)
        have same := within.lookIn_append below
        rw [locationOf_cons] at same
        rw [same, List.append_assoc, lookIn_enclose, List.singleton_append, lookIn_cons,
          Register.find?_insert, if_pos rfl]
        exact lookIn_congr others outsideBelow
      · refine inductionHypothesis withinOuter (fun other differs => ?_) inside
        rw [Register.find?_insert, if_neg differs]

section

variable
    {place : Place}
    (within : Within root place)
    (notRoot : place.around ≠ [])

include within notRoot

/-- A node that was put at a place is seen there with what is in it. -/
theorem Within.lookIn_put
    (node : FileNode)
    (below : Location) :
    lookIn (place.put node root) (place.location ++ below) =
      (node.find? below).map FileNode.kind := by
  obtain ⟨found, around⟩ := place
  cases around with
  | nil =>
      exact absurd rfl notRoot
  | cons entry around =>
      obtain ⟨entries, name⟩ := entry
      rw [location, locationOf_cons, List.append_assoc, put, lookIn_enclose,
        List.singleton_append, lookIn_cons, Register.find?_insert, if_pos rfl, Option.bind_some]

theorem Within.lookIn_put_outside
    (node : FileNode)
    {sought : Location}
    (outside : ¬ place.location <+: sought) :
    lookIn (place.put node root) sought = lookIn root sought := by
  obtain ⟨found, around⟩ := place
  cases around with
  | nil =>
      exact absurd rfl notRoot
  | cons entry around =>
      obtain ⟨entries, name⟩ := entry
      rw [location, locationOf_cons] at outside
      refine within.outer.1.lookIn_enclose_outside (fun other differs => ?_) outside
      rw [Register.find?_insert, if_neg differs]

/-- Nothing is seen at a place that was cleared, nor below it. -/
theorem Within.lookIn_clear (below : Location) :
    lookIn (place.clear root) (place.location ++ below) = none := by
  obtain ⟨found, around⟩ := place
  cases around with
  | nil =>
      exact absurd rfl notRoot
  | cons entry around =>
      obtain ⟨entries, name⟩ := entry
      rw [location, locationOf_cons, List.append_assoc, clear, lookIn_enclose,
        List.singleton_append, lookIn_cons, Register.find?_erase, if_pos rfl, Option.bind_none]

theorem Within.lookIn_clear_outside
    {sought : Location}
    (outside : ¬ place.location <+: sought) :
    lookIn (place.clear root) sought = lookIn root sought := by
  obtain ⟨found, around⟩ := place
  cases around with
  | nil =>
      exact absurd rfl notRoot
  | cons entry around =>
      obtain ⟨entries, name⟩ := entry
      rw [location, locationOf_cons] at outside
      refine within.outer.1.lookIn_enclose_outside (fun other differs => ?_) outside
      rw [Register.find?_erase, if_neg differs]

end

end Place

end TokenBudget
