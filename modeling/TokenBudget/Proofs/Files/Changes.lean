import TokenBudget.Proofs.Files.Locations

namespace TokenBudget

/-!
# Changes to a file tree

`FileTree.Keeps` says what a change leaves alone: every directory, and every file
outside the locations it touched.  A path that led somewhere still leads there
afterwards, so files that were not touched are read as before.

`FileTree.Sets` says what a change does at the one location that it touches, and
`FileTree.Confined` that outside some locations it does nothing but make directories
where nothing was.
-/

/-- What a text is written as is read as the text. -/
theorem fromUTF8?_toUTF8 (text : String) :
    String.fromUTF8? text.toUTF8 = some text :=
  dif_pos text.isValidUTF8

namespace Place

/-- The same name leads on from every directory. -/
theorem exists_step_of_directory
    {place other next : Place}
    {name : String}
    {entries : Register FileNode}
    (steps : place.step name = .ok next)
    (directory : other.node = some (.directory entries)) :
    ∃ reached, other.step name = .ok reached := by
  obtain ⟨_, _, ⟨filler, _⟩ | ⟨named, back, _⟩ | ⟨named, notBack, short, _⟩⟩ :=
    step_eq_ok_iff.mp steps
  · exact ⟨_, step_eq_ok_iff.mpr ⟨entries, directory, .inl ⟨filler, rfl⟩⟩⟩
  · exact ⟨_, step_eq_ok_iff.mpr ⟨entries, directory, .inr (.inl ⟨named, back, rfl⟩)⟩⟩
  · exact ⟨_, step_eq_ok_iff.mpr
      ⟨entries, directory, .inr (.inr ⟨named, notBack, short, rfl⟩)⟩⟩

/-- A place has a directory when one is seen at its location. -/
theorem Within.exists_directory
    {root : Register FileNode}
    {place : Place}
    (within : Within root place)
    (seen : lookIn root place.location = some .directory) :
    ∃ entries, place.node = some (.directory entries) := by
  rw [within.lookIn_eq] at seen
  rcases found : place.node with _ | ⟨content⟩ | ⟨entries⟩
  · simp [found] at seen
  · simp [found, FileNode.kind] at seen
  · exact ⟨entries, rfl⟩

/-- Following names depends on nothing but the directories on the way. -/
theorem Within.follow_of_directories
    {old new : Register FileNode}
    {place other next : Place}
    {names : List String}
    (directories : ∀ location,
      lookIn old location = some .directory → lookIn new location = some .directory)
    (within : Within old place)
    (otherWithin : Within new other)
    (same : other.location = place.location)
    (follows : place.follow names = .ok next) :
    ∃ reached,
      other.follow names = .ok reached ∧
        Within new reached ∧
        reached.location = next.location := by
  induction names generalizing place other with
  | nil =>
      cases follows
      exact ⟨other, rfl, otherWithin, same⟩
  | cons name names inductionHypothesis =>
      rw [Place.follow, List.foldlM_cons] at follows ⊢
      cases steps : place.step name with
      | error fault =>
          simp [steps, bind, Except.bind] at follows
      | ok middle =>
          have led := within.step steps
          obtain ⟨entries, directory, _⟩ := step_eq_ok_iff.mp steps
          have seen : lookIn new other.location = some .directory := by
            apply directories
            rw [same, within.lookIn_eq, directory]
            rfl
          obtain ⟨otherEntries, otherDirectory⟩ := otherWithin.exists_directory seen
          obtain ⟨otherMiddle, otherSteps⟩ := exists_step_of_directory steps otherDirectory
          have otherLed := otherWithin.step otherSteps
          rw [steps] at follows
          rw [otherSteps]
          exact inductionHypothesis led.1 otherLed.1
            (by rw [otherLed.2, led.2, same]) follows

/-- Names without two dots lead no way back. -/
theorem prefix_foldl_onward
    (location : Location)
    {names : List String}
    (straight : ".." ∉ names) :
    location <+: names.foldl onward location := by
  induction names generalizing location with
  | nil =>
      exact List.prefix_refl location
  | cons name names inductionHypothesis =>
      rw [List.mem_cons, not_or] at straight
      have oneStep : location <+: onward location name := by
        rw [onward]
        split
        · exact List.prefix_refl location
        · rw [if_neg (Ne.symm straight.1)]
          exact List.prefix_append location [name]
      exact oneStep.trans (inductionHypothesis _ straight.2)

/-- Around everything that is seen something is seen. -/
theorem lookIn_ne_none_of_prefix
    {root : Register FileNode}
    {outer inner : Location}
    (around : outer <+: inner)
    (seen : lookIn root inner ≠ none) :
    lookIn root outer ≠ none := by
  obtain ⟨below, rfl⟩ := around
  intro absent
  rw [lookIn, Option.map_eq_none_iff] at absent
  rw [lookIn, FileNode.find?_append, absent] at seen
  exact seen rfl

/--
Names without two dots that lead to something in one root led there in another that
had something there, if every file of the other root is still one.
-/
theorem Within.exists_follow_of_straight
    {old new : Register FileNode}
    {place other next : Place}
    {names : List String}
    (files : ∀ location content,
      lookIn old location = some (.file content) → lookIn new location = some (.file content))
    (straight : ".." ∉ names)
    (within : Within old place)
    (otherWithin : Within new other)
    (same : other.location = place.location)
    (follows : other.follow names = .ok next)
    (seen : lookIn old next.location ≠ none) :
    ∃ reached, place.follow names = .ok reached := by
  induction names generalizing place other with
  | nil =>
      exact ⟨place, rfl⟩
  | cons name names inductionHypothesis =>
      have led := (otherWithin.follow follows).2
      rw [Place.follow, List.foldlM_cons] at follows ⊢
      cases steps : other.step name with
      | error fault =>
          simp [steps, bind, Except.bind] at follows
      | ok middle =>
          obtain ⟨otherEntries, otherDirectory, _⟩ := step_eq_ok_iff.mp steps
          -- What lies around the end of the names is there, and is no file.
          have here : lookIn old place.location ≠ none := by
            refine lookIn_ne_none_of_prefix ?_ seen
            rw [led, same]
            exact prefix_foldl_onward _ straight
          have directory : lookIn old place.location = some .directory := by
            rcases found : lookIn old place.location with _ | ⟨content⟩ | _
            · exact absurd found here
            · have stillFile := files _ content found
              rw [← same, otherWithin.lookIn_eq, otherDirectory] at stillFile
              simp [FileNode.kind] at stillFile
            · rfl
          obtain ⟨entries, isDirectory⟩ := within.exists_directory directory
          obtain ⟨reached, reaches⟩ := exists_step_of_directory steps isDirectory
          have otherLed := otherWithin.step steps
          have placeLed := within.step reaches
          rw [steps] at follows
          rw [reaches]
          rw [List.mem_cons, not_or] at straight
          exact inductionHypothesis straight.2 placeLed.1 otherLed.1
            (by rw [otherLed.2, placeLed.2, same]) follows

end Place

namespace FileTree

/-- What is seen at a location of a tree. -/
def look
    (tree : FileTree)
    (location : Location) :
    Option FileKind :=
  lookIn tree.root location

/-- The location of a path, as its names tell it. -/
def location
    (tree : FileTree)
    (path : String) :
    Location :=
  (tree.startOf path ++ Path.names path).foldl onward []

/-- Where neither a file nor a directory is seen, nothing is. -/
theorem look_eq_none
    {tree : FileTree}
    {location : Location}
    (noFile : ∀ content, tree.look location ≠ some (.file content))
    (noDirectory : tree.look location ≠ some .directory) :
    tree.look location = none := by
  rcases seen : tree.look location with _ | ⟨content⟩ | _
  · rfl
  · exact absurd seen (noFile content)
  · exact absurd seen noDirectory

theorem location_congr
    {old new : FileTree}
    (same : new.workingDirectory = old.workingDirectory)
    (path : String) :
    new.location path = old.location path := by
  simp only [location, startOf, same]

/-- What a change of a tree leaves alone. -/
structure Keeps
    (touched : List Location)
    (old : FileTree)
    (new : FileTree) : Prop where
  workingDirectory : new.workingDirectory = old.workingDirectory
  directories : ∀ location, old.look location = some .directory → new.look location = some .directory
  files :
    ∀ location content,
      location ∉ touched →
      (new.look location = some (.file content) ↔ old.look location = some (.file content))

namespace Keeps

variable
    {touched : List Location}
    {old middle new : FileTree}

theorem trans
    (first : Keeps touched old middle)
    (second : Keeps touched middle new) :
    Keeps touched old new where
  workingDirectory := second.workingDirectory.trans first.workingDirectory
  directories location directory := second.directories location (first.directories location directory)
  files location content untouched :=
    (second.files location content untouched).trans (first.files location content untouched)

theorem mono
    {more : List Location}
    (keeps : Keeps touched old new)
    (subset : touched ⊆ more) :
    Keeps more old new where
  workingDirectory := keeps.workingDirectory
  directories := keeps.directories
  files location content untouched :=
    keeps.files location content fun member => untouched (subset member)

theorem location_eq
    (keeps : Keeps touched old new)
    (path : String) :
    new.location path = old.location path :=
  location_congr keeps.workingDirectory path

end Keeps

/-- A change that is seen at one location only. -/
structure Sets
    (location : Location)
    (seen : Option FileKind)
    (old : FileTree)
    (new : FileTree) : Prop where
  workingDirectory : new.workingDirectory = old.workingDirectory
  here : new.look location = seen
  elsewhere : ∀ other, other ≠ location → new.look other = old.look other

/-- A change that makes directories under some paths, and does nothing else outside some locations. -/
structure Confined
    (written : List Location)
    (made : String → Prop)
    (old : FileTree)
    (new : FileTree) : Prop where
  workingDirectory : new.workingDirectory = old.workingDirectory
  elsewhere :
    ∀ location,
      location ∉ written →
      new.look location = old.look location ∨
        old.look location = none ∧
          new.look location = some .directory ∧
          ∃ path, made path ∧ location = old.location path

namespace Sets

variable
    {location : Location}
    {seen : Option FileKind}
    {old new : FileTree}

theorem confined
    (sets : Sets location seen old new)
    (made : String → Prop) :
    Confined [location] made old new where
  workingDirectory := sets.workingDirectory
  elsewhere other notWritten :=
    .inl (sets.elsewhere other (by simpa using notWritten))

/-- Where no directory was, no directory is lost. -/
theorem keeps
    (sets : Sets location seen old new)
    (notDirectory : old.look location ≠ some .directory) :
    Keeps [location] old new where
  workingDirectory := sets.workingDirectory
  directories other directory := by
    have differs : other ≠ location := by
      rintro rfl
      exact notDirectory directory
    rw [sets.elsewhere other differs, directory]
  files other content untouched := by
    rw [sets.elsewhere other (by simpa using untouched)]

/-- Of two changes at one location the second is seen. -/
theorem trans
    {later : Option FileKind}
    {middle : FileTree}
    (first : Sets location seen old middle)
    (second : Sets location later middle new) :
    Sets location later old new where
  workingDirectory := second.workingDirectory.trans first.workingDirectory
  here := second.here
  elsewhere other differs :=
    (second.elsewhere other differs).trans (first.elsewhere other differs)

/-- Where what was seen before is put, all is seen as before. -/
theorem look_eq
    (sets : Sets location (old.look location) old new)
    (other : Location) :
    new.look other = old.look other := by
  by_cases here : other = location
  · rw [here, sets.here]
  · exact sets.elsewhere other here

/-- A directory may be made where nothing was. -/
theorem confined_of_directory
    {path : String}
    {made : String → Prop}
    (sets : Sets (old.location path) (some .directory) old new)
    (absent : old.look (old.location path) = none)
    (isMade : made path) :
    Confined [] made old new where
  workingDirectory := sets.workingDirectory
  elsewhere other _ := by
    by_cases here : other = old.location path
    · rw [here]
      exact .inr ⟨absent, sets.here, path, isMade, rfl⟩
    · exact .inl (sets.elsewhere other here)

end Sets

namespace Confined

variable
    {written : List Location}
    {made : String → Prop}
    {old middle new : FileTree}

theorem refl
    (written : List Location)
    (made : String → Prop)
    (tree : FileTree) :
    Confined written made tree tree where
  workingDirectory := rfl
  elsewhere _ _ := .inl rfl

/-- Trees in which the same is seen everywhere. -/
theorem of_look_eq
    (sameDirectory : new.workingDirectory = old.workingDirectory)
    (same : ∀ location, new.look location = old.look location) :
    Confined written made old new where
  workingDirectory := sameDirectory
  elsewhere location _ := .inl (same location)

theorem trans
    (first : Confined written made old middle)
    (second : Confined written made middle new) :
    Confined written made old new where
  workingDirectory := second.workingDirectory.trans first.workingDirectory
  elsewhere location notWritten := by
    rcases first.elsewhere location notWritten with same | ⟨absent, directory, path, isMade, there⟩
    · rcases second.elsewhere location notWritten with
        sameLater | ⟨absent, directory, path, isMade, there⟩
      · exact .inl (sameLater.trans same)
      · rw [location_congr first.workingDirectory] at there
        exact .inr ⟨same ▸ absent, directory, path, isMade, there⟩
    · rcases second.elsewhere location notWritten with sameLater | ⟨absentLater, _⟩
      · exact .inr ⟨absent, sameLater.trans directory, path, isMade, there⟩
      · rw [directory] at absentLater
        contradiction

theorem mono
    {more : List Location}
    (confined : Confined written made old new)
    (subset : written ⊆ more) :
    Confined more made old new where
  workingDirectory := confined.workingDirectory
  elsewhere location notWritten :=
    confined.elsewhere location fun member => notWritten (subset member)

/-- Directories that are made where nothing was touch no file. -/
theorem keeps (confined : Confined [] made old new) :
    Keeps [] old new where
  workingDirectory := confined.workingDirectory
  directories location directory := by
    rcases confined.elsewhere location List.not_mem_nil with same | ⟨absent, _⟩
    · rw [same, directory]
    · rw [directory] at absent
      contradiction
  files location content _ := by
    rcases confined.elsewhere location List.not_mem_nil with same | ⟨absent, directory, _⟩
    · rw [same]
    · simp [absent, directory]

end Confined

/-- Names lead to their location, if they lead anywhere. -/
theorem locateNames_spec
    {tree : FileTree}
    {path : String}
    {names : List String}
    {place : Place}
    (located : tree.locateNames path names = .ok place) :
    checkPath path = .ok () ∧
      (Place.ofRoot tree.root).follow (tree.startOf path ++ names) = .ok place ∧
      Place.Within tree.root place ∧
      place.location = (tree.startOf path ++ names).foldl onward [] := by
  rw [locateNames] at located
  cases usable : checkPath path with
  | error fault =>
      simp [usable, bind, Except.bind] at located
  | ok _ =>
      rw [usable] at located
      exact ⟨rfl, located, Place.Within.root.follow located⟩

/-- A path leads to its location, if it leads anywhere. -/
theorem locate_spec
    {tree : FileTree}
    {path : String}
    {place : Place}
    (located : tree.locate path = .ok place) :
    Place.Within tree.root place ∧ place.location = tree.location path :=
  (locateNames_spec located).2.2

/-- A path still leads where it led. -/
theorem Keeps.locate
    {touched : List Location}
    {old new : FileTree}
    {path : String}
    {place : Place}
    (keeps : Keeps touched old new)
    (located : old.locate path = .ok place) :
    ∃ reached,
      new.locate path = .ok reached ∧
        Place.Within new.root reached ∧
        reached.location = old.location path := by
  obtain ⟨usable, follows, within, led⟩ := locateNames_spec located
  obtain ⟨reached, followsNew, withinNew, same⟩ :=
    Place.Within.root.follow_of_directories keeps.directories Place.Within.root rfl follows
  refine ⟨reached, ?_, withinNew, same.trans led⟩
  rw [FileTree.locate, locateNames, usable, startOf, keeps.workingDirectory]
  exact followsNew

theorem node_eq_ok_iff
    {tree : FileTree}
    {path : String}
    {place : Place}
    {found : FileNode}
    (located : tree.locate path = .ok place) :
    tree.node path = .ok found ↔ place.node = some found := by
  rw [node, located]
  rcases there : place.node with _ | other <;> simp [bind, Except.bind, there]

/-- The file under a path is the one at its location, if the path leads there. -/
theorem node_eq_file_iff
    {tree : FileTree}
    {path : String}
    {content : ByteArray} :
    tree.node path = .ok (.file content) ↔
      (∃ place, tree.locate path = .ok place) ∧
        tree.look (tree.location path) = some (.file content) := by
  cases located : tree.locate path with
  | error fault =>
      simp [node, located, bind, Except.bind]
  | ok place =>
      obtain ⟨within, led⟩ := locate_spec located
      rw [node_eq_ok_iff located, look, ← led, within.lookIn_eq]
      rcases place.node with _ | ⟨other⟩ | ⟨entries⟩ <;> simp [FileNode.kind]

/-- A path without two dots that led to nothing still finds nothing old where it leads. -/
theorem Keeps.look_eq_none_of_straight
    {old new : FileTree}
    {path : String}
    {place : Place}
    {fault : FileFault}
    (keeps : Keeps [] old new)
    (straight : ".." ∉ old.startOf path ++ Path.names path)
    (nowhere : old.node path = .error fault)
    (located : new.locate path = .ok place) :
    old.look (old.location path) = none := by
  by_contra seen
  obtain ⟨usable, follows, -, led⟩ := locateNames_spec located
  have sameStart : new.startOf path = old.startOf path := by
    rw [startOf, startOf, keeps.workingDirectory]
  rw [sameStart] at follows led
  rw [location, ← led] at seen
  have files : ∀ location content,
      lookIn old.root location = some (.file content) →
        lookIn new.root location = some (.file content) :=
    fun location content => (keeps.files location content List.not_mem_nil).mpr
  obtain ⟨reached, reaches⟩ :=
    Place.Within.root.exists_follow_of_straight files straight .root rfl follows seen
  have locatedOld : old.locate path = .ok reached := by
    rw [FileTree.locate, locateNames, usable]
    exact reaches
  obtain ⟨within, ledOld⟩ := locate_spec locatedOld
  rw [led] at seen
  rw [node, locatedOld] at nowhere
  rcases found : reached.node with _ | node
  · have absent : old.look (old.location path) = none := by
      rw [look, ← ledOld, within.lookIn_eq, found, Option.map_none]
    exact seen absent
  · simp [bind, Except.bind, found] at nowhere

/-- A file outside the locations that were touched is there as before. -/
theorem Keeps.node_file
    {touched : List Location}
    {old new : FileTree}
    {path : String}
    {content : ByteArray}
    (keeps : Keeps touched old new)
    (untouched : old.location path ∉ touched)
    (found : old.node path = .ok (.file content)) :
    new.node path = .ok (.file content) := by
  rw [node_eq_file_iff] at found ⊢
  obtain ⟨⟨place, located⟩, seen⟩ := found
  obtain ⟨reached, locatedNew, _⟩ := keeps.locate located
  rw [keeps.location_eq]
  exact ⟨⟨reached, locatedNew⟩, (keeps.files _ content untouched).mpr seen⟩

theorem readText_eq_ok_iff
    {tree : FileTree}
    {path text : String} :
    tree.readText path = .ok text ↔
      ∃ content, tree.node path = .ok (.file content) ∧ String.fromUTF8? content = some text := by
  rw [readText]
  rcases tree.node path with fault | ⟨content⟩ | ⟨entries⟩
  · simp [bind, Except.bind]
  · cases decoded : String.fromUTF8? content <;> simp [bind, Except.bind, decoded]
  · simp [bind, Except.bind]

end FileTree

end TokenBudget
