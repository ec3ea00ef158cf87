import Mathlib.Data.List.Induction
import Mathlib.Logic.Relation
import TokenBudget.Proofs.Files.Changes

namespace TokenBudget

/-!
# What operations on files change

Making a directory is seen where nothing was, writing a text at the file that is
written, and renaming at the two files of its paths.  Making the directories
around a path is a run of the first; replacing the text of a file is the second
followed by the third, and is seen at that file only: `FileTree.replaceText_cases`.
-/

namespace Path

/-- One path is another without its last name. -/
def IsParent (path parent : String) : Prop :=
  parent? path = some parent

/-- The path around a path, the path around that one, and so on. -/
def Around (path outer : String) : Prop :=
  Relation.TransGen IsParent path outer

end Path

namespace FileTree

section

variable
    {touched : List Location}
    {tree : FileTree}
    {place : Place}

/-- Only a directory is in the root itself. -/
theorem around_ne_nil
    (within : Place.Within tree.root place)
    (notDirectory : ∀ entries, place.node ≠ some (.directory entries)) :
    place.around ≠ [] := by
  cases within with
  | root =>
      exact absurd rfl (notDirectory tree.root)
  | under name outer =>
      simp

/-- Below a place without a directory there is nothing. -/
theorem look_below
    (within : Place.Within tree.root place)
    (notDirectory : ∀ entries, place.node ≠ some (.directory entries))
    {below : Location}
    (proper : below ≠ []) :
    tree.look (place.location ++ below) = none := by
  rw [look, lookIn, FileNode.find?_append, ← within.node_eq]
  obtain ⟨name, below, rfl⟩ := List.exists_cons_of_ne_nil proper
  rcases found : place.node with _ | ⟨content⟩ | ⟨entries⟩
  · rfl
  · rfl
  · exact absurd found (notDirectory entries)

theorem look_ne_directory
    (within : Place.Within tree.root place)
    (notDirectory : ∀ entries, place.node ≠ some (.directory entries)) :
    tree.look place.location ≠ some .directory := by
  rw [look, within.lookIn_eq]
  rcases found : place.node with _ | ⟨content⟩ | ⟨entries⟩
  · simp
  · simp [FileNode.kind]
  · exact absurd found (notDirectory entries)

/-- A change at a place without a directory, with nothing below it, is seen there only. -/
theorem sets_of_local
    {changed : Register FileNode}
    (within : Place.Within tree.root place)
    (notDirectory : ∀ entries, place.node ≠ some (.directory entries))
    (outside : ∀ location, ¬ place.location <+: location →
      lookIn changed location = lookIn tree.root location)
    (below : ∀ below, below ≠ [] → lookIn changed (place.location ++ below) = none) :
    Sets place.location (lookIn changed place.location) tree { tree with root := changed } where
  workingDirectory := rfl
  here := rfl
  elsewhere location differs := by
    by_cases inside : place.location <+: location
    · obtain ⟨rest, rfl⟩ := inside
      have proper : rest ≠ [] := by
        rintro rfl
        exact differs (List.append_nil _)
      rw [look_below within notDirectory proper]
      exact below rest proper
    · exact outside location inside

/-- A file or an empty directory that is put at a place is all that changes. -/
theorem sets_put
    (within : Place.Within tree.root place)
    (notDirectory : ∀ entries, place.node ≠ some (.directory entries))
    (node : FileNode)
    (nothingBelow : ∀ below, below ≠ [] → node.find? below = none) :
    Sets place.location (some node.kind) tree
      { tree with root := place.put node tree.root } := by
  have notRoot := around_ne_nil within notDirectory
  have here : lookIn (place.put node tree.root) place.location = some node.kind := by
    have put := within.lookIn_put notRoot node []
    rwa [List.append_nil, FileNode.find?_nil, Option.map_some] at put
  rw [← here]
  refine sets_of_local within notDirectory (fun _ => within.lookIn_put_outside notRoot node)
    fun below proper => ?_
  rw [within.lookIn_put notRoot, nothingBelow below proper, Option.map_none]

theorem sets_put_file
    (within : Place.Within tree.root place)
    (notDirectory : ∀ entries, place.node ≠ some (.directory entries))
    (content : ByteArray) :
    Sets place.location (some (.file content)) tree
      { tree with root := place.put (.file content) tree.root } := by
  refine sets_put within notDirectory (.file content) fun below proper => ?_
  obtain ⟨name, below, rfl⟩ := List.exists_cons_of_ne_nil proper
  rfl

theorem sets_put_directory
    (within : Place.Within tree.root place)
    (absent : place.node = none) :
    Sets place.location (some .directory) tree
      { tree with root := place.put (.directory .empty) tree.root } := by
  refine sets_put within (by simp [absent]) (.directory .empty) fun below proper => ?_
  obtain ⟨name, below, rfl⟩ := List.exists_cons_of_ne_nil proper
  rfl

theorem sets_clear
    (within : Place.Within tree.root place)
    (notDirectory : ∀ entries, place.node ≠ some (.directory entries)) :
    Sets place.location none tree { tree with root := place.clear tree.root } := by
  have notRoot := around_ne_nil within notDirectory
  have here : lookIn (place.clear tree.root) place.location = none := by
    have cleared := within.lookIn_clear notRoot []
    rwa [List.append_nil] at cleared
  rw [← here]
  exact sets_of_local within notDirectory (fun _ => within.lookIn_clear_outside notRoot)
    fun below _ => within.lookIn_clear notRoot below

end

/-- The place of a file to be written is that of its path and holds no directory. -/
theorem placeFile_spec
    {tree : FileTree}
    {path : String}
    {place : Place}
    (placed : tree.placeFile path = .ok place) :
    tree.locate path = .ok place ∧ ∀ entries, place.node ≠ some (.directory entries) := by
  rw [placeFile] at placed
  cases located : tree.locate path with
  | error fault =>
      simp [located, bind, Except.bind] at placed
  | ok found =>
      simp only [located, bind, Except.bind] at placed
      split at placed
      · contradiction
      · split at placed
        · contradiction
        · split at placed
          · contradiction
          · cases placed
            exact ⟨rfl, ‹_›⟩

/-- Empty names at the end of a path lead nowhere else. -/
theorem foldl_onward_dropWhile_empty
    (start : Location)
    (names : List String) :
    ((names.reverse.dropWhile fun name => name = "").reverse).foldl onward start =
      names.foldl onward start := by
  induction names using List.reverseRecOn with
  | nil =>
      rfl
  | append_singleton names name inductionHypothesis =>
      rw [List.reverse_concat, List.dropWhile_cons, List.foldl_concat]
      by_cases empty : name = ""
      · rw [if_pos (decide_eq_true empty), inductionHypothesis, empty]
        rfl
      · rw [if_neg (by simpa using empty), List.reverse_cons, List.reverse_reverse,
          List.foldl_concat]

/-- A new directory is made where nothing is. -/
theorem makeDirectory_spec
    {tree new : FileTree}
    {path : String}
    (made : tree.makeDirectory path = .ok new) :
    tree.look (tree.location path) = none ∧
      Sets (tree.location path) (some .directory) tree new := by
  have sameLocation :
      (tree.startOf path ++
          ((Path.names path).reverse.dropWhile fun name => name = "").reverse).foldl onward [] =
        tree.location path := by
    rw [location, List.foldl_append, List.foldl_append, foldl_onward_dropWhile_empty]
  simp only [makeDirectory] at made
  generalize ((Path.names path).reverse.dropWhile fun name => name = "").reverse = names
    at made sameLocation
  cases located : tree.locateNames path names with
  | error fault =>
      simp [located, bind, Except.bind] at made
  | ok place =>
      obtain ⟨-, -, within, led⟩ := locateNames_spec located
      simp only [located, bind, Except.bind] at made
      split at made
      · contradiction
      · split at made
        · contradiction
        · split at made
          · contradiction
          · next absent =>
              cases made
              rw [← sameLocation, ← led]
              refine ⟨?_, sets_put_directory within absent⟩
              rw [look, within.lookIn_eq, absent, Option.map_none]

/-- A file that was put where a path leads is found under the path, and is all that changes. -/
theorem node_put_file
    {tree : FileTree}
    {path : String}
    {place : Place}
    (placed : tree.placeFile path = .ok place)
    (content : ByteArray) :
    Sets (tree.location path) (some (.file content)) tree
        { tree with root := place.put (.file content) tree.root } ∧
      tree.look (tree.location path) ≠ some .directory ∧
      FileTree.node { tree with root := place.put (.file content) tree.root } path =
        .ok (.file content) := by
  obtain ⟨located, notDirectory⟩ := placeFile_spec placed
  obtain ⟨within, led⟩ := locate_spec located
  have sets := sets_put_file within notDirectory content
  have noDirectory := look_ne_directory within notDirectory
  rw [led] at sets noDirectory
  obtain ⟨reached, locatedNew, _⟩ := (sets.keeps noDirectory).locate located
  refine ⟨sets, noDirectory, node_eq_file_iff.mpr ⟨⟨reached, locatedNew⟩, ?_⟩⟩
  rw [location_congr sets.workingDirectory]
  exact sets.here

/-- A written text is in the file, where the path led, and is all that changes. -/
theorem writeText_spec
    {tree new : FileTree}
    {path text : String}
    (written : tree.writeText path text = .ok new) :
    (∃ place, tree.locate path = .ok place) ∧
      Sets (tree.location path) (some (.file text.toUTF8)) tree new ∧
      tree.look (tree.location path) ≠ some .directory ∧
      new.node path = .ok (.file text.toUTF8) := by
  rw [writeText] at written
  cases placed : tree.placeFile path with
  | error fault =>
      simp [placed, bind, Except.bind] at written
  | ok place =>
      simp only [placed, bind, Except.bind, Except.ok.injEq] at written
      subst written
      exact ⟨⟨place, (placeFile_spec placed).1⟩, node_put_file placed text.toUTF8⟩

/-- A file under a path is where the path leads. -/
theorem locate_of_node_file
    {tree : FileTree}
    {path : String}
    {content : ByteArray}
    (found : tree.node path = .ok (.file content)) :
    ∃ place,
      tree.locate path = .ok place ∧
        place.node = some (.file content) ∧
        Place.Within tree.root place ∧
        place.location = tree.location path := by
  obtain ⟨⟨place, located⟩, _⟩ := node_eq_file_iff.mp found
  exact ⟨place, located, (node_eq_ok_iff located).mp found, locate_spec located⟩

/-- A renamed file is gone from its old path and found under the new one, and nothing else changes. -/
theorem rename_spec
    {tree new : FileTree}
    {source target : String}
    {content : ByteArray}
    (found : tree.node source = .ok (.file content))
    (renamed : tree.rename source target = .ok new) :
    (∃ without,
        Sets (tree.location source) none tree without ∧
          Sets (tree.location target) (some (.file content)) without new ∧
          without.look (tree.location target) ≠ some .directory ∧
          ∃ place, without.locate target = .ok place) ∧
      new.node target = .ok (.file content) := by
  obtain ⟨origin, located, node, within, led⟩ := locate_of_node_file found
  have cleared := sets_clear within (by simp [node])
  rw [led] at cleared
  rw [rename] at renamed
  simp only [located, node, bind, Except.bind] at renamed
  cases placed : FileTree.placeFile { tree with root := origin.clear tree.root } target with
  | error fault =>
      simp [placed] at renamed
  | ok destination =>
      simp only [placed, Except.ok.injEq] at renamed
      subst renamed
      obtain ⟨put, noDirectory, there⟩ := node_put_file placed content
      rw [location_congr cleared.workingDirectory] at put noDirectory
      exact ⟨⟨_, cleared, put, noDirectory, destination, (placeFile_spec placed).1⟩, there⟩

/-- A file that is removed is gone, and nothing else changes. -/
theorem remove_spec
    {tree : FileTree}
    {path : String}
    {content : ByteArray}
    (found : tree.node path = .ok (.file content)) :
    Sets (tree.location path) none tree (tree.remove path) := by
  obtain ⟨place, located, node, within, led⟩ := locate_of_node_file found
  rw [remove, located, ← led]
  simp only [node]
  exact sets_clear within (by simp [node])

/-- Whatever the tree, the computation does nothing but make directories under some paths. -/
def Adding
    (made : String → Prop)
    (action : Session Value) :
    Prop :=
  ∀ tree, Confined [] made tree (action tree).2

namespace Adding

variable {made : String → Prop}

theorem pure (value : Value) : Adding made (Pure.pure value : Session Value) :=
  Confined.refl [] made

theorem bind
    {First Next : Type}
    {action : Session First}
    {next : First → Session Next}
    (first : Adding made action)
    (second : ∀ value, Adding made (next value)) :
    Adding made (action >>= next) :=
  fun tree => (first tree).trans (second (action tree).1 (action tree).2)

theorem makeDirectory
    {path : String}
    (isMade : made path) :
    Adding made (FileAccess.makeDirectory path : Session (Except FileFault Unit)) := by
  intro tree
  change Confined [] made tree (change (fun tree => tree.makeDirectory path) tree).2
  rw [change]
  split
  · next new makes =>
      obtain ⟨absent, sets⟩ := makeDirectory_spec makes
      exact sets.confined_of_directory absent isMade
  · exact .refl [] made tree

theorem isDirectory (path : String) :
    Adding made (FileAccess.isDirectory path : Session Bool) :=
  Confined.refl [] made

theorem ensureDirectory
    {path : String}
    (isMade : made path) :
    Adding made (FileAccess.ensureDirectory path : Session (Except FileFault Unit)) := by
  refine bind (makeDirectory isMade) fun makes => ?_
  rcases makes with fault | _
  · refine bind (isDirectory path) fun there => ?_
    cases there
    · exact pure _
    · exact pure _
  · exact pure _

/-- Making a directory makes at most directories around it with it. -/
theorem makeWithin
    (limit : Nat)
    {path : String}
    (allMade : ∀ outer, Relation.ReflTransGen Path.IsParent path outer → made outer) :
    Adding made (FileAccess.makeWithin limit path : Session (Except FileFault Unit)) := by
  induction limit generalizing path with
  | zero =>
      exact pure _
  | succ limit inductionHypothesis =>
      have isMade := allMade path .refl
      rw [FileAccess.makeWithin]
      split
      · exact pure _
      · refine bind (makeDirectory isMade) fun makes => ?_
        split
        · exact pure _
        · split
          · exact pure _
          · next parent isParent =>
              have outerMade : ∀ outer,
                  Relation.ReflTransGen Path.IsParent parent outer → made outer :=
                fun outer around => allMade outer (around.head isParent)
              refine bind (inductionHypothesis outerMade) fun makes => ?_
              split
              · exact ensureDirectory isMade
              · exact pure _
        · refine bind (isDirectory path) fun there => ?_
          split
          · exact pure _
          · exact pure _

theorem makeDirectoriesAround (path : String) :
    Adding (Path.Around path)
      (FileAccess.makeDirectoriesAround path : Session (Except FileFault Unit)) := by
  rw [FileAccess.makeDirectoriesAround]
  split
  · exact pure _
  · next parent isParent =>
      exact makeWithin _ fun outer around => Relation.TransGen.head' isParent around

end Adding

/-- The temporary file of a replacement. -/
def temporaryPath
    (path defaultName : String)
    (tag : Nat) :
    String :=
  Path.withFileName path
    (FileAccess.temporaryName ((Path.fileName? path).getD defaultName) tag)

/-- After one computation the next goes on with its answer and the tree that it left. -/
theorem bind_of_run
    {First Next : Type}
    {action : Session First}
    {next : First → Session Next}
    {tree middle : FileTree}
    {value : First}
    (ran : action tree = (value, middle)) :
    (action >>= next) tree = next value middle := by
  change next (action tree).1 (action tree).2 = _
  rw [ran]

section

variable
    {tree new : FileTree}
    {path text source target : String}
    {fault : FileFault}

theorem run_writeText
    (written : tree.writeText path text = .ok new) :
    (FileAccess.writeText path text : Session _) tree = (.ok (), new) := by
  change change (fun tree => tree.writeText path text) tree = _
  rw [change, written]

theorem run_writeText_error
    (failed : tree.writeText path text = .error fault) :
    (FileAccess.writeText path text : Session _) tree = (.error fault, tree) := by
  change change (fun tree => tree.writeText path text) tree = _
  rw [change, failed]

theorem run_rename
    (renamed : tree.rename source target = .ok new) :
    (FileAccess.rename source target : Session _) tree = (.ok (), new) := by
  change change (fun tree => tree.rename source target) tree = _
  rw [change, renamed]

theorem run_rename_error
    (failed : tree.rename source target = .error fault) :
    (FileAccess.rename source target : Session _) tree = (.error fault, tree) := by
  change change (fun tree => tree.rename source target) tree = _
  rw [change, failed]

end

theorem replaceText_eq
    (path defaultName text : String)
    (tag : Nat) :
    (FileAccess.replaceText path defaultName tag text : Session _) =
      (do
        let temporary := temporaryPath path defaultName tag
        match ← FileAccess.writeText temporary text with
        | .error fault =>
            return .error fault
        | .ok () =>
            match ← FileAccess.rename temporary path with
            | .ok () =>
                return .ok ()
            | .error fault =>
                FileAccess.remove temporary
                return .error fault) :=
  rfl

theorem run_remove
    (tree : FileTree)
    (path : String) :
    (FileAccess.remove path : Session Unit) tree = ((), tree.remove path) :=
  rfl

/--
A text is replaced by way of the temporary path, where nothing is left in the end:
either the file then has the text, or nothing else has changed.
-/
theorem replaceText_steps
    {tree new : FileTree}
    {path defaultName text : String}
    {tag : Nat}
    {result : Except FileFault Unit}
    (replaced :
      (FileAccess.replaceText path defaultName tag text : Session _) tree = (result, new)) :
    (∃ fault, result = .error fault) ∧
        (new = tree ∨
          tree.look (tree.location (temporaryPath path defaultName tag)) ≠ some .directory ∧
            Sets (tree.location (temporaryPath path defaultName tag)) none tree new) ∨
      result = .ok () ∧
        new.node path = .ok (.file text.toUTF8) ∧
        ∃ without,
          tree.look (tree.location (temporaryPath path defaultName tag)) ≠ some .directory ∧
            Sets (tree.location (temporaryPath path defaultName tag)) none tree without ∧
            (∃ place, without.locate path = .ok place) ∧
            without.look (tree.location path) ≠ some .directory ∧
            Sets (tree.location path) (some (.file text.toUTF8)) without new := by
  rw [replaceText_eq] at replaced
  generalize temporaryPath path defaultName tag = temporary at replaced ⊢
  cases written : tree.writeText temporary text with
  | error fault =>
      rw [bind_of_run (run_writeText_error written)] at replaced
      cases replaced
      exact .inl ⟨⟨fault, rfl⟩, .inl rfl⟩
  | ok middle =>
      obtain ⟨-, writes, noDirectory, there⟩ := writeText_spec written
      have sameLocation := location_congr writes.workingDirectory
      simp only [bind_of_run (run_writeText written)] at replaced
      cases renamed : middle.rename temporary path with
      | error fault =>
          simp only [bind_of_run (run_rename_error renamed), bind_of_run (run_remove ..)]
            at replaced
          have removes := remove_spec there
          rw [sameLocation] at removes
          cases replaced
          exact .inl ⟨⟨fault, rfl⟩, .inr ⟨noDirectory, writes.trans removes⟩⟩
      | ok last =>
          obtain ⟨⟨without, clears, puts, nowhere, located⟩, moved⟩ := rename_spec there renamed
          rw [sameLocation] at clears puts nowhere
          rw [bind_of_run (run_rename renamed)] at replaced
          cases replaced
          exact .inr ⟨rfl, moved, without, noDirectory, writes.trans clears, located, nowhere,
            puts⟩

/--
Where no file lies under the temporary path, a text is replaced as a whole: either
it is all that changes, or nothing does.
-/
theorem replaceText_cases
    {tree new : FileTree}
    {path defaultName text : String}
    {tag : Nat}
    {result : Except FileFault Unit}
    (fresh :
      ∀ content,
        tree.look (tree.location (temporaryPath path defaultName tag)) ≠ some (.file content))
    (replaced :
      (FileAccess.replaceText path defaultName tag text : Session _) tree = (result, new)) :
    (∃ fault, result = .error fault) ∧ (∀ made, Confined [] made tree new) ∨
      result = .ok () ∧
        (∃ place, tree.locate path = .ok place) ∧
        Sets (tree.location path) (some (.file text.toUTF8)) tree new ∧
        new.node path = .ok (.file text.toUTF8) := by
  rcases replaceText_steps replaced with
    ⟨fails, rfl | ⟨noDirectory, clears⟩⟩ |
      ⟨succeeds, there, without, noDirectory, clears, ⟨place, located⟩, -, puts⟩
  · exact .inl ⟨fails, fun made => .refl [] made _⟩
  · rw [← look_eq_none fresh noDirectory] at clears
    exact .inl ⟨fails, fun made => .of_look_eq clears.workingDirectory clears.look_eq⟩
  · -- Nothing was under the temporary path, so the tree without it is as before.
    rw [← look_eq_none fresh noDirectory] at clears
    have back : Confined [] (Path.Around path) without tree :=
      .of_look_eq clears.workingDirectory.symm fun location => (clears.look_eq location).symm
    obtain ⟨reached, reaches, _⟩ := back.keeps.locate located
    refine .inr ⟨succeeds, ⟨reached, reaches⟩, ?_, there⟩
    exact
      { workingDirectory := puts.workingDirectory.trans clears.workingDirectory
        here := puts.here
        elsewhere := fun location differs =>
          (puts.elsewhere location differs).trans (clears.look_eq location) }

/-- A replaced text is in the file, and no file changes but this one and the temporary one. -/
theorem replaceText_spec
    {tree new : FileTree}
    {path defaultName text : String}
    {tag : Nat}
    (replaced :
      (FileAccess.replaceText path defaultName tag text : Session _) tree = (.ok (), new)) :
    Keeps [tree.location (temporaryPath path defaultName tag), tree.location path] tree new ∧
      new.node path = .ok (.file text.toUTF8) := by
  rcases replaceText_steps replaced with
    ⟨⟨fault, fails⟩, _⟩ | ⟨-, there, without, noDirectory, clears, -, nowhere, puts⟩
  · contradiction
  · exact ⟨((clears.keeps noDirectory).mono (by simp)).trans
      ((puts.keeps nowhere).mono (by simp)), there⟩

/-- No name of the path leads back. -/
def Straight
    (tree : FileTree)
    (path : String) :
    Prop :=
  ".." ∉ tree.startOf path ++ Path.names path

/--
A text is written under a path: directories are made around it, and nothing else
changes.  A straight path that led to nothing had nothing where the text is written.
-/
structure Writes
    (path text : String)
    (old : FileTree)
    (new : FileTree) : Prop where
  confined : Confined [old.location path] (Path.Around path) old new
  there : new.node path = .ok (.file text.toUTF8)
  nothingLost :
    ∀ fault,
      old.node path = .error fault →
      old.Straight path →
      old.look (old.location path) = none

theorem Writes.of_sets
    {path text : String}
    {old middle new : FileTree}
    (makes : Confined [] (Path.Around path) old middle)
    (located : ∃ place, middle.locate path = .ok place)
    (sets : Sets (middle.location path) (some (.file text.toUTF8)) middle new)
    (there : new.node path = .ok (.file text.toUTF8)) :
    Writes path text old new where
  confined := by
    have written := sets.confined (Path.Around path)
    rw [location_congr makes.workingDirectory] at written
    exact (makes.mono (List.nil_subset _)).trans written
  there := there
  nothingLost fault nowhere straight := by
    obtain ⟨place, locates⟩ := located
    exact makes.keeps.look_eq_none_of_straight straight nowhere locates

end FileTree

end TokenBudget
