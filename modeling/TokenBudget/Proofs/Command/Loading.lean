import TokenBudget.Command.Run
import TokenBudget.Proofs.Contest.SavedLog
import TokenBudget.Proofs.Files.Operations

namespace TokenBudget

/-!
# Loading and saving on a file tree

Loading settings or a play log reads one file and changes nothing.  Saving a
ledger leaves its text in the play log, where it is read back, and changes no file
but this one and the temporary one beside it.  If no file lies under the temporary
path, the log is all that is written, `Command.writeLedger_writes`, as the settings
file is where default settings are written: `Settings.writeDefault_cases`.
-/

open FileTree (Session bind_of_run Keeps Confined Writes)

section

variable
    {tree : FileTree}
    {path text : String}

theorem run_pathExists_ok
    {node : FileNode}
    (found : tree.node path = .ok node) :
    (FileAccess.pathExists path : Session Bool) tree = (true, tree) := by
  simp [FileAccess.pathExists, found]

theorem run_pathExists_error
    {fault : FileFault}
    (absent : tree.node path = .error fault) :
    (FileAccess.pathExists path : Session Bool) tree = (false, tree) := by
  simp [FileAccess.pathExists, absent]

theorem run_readText (path : String) :
    (FileAccess.readText path : Session (Except FileFault String)) tree =
      (tree.readText path, tree) :=
  rfl

theorem node_of_readText
    (read : tree.readText path = .ok text) :
    ∃ node, tree.node path = .ok node := by
  obtain ⟨content, found, _⟩ := FileTree.readText_eq_ok_iff.mp read
  exact ⟨_, found⟩

end

namespace Settings

/-- The settings that a file in a tree spells; the default ones where nothing is. -/
def inTree
    (tree : FileTree)
    (path : String) :
    Except SettingsFault Settings :=
  match tree.node path with
  | .error _ => .ok .default
  | .ok _ =>
      match tree.readText path with
      | .error reason => .error (.unreadable path reason)
      | .ok text =>
          match ofText? text with
          | none => .error (.unparsable path)
          | some settings => .ok settings

theorem run_readFile
    (tree : FileTree)
    (path : String) :
    (readFile path : Session _) tree = (inTree tree path, tree) := by
  cases found : tree.node path with
  | error fault =>
      rw [readFile, bind_of_run (run_pathExists_error found), inTree, found]
      rfl
  | ok node =>
      rw [readFile, bind_of_run (run_pathExists_ok found), inTree, found]
      simp only [if_true, bind_of_run (run_readText path)]
      cases tree.readText path with
      | error fault =>
          rfl
      | ok text =>
          dsimp only
          cases ofText? text <;> rfl

/-- Loading settings changes nothing. -/
theorem run_load
    (environment : Environment)
    (path : String)
    (tree : FileTree) :
    (load environment path : Session (Except SettingsFault Settings)) tree =
      ((inTree tree path).bind fun settings => settings.accepted environment, tree) :=
  bind_of_run (run_readFile tree path)

/-- Settings come from a file that is read, or are the default ones. -/
theorem default_or_read
    {tree : FileTree}
    {path : String}
    {settings : Settings}
    (found : inTree tree path = .ok settings) :
    settings = .default ∨ ∃ text, tree.readText path = .ok text := by
  rw [inTree] at found
  split at found
  · cases found
    exact .inl rfl
  · split at found
    · cases found
    · exact .inr ⟨_, ‹_›⟩

/-- Settings depend on nothing but the text of their file. -/
theorem inTree_congr
    {path text : String}
    {old new : FileTree}
    (readOld : old.readText path = .ok text)
    (readNew : new.readText path = .ok text) :
    inTree new path = inTree old path := by
  obtain ⟨_, foundOld⟩ := node_of_readText readOld
  obtain ⟨_, foundNew⟩ := node_of_readText readNew
  rw [inTree, inTree, foundOld, foundNew, readOld, readNew]

theorem participants_of_accepted
    {environment : Environment}
    {settings accepted : Settings}
    (accepts : settings.accepted environment = .ok accepted) :
    accepted.participants = settings.participants := by
  rw [Settings.accepted] at accepts
  cases valid : (settings.override environment).validate with
  | error fault =>
      simp [valid, bind, Except.bind] at accepts
  | ok _ =>
      simp only [valid, bind, Except.bind, pure, Except.pure, Except.ok.injEq] at accepts
      rw [← accepts]
      rfl

/-- Settings with participants were read from a file. -/
theorem participants_of_load
    {environment : Environment}
    {path : String}
    {tree : FileTree}
    {settings : Settings}
    (loads : ((load environment path : Session _) tree).1 = .ok settings) :
    settings.participants = [] ∨ ∃ text, tree.readText path = .ok text := by
  rw [run_load] at loads
  cases found : inTree tree path with
  | error fault =>
      rw [found] at loads
      cases loads
  | ok inFile =>
      rw [found] at loads
      have accepts : inFile.accepted environment = .ok settings := loads
      rcases default_or_read found with rfl | text
      · exact .inl (participants_of_accepted accepts)
      · exact .inr text

/-- The same text is loaded alike from every tree. -/
theorem load_congr
    {environment : Environment}
    {path text : String}
    {old new : FileTree}
    (readOld : old.readText path = .ok text)
    (readNew : new.readText path = .ok text) :
    ((load environment path : Session _) new).1 = ((load environment path : Session _) old).1 := by
  rw [run_load, run_load, inTree_congr readOld readNew]

/--
Default settings are left alone where something is.  Elsewhere they are written, or
at most directories around their path are made.
-/
theorem writeDefault_cases
    {path : String}
    {tree new : FileTree}
    {result : Except SettingsFault Unit}
    (wrote : (writeDefault path : Session _) tree = (result, new)) :
    (∃ node, tree.node path = .ok node) ∧ result = .ok () ∧ new = tree ∨
      (∃ fault, tree.node path = .error fault) ∧
        ((∃ fault, result = .error fault) ∧ Confined [] (Path.Around path) tree new ∨
          result = .ok () ∧ Writes path defaultText tree new) := by
  rw [writeDefault] at wrote
  cases found : tree.node path with
  | ok node =>
      rw [bind_of_run (run_pathExists_ok found)] at wrote
      cases wrote
      exact .inl ⟨⟨node, rfl⟩, rfl, rfl⟩
  | error fault =>
      refine .inr ⟨⟨fault, rfl⟩, ?_⟩
      have makes := FileTree.Adding.makeDirectoriesAround path tree
      simp only [bind_of_run (run_pathExists_error found), Bool.false_eq_true, if_false] at wrote
      rcases made : (FileAccess.makeDirectoriesAround path : Session _) tree with ⟨_ | _, middle⟩
      · rw [bind_of_run made] at wrote
        rw [made] at makes
        cases wrote
        exact .inl ⟨⟨_, rfl⟩, makes⟩
      · simp only [bind_of_run made] at wrote
        rw [made] at makes
        cases written : middle.writeText path defaultText with
        | error reason =>
            rw [bind_of_run (FileTree.run_writeText_error written)] at wrote
            cases wrote
            exact .inl ⟨⟨_, rfl⟩, makes⟩
        | ok last =>
            obtain ⟨located, sets, _, there⟩ := FileTree.writeText_spec written
            rw [bind_of_run (FileTree.run_writeText written)] at wrote
            cases wrote
            exact .inr ⟨rfl, .of_sets makes located sets there⟩

end Settings

namespace Command

open FileTree (temporaryPath)

/-- Where no play log is, nothing was played. -/
theorem run_readLedger_absent
    {tree : FileTree}
    {path : String}
    {fault : FileFault}
    (absent : tree.node path = .error fault) :
    (readLedger path : Session (Except Failure Ledger)) tree = (.ok .empty, tree) := by
  rw [readLedger, bind_of_run (run_pathExists_error absent)]
  rfl

theorem run_readLedger_of_text
    {tree : FileTree}
    {path text : String}
    {ledger : Ledger}
    (read : tree.readText path = .ok text)
    (parses : Ledger.ofText? text = some ledger) :
    (readLedger path : Session (Except Failure Ledger)) tree = (.ok ledger, tree) := by
  obtain ⟨node, found⟩ := node_of_readText read
  rw [readLedger, bind_of_run (run_pathExists_ok found)]
  simp only [if_true, bind_of_run (run_readText path), read, parses]
  rfl

/-- A saved ledger is read back from its play log. -/
theorem run_readLedger_saved
    {tree : FileTree}
    {path : String}
    {ledger : Ledger}
    (ends : ledger.LeapsEndMinutes)
    (saved : tree.node path = .ok (.file ledger.toText.toUTF8)) :
    (readLedger path : Session (Except Failure Ledger)) tree =
      (.ok (.ofPlays ledger.allPlays), tree) := by
  refine run_readLedger_of_text ?_ ends.ofText?_toText
  exact FileTree.readText_eq_ok_iff.mpr ⟨_, saved, fromUTF8?_toUTF8 _⟩

/-- The failures to save a ledger. -/
def Failure.ofSaving : Failure → Bool
  | .directoryNotMade _ _ => true
  | .logUnwritable _ _ => true
  | _ => false

/--
Saving a ledger makes the directories around its log and then replaces the text of
the log, unless the directories cannot be made.
-/
theorem writeLedger_steps
    {tag : Nat}
    {path : String}
    {ledger : Ledger}
    {tree new : FileTree}
    {result : Except Failure Unit}
    (wrote : (writeLedger tag path ledger : Session _) tree = (result, new)) :
    (∃ failure, result = .error failure ∧ failure.ofSaving = true) ∧
        Confined [] (Path.Around path) tree new ∨
      ∃ middle answer,
        Confined [] (Path.Around path) tree middle ∧
          (FileAccess.replaceText path "plays.json" tag ledger.toText : Session _) middle =
            (answer, new) ∧
          result = answer.mapError (.logUnwritable path) := by
  have makes := FileTree.Adding.makeDirectoriesAround path tree
  rw [writeLedger] at wrote
  rcases made : (FileAccess.makeDirectoriesAround path : Session _) tree with ⟨_ | _, middle⟩
  · rw [made] at makes
    rw [bind_of_run made] at wrote
    cases wrote
    exact .inl ⟨⟨_, rfl, rfl⟩, makes⟩
  · rw [made] at makes
    simp only [bind_of_run made] at wrote
    rcases replaced :
      (FileAccess.replaceText path "plays.json" tag ledger.toText : Session _) middle
      with ⟨answer, last⟩
    rw [bind_of_run replaced] at wrote
    refine .inr ⟨middle, answer, makes, ?_⟩
    cases answer <;> cases wrote <;> exact ⟨replaced, rfl⟩

/--
Saving a ledger fails as such, or leaves its text in the play log and changes no
other file but the temporary one.
-/
theorem writeLedger_cases
    {tag : Nat}
    {path : String}
    {ledger : Ledger}
    {tree new : FileTree}
    {result : Except Failure Unit}
    (wrote : (writeLedger tag path ledger : Session _) tree = (result, new)) :
    (∃ failure, result = .error failure ∧ failure.ofSaving = true) ∨
      result = .ok () ∧
        Keeps [tree.location (temporaryPath path "plays.json" tag), tree.location path] tree new ∧
        new.node path = .ok (.file ledger.toText.toUTF8) := by
  rcases writeLedger_steps wrote with ⟨fails, _⟩ | ⟨middle, answer, makes, replaced, rfl⟩
  · exact .inl fails
  · cases answer with
    | error reason =>
        exact .inl ⟨_, rfl, rfl⟩
    | ok _ =>
        obtain ⟨keeps, there⟩ := FileTree.replaceText_spec replaced
        rw [makes.keeps.location_eq, makes.keeps.location_eq] at keeps
        exact .inr ⟨rfl, (makes.keeps.mono (List.nil_subset _)).trans keeps, there⟩

/-- Where no file lies under the temporary path, a ledger is written or at most directories are made. -/
theorem writeLedger_writes
    {tag : Nat}
    {path : String}
    {ledger : Ledger}
    {tree new : FileTree}
    {result : Except Failure Unit}
    (fresh :
      ∀ content,
        tree.look (tree.location (temporaryPath path "plays.json" tag)) ≠ some (.file content))
    (wrote : (writeLedger tag path ledger : Session _) tree = (result, new)) :
    (∃ failure, result = .error failure) ∧ Confined [] (Path.Around path) tree new ∨
      result = .ok () ∧ Writes path ledger.toText tree new := by
  rcases writeLedger_steps wrote with
    ⟨⟨failure, fails, _⟩, makes⟩ | ⟨middle, answer, makes, replaced, rfl⟩
  · exact .inl ⟨⟨failure, fails⟩, makes⟩
  · have stillFresh :
        ∀ content,
          middle.look (middle.location (temporaryPath path "plays.json" tag)) ≠
            some (.file content) := by
      intro content seen
      rw [makes.keeps.location_eq, makes.keeps.files _ content List.not_mem_nil] at seen
      exact fresh content seen
    rcases FileTree.replaceText_cases stillFresh replaced with
      ⟨⟨reason, rfl⟩, undone⟩ | ⟨rfl, located, sets, there⟩
    · exact .inl ⟨⟨_, rfl⟩, makes.trans (undone _)⟩
    · exact .inr ⟨rfl, .of_sets makes located sets there⟩

/-- The settings file of a run. -/
def settingsPathOf
    (surroundings : Surroundings)
    (arguments : Arguments) :
    String :=
  arguments.settingsFile.getD surroundings.environment.settingsPath

/-- The play log of a run. -/
def logPathOf
    (surroundings : Surroundings)
    (arguments : Arguments) :
    String :=
  arguments.playLog.getD surroundings.environment.playLogPath

/-- The plays that are found under the path of a play log; where it leads to nothing, there are none. -/
inductive Lists
    (tree : FileTree)
    (path : String) :
    List Play → Prop
  | nothing
      {fault : FileFault}
      (nowhere : tree.node path = .error fault) :
      Lists tree path []
  | log
      {text : String}
      {plays : List Play}
      (read : tree.readText path = .ok text)
      (lists : Ledger.listed? text = some plays) :
      Lists tree path plays

/-- Reading a play log changes nothing and finds the plays that are listed. -/
theorem readLedger_cases
    {tree new : FileTree}
    {path : String}
    {result : Except Failure Ledger}
    (ran : (readLedger path : Session _) tree = (result, new)) :
    new = tree ∧
      ∀ ledger,
        result = .ok ledger →
        ∃ previous, Lists tree path previous ∧ ledger = .ofPlays previous := by
  cases found : tree.node path with
  | error fault =>
      rw [run_readLedger_absent found] at ran
      cases ran
      refine ⟨rfl, fun ledger isEmpty => ⟨[], .nothing found, ?_⟩⟩
      cases isEmpty
      rfl
  | ok node =>
      rw [readLedger, bind_of_run (run_pathExists_ok found)] at ran
      simp only [if_true, bind_of_run (run_readText path)] at ran
      cases read : tree.readText path with
      | error reason =>
          rw [read] at ran
          cases ran
          exact ⟨rfl, fun ledger failed => by cases failed⟩
      | ok text =>
          rw [read] at ran
          dsimp only at ran
          rw [Ledger.ofText?_eq_listed?] at ran
          cases lists : Ledger.listed? text with
          | none =>
              rw [lists] at ran
              cases ran
              exact ⟨rfl, fun ledger failed => by cases failed⟩
          | some plays =>
              rw [lists] at ran
              cases ran
              refine ⟨rfl, fun ledger loaded => ⟨plays, .log read lists, ?_⟩⟩
              cases loaded
              rfl

/-- Loading what a command works on changes nothing, and makes the contest of the settings. -/
theorem loadContext_cases
    {surroundings : Surroundings}
    {arguments : Arguments}
    {tree new : FileTree}
    {result : Except Failure Context}
    (ran : (loadContext surroundings arguments : Session _) tree = (result, new)) :
    new = tree ∧
      ∀ context,
        result = .ok context →
        ∃ settings,
          context =
            { settings
              contest := .ofSettings settings
              playLog := logPathOf surroundings arguments } := by
  have loads :=
    Settings.run_load surroundings.environment
      (arguments.settingsFile.getD surroundings.environment.settingsPath) tree
  generalize (Settings.inTree tree _).bind _ = loaded at loads
  rw [loadContext] at ran
  simp only [bind_of_run loads] at ran
  cases loaded with
  | error fault =>
      cases ran
      exact ⟨rfl, fun context failed => by cases failed⟩
  | ok settings =>
      cases ran
      refine ⟨rfl, fun context loaded => ⟨settings, ?_⟩⟩
      cases loaded
      rfl

end Command

end TokenBudget
