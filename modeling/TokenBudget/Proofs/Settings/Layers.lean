import TokenBudget.Proofs.Command.Loading

namespace TokenBudget

/-!
# Settings in layers

The environment lies over the settings file, and the file over the default settings.
A `Layer` is what one source sets, and a field is taken from the uppermost layer that
sets it: `Layer.above`, `Layer.complete`.

`Settings.load_layers` tells how far loading keeps to this.  A start in the
environment that cannot be read is passed over, as a layer would do.  A window that
cannot be read is not: it counts as no window, and the window of the file is lost.
-/

open FileTree (Session)

/-- The environment sets a window that cannot be read. -/
def Environment.MalformedWindow (environment : Environment) : Prop :=
  ∃ text, environment.personalSeconds = some text ∧ readWord64? text = none

/-- What one source sets; a field is none where the source leaves it open. -/
structure Layer where
  start : Option Instant
  personalSeconds : Option UInt64
  tokens : Option TokenMode
  tasks : Option (List TaskSettings)
  participants : Option (List Participation)
  deriving Repr, DecidableEq

namespace Layer

/-- A source that sets nothing. -/
def empty : Layer where
  start := none
  personalSeconds := none
  tokens := none
  tasks := none
  participants := none

/-- The fields of an upper layer, and those of a lower one where the upper leaves them open. -/
def above (upper lower : Layer) : Layer where
  start := upper.start.or lower.start
  personalSeconds := upper.personalSeconds.or lower.personalSeconds
  tokens := upper.tokens.or lower.tokens
  tasks := upper.tasks.or lower.tasks
  participants := upper.participants.or lower.participants

/-- The settings of a layer that lies over the default ones, which have no window. -/
def complete (layer : Layer) : Settings where
  contest :=
    { start := layer.start.getD Settings.default.contest.start
      personalSeconds := layer.personalSeconds
      tokens := layer.tokens.getD Settings.default.contest.tokens }
  tasks := layer.tasks.getD Settings.default.tasks
  participants := layer.participants.getD Settings.default.participants

/-- What the variables set that can be read. -/
def ofEnvironment (environment : Environment) : Layer :=
  { empty with
    start := environment.contestStart.bind Instant.ofText?
    personalSeconds := environment.personalSeconds.bind readWord64? }

open Settings in
/-- The fields of the contest in a document; without a contest there are none. -/
def contestFields? (document : Toml.Table) : Option Fields :=
  match document.find? "contest" with
  | none => some fun _ => none
  | some node => fields? ["start", "per_user_time_secs", "tokens"] node

open Settings in
/-- What a document sets. -/
def ofTable? (document : Toml.Table) : Option Layer := do
  let contest ← contestFields? document
  return {
    start := ← optionalField instant? (contest "start")
    personalSeconds := ← optionalField word64? (contest "per_user_time_secs")
    tokens := ← optionalField mode? (contest "tokens")
    tasks := ← optionalField (list? task?) (document.find? "tasks")
    participants := ← optionalField (list? participant?) (document.find? "participants")
  }

/-- What a settings file in a tree sets; where no file is, nothing is set. -/
def inTree
    (tree : FileTree)
    (path : String) :
    Except SettingsFault Layer :=
  match tree.node path with
  | .error _ => .ok .empty
  | .ok _ =>
      match tree.readText path with
      | .error reason => .error (.unreadable path reason)
      | .ok text =>
          match (Toml.read? text).bind ofTable? with
          | none => .error (.unparsable path)
          | some layer => .ok layer

end Layer

namespace Settings

/-- A field that may be missing is an open field with its default under it. -/
theorem fieldOr_eq_map
    {Value : Type}
    (decode : Toml.Node → Option Value)
    (default : Value)
    (field : Option Toml.Node) :
    fieldOr decode default field = (optionalField decode field).map (·.getD default) := by
  cases field with
  | none => rfl
  | some node => cases decoded : decode node <;> simp [fieldOr, optionalField, decoded]

/-- The contest in a document has the fields that are set there over the default ones. -/
theorem fieldOr_contest?_eq
    (document : Toml.Table) :
    fieldOr contest? .default (document.find? "contest") = do
      let fields ← Layer.contestFields? document
      let start ← optionalField instant? (fields "start")
      let personalSeconds ← optionalField word64? (fields "per_user_time_secs")
      let tokens ← optionalField mode? (fields "tokens")
      return {
        start := start.getD default.contest.start
        personalSeconds
        tokens := tokens.getD default.contest.tokens
      } := by
  rw [Layer.contestFields?]
  cases document.find? "contest" with
  | none => rfl
  | some node =>
      rw [fieldOr, contest?]
      simp only [fieldOr_eq_map, Option.bind_eq_bind, Option.bind_map]
      rfl

/-- Settings in a document are what it sets over the default settings. -/
theorem ofTable?_eq_map (document : Toml.Table) :
    ofTable? document = (Layer.ofTable? document).map Layer.complete := by
  rw [ofTable?, fieldOr_contest?_eq, Layer.ofTable?]
  simp only [fieldOr_eq_map, Option.bind_eq_bind, Option.bind_map, Option.map_bind,
    Option.bind_assoc, Function.comp_def, Option.pure_def, Option.bind_some, Option.map_some,
    Layer.complete]
  rfl

/-- Settings in a file are what it sets over the default settings. -/
theorem inTree_eq_map
    (tree : FileTree)
    (path : String) :
    inTree tree path = (Layer.inTree tree path).map Layer.complete := by
  rw [inTree, Layer.inTree]
  cases tree.node path with
  | error fault => rfl
  | ok node =>
      cases tree.readText path with
      | error reason => rfl
      | ok text =>
          have layered :
              ofText? text = ((Toml.read? text).bind Layer.ofTable?).map Layer.complete := by
            rw [ofText?, Option.map_bind]
            congr 1
            funext document
            exact ofTable?_eq_map document
          simp only [layered]
          cases (Toml.read? text).bind Layer.ofTable? <;> rfl

section

variable
    (environment : Environment)
    (file : Layer)

/-- Variables that take precedence are a layer over the file in all fields but the window. -/
theorem override_complete_eq_iff :
    file.complete.override environment = ((Layer.ofEnvironment environment).above file).complete ↔
      (file.complete.override environment).contest.personalSeconds =
        (environment.personalSeconds.bind readWord64?).or file.personalSeconds := by
  constructor
  · intro same
    rw [same]
    rfl
  · intro sameWindow
    have sameStart :
        (file.complete.override environment).contest.start =
          ((Layer.ofEnvironment environment).above file).complete.contest.start :=
      Option.getD_or.symm
    have sameContest :
        (file.complete.override environment).contest =
          ((Layer.ofEnvironment environment).above file).complete.contest := by
      rw [ContestSettings.mk.injEq]
      exact ⟨sameStart, sameWindow, rfl⟩
    rw [Settings.mk.injEq]
    exact ⟨sameContest, rfl, rfl⟩

/-- The layers are kept to unless a window of the file lies under one that cannot be read. -/
theorem override_complete_eq_iff_not_malformed :
    file.complete.override environment = ((Layer.ofEnvironment environment).above file).complete ↔
      ¬ (environment.MalformedWindow ∧ file.personalSeconds ≠ none) := by
  rw [override_complete_eq_iff]
  cases set : environment.personalSeconds with
  | none => simp [override, Environment.MalformedWindow, set, Layer.complete]
  | some text =>
      cases read : readWord64? text with
      | some seconds => simp [override, Environment.MalformedWindow, set, read]
      | none => simp [override, Environment.MalformedWindow, set, read, eq_comm]

end

section

variable
    (environment : Environment)
    (path : String)
    (tree : FileTree)
    {file : Layer}
    (found : Layer.inTree tree path = .ok file)

include found

/-- What is loaded is what the file sets, with the variables over it, if that is valid. -/
theorem run_load_of_layer :
    (load environment path : Session (Except SettingsFault Settings)) tree =
      ((file.complete.override environment).validate.map fun _ =>
          file.complete.override environment,
        tree) := by
  rw [run_load, inTree_eq_map, found]
  change ((file.complete.override environment).validate.bind fun _ => .ok _, tree) = _
  cases (file.complete.override environment).validate <;> rfl

/--
Settings are loaded from the file where there is one, and are returned if they are
valid.  All fields are those of the layers but the window, which is none where the
environment sets one that cannot be read.  So the layers are kept to unless the file
sets a window under such a variable.
-/
theorem load_layers :
    ∃ settings : Settings,
      (load environment path : Session (Except SettingsFault Settings)) tree =
          (settings.validate.map fun _ => settings, tree) ∧
        settings.contest.start =
          ((environment.contestStart.bind Instant.ofText?).or file.start).getD
            ContestSettings.defaultStart ∧
        (environment.personalSeconds = none →
          settings.contest.personalSeconds = file.personalSeconds) ∧
        (∀ text,
          environment.personalSeconds = some text →
          settings.contest.personalSeconds = readWord64? text) ∧
        settings.contest.tokens = file.tokens.getD .infinite ∧
        settings.tasks = file.tasks.getD [] ∧
        settings.participants = file.participants.getD [] ∧
        (settings = ((Layer.ofEnvironment environment).above file).complete ↔
          ¬ (environment.MalformedWindow ∧ file.personalSeconds ≠ none)) := by
  refine ⟨_, run_load_of_layer environment path tree found, ?_, ?_, ?_, rfl, rfl, rfl,
    override_complete_eq_iff_not_malformed environment file⟩
  · rw [Option.getD_or]
    rfl
  · intro unset
    simp only [override, unset]
    rfl
  · intro text set
    simp only [override, set]

end

/-- A tree with a settings file that sets a window of an hour and nothing else. -/
def hourly : FileTree where
  root := { entries := [("settings", .file "[contest]\nper_user_time_secs = 3600".toUTF8)] }
  workingDirectory := []

/-- A start that cannot be read, beside a window. -/
def startedYesterday (window : String) : Environment :=
  { Environment.unset with
    contestStart := some "yesterday"
    personalSeconds := some window }

/-- A window of a minute lies over that of the file, and the start that cannot be read over none. -/
theorem load_layers_readableWindow :
    Layer.inTree hourly "settings" = .ok { Layer.empty with personalSeconds := some 3600 } ∧
      ∃ settings : Settings,
        (load (startedYesterday "60") "settings" : Session (Except SettingsFault Settings))
            hourly = (.ok settings, hourly) ∧
          settings.contest.start = ContestSettings.defaultStart ∧
          settings.contest.personalSeconds = some 60 := by
  have found :
      Layer.inTree hourly "settings" = .ok { Layer.empty with personalSeconds := some 3600 } := by
    decide +kernel
  obtain ⟨settings, loads, start, -, window, -, -, -, layered⟩ :=
    load_layers (startedYesterday "60") "settings" hourly found
  have read : readWord64? "60" = some 60 := by
    decide
  have readable : ¬ (startedYesterday "60").MalformedWindow := by
    rintro ⟨text, set, unread⟩
    have sameText : "60" = text := Option.some.inj set
    rw [← sameText, read] at unread
    exact Option.some_ne_none _ unread
  have sameSettings := layered.mpr fun malformed => readable malformed.1
  have valid : settings.validate = .ok () := by
    rw [sameSettings]
    decide +kernel
  have sameStart :
      (((startedYesterday "60").contestStart.bind Instant.ofText?).or none).getD
          ContestSettings.defaultStart =
        ContestSettings.defaultStart := by
    decide +kernel
  rw [valid] at loads
  exact ⟨found, settings, loads, start.trans sameStart, (window "60" rfl).trans read⟩

/-- A window that cannot be read is not passed over: the window of the file is lost. -/
theorem window_lost_of_malformed :
    Layer.inTree hourly "settings" = .ok { Layer.empty with personalSeconds := some 3600 } ∧
      readWord64? "an hour" = none ∧
      ((load (startedYesterday "an hour") "settings" :
            Session (Except SettingsFault Settings)) hourly).1.map
          (fun settings => (settings.contest.personalSeconds, settings.contest.personalTime)) =
        .ok (none, none) := by
  decide +kernel

end Settings

end TokenBudget
