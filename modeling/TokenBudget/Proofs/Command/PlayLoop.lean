import TokenBudget.Proofs.Command.Loading
import TokenBudget.Proofs.Command.OptionsAnywhere
import TokenBudget.Proofs.Contest.ListedPlays
import TokenBudget.Proofs.Pool.Spending
import TokenBudget.Proofs.Settings.Rules

namespace TokenBudget.Command

/-!
# Playing tokens from the command line

Every run of `play` loads the settings and the play log, serves one request and
saves the ledger.  Over any number of runs this is the same as serving the
requests with one ledger in memory: `Installation.playLoop_refines`.  The play log
lists the plays of the ledger in memory after each run, `Installation.Mirrors`,
though not in the order in which that ledger keeps them.

The settings file must lie apart from the play log and from the temporary file of
each run, `Installation.Apart`: a run that saves takes its temporary file away.
-/

open FileTree (Session bind_of_run temporaryPath)

/-- One run of `play`: the words and the instant that are given, the clock, and the run's number. -/
structure PlayRun where
  participant : String
  task : String
  submission : String
  instant : String
  clock : Instant
  tag : Nat
  deriving Repr, DecidableEq

/-- What all runs have in common: the variables, and the files that the options name. -/
structure Installation where
  environment : Environment
  settingsFile : Option String
  playLog : Option String
  deriving Repr, DecidableEq

/-- No word is spelled like an option. -/
def PlayRun.PlainWords (run : PlayRun) : Prop :=
  ∀ word ∈ [run.participant, run.task, run.submission],
    word ∉ ["--json", "--config", "--plays", "--at"]

instance (run : PlayRun) : Decidable run.PlainWords := by
  unfold PlayRun.PlainWords
  infer_instance

/-- The answer of a ledger in memory to the request of a run, and the ledger after it. -/
def PlayRun.serve
    (contest : Contest)
    (ledger : Ledger)
    (run : PlayRun) :
    Except Failure Play × Ledger :=
  match Instant.ofText? run.instant with
  | none => (.error (.badInstant run.instant), ledger)
  | some now =>
      match contest.participation run.participant with
      | .error rejection => (.error (.rejected rejection), ledger)
      | .ok participation =>
          match ledger.accept contest participation run.task run.submission now with
          | (.error rejection, opened) => (.error (.rejected rejection), opened)
          | (.ok play, recorded) => (.ok play, recorded)

/-- How a run with a result ends. -/
def Outcome.ofResult : Except Failure Outcome → Outcome
  | .ok outcome => outcome
  | .error failure => .failed failure

/-- An option with its value, if it is given. -/
def optionWords (option : String) : Option String → List String
  | none => []
  | some value => [option, value]

namespace Installation

/-- The settings file. -/
def settingsPath (installation : Installation) : String :=
  installation.settingsFile.getD installation.environment.settingsPath

/-- The play log. -/
def logPath (installation : Installation) : String :=
  installation.playLog.getD installation.environment.playLogPath

/-- Where a run takes place. -/
def surroundings
    (installation : Installation)
    (run : PlayRun) :
    Surroundings where
  environment := installation.environment
  clock := run.clock
  tag := run.tag

/-- The command line of a run. -/
def commandLine
    (installation : Installation)
    (run : PlayRun) :
    List String :=
  optionWords "--config" installation.settingsFile ++
    (optionWords "--plays" installation.playLog ++
      ["play", run.participant, run.task, run.submission, "--at", run.instant])

/-- Carry out a run. -/
def play
    (installation : Installation)
    (run : PlayRun) :
    Session Outcome :=
  Command.run (installation.surroundings run) (installation.commandLine run)

/-- The tree after some runs. -/
def treeAfter
    (installation : Installation)
    (tree : FileTree)
    (runs : List PlayRun) :
    FileTree :=
  runs.foldl (fun tree run => (installation.play run tree).2) tree

end Installation

/-- A ledger in memory after the requests of some runs. -/
def ledgerAfter
    (contest : Contest)
    (seed : Ledger)
    (runs : List PlayRun) :
    Ledger :=
  runs.foldl (fun ledger run => (run.serve contest ledger).2) seed

/-!
## The command line is read
-/

namespace Installation

variable (installation : Installation)

/-- What a run's command line says. -/
def arguments (run : PlayRun) : Arguments where
  settingsFile := installation.settingsFile
  playLog := installation.playLog
  instant := some run.instant
  asJson := false
  words := ["play", run.participant, run.task, run.submission]

theorem read_commandLine
    {run : PlayRun}
    (plain : run.PlainWords) :
    Arguments.read (installation.commandLine run) = .ok (installation.arguments run) := by
  have participant := plain run.participant (by simp)
  have task := plain run.task (by simp)
  have submission := plain run.submission (by simp)
  have words (read : Arguments) :
      Arguments.readAfter read
          ["play", run.participant, run.task, run.submission, "--at", run.instant] =
        .ok { read with
          instant := some run.instant
          words := read.words ++ ["play", run.participant, run.task, run.submission] } := by
    rw [Arguments.readAfter_word (by decide), Arguments.readAfter_word participant,
      Arguments.readAfter_word task, Arguments.readAfter_word submission]
    simp [Arguments.readAfter]
  rw [Arguments.read, commandLine]
  cases config : installation.settingsFile <;> cases log : installation.playLog <;>
    simp [optionWords, Arguments.readAfter, words, arguments, Arguments.none, config, log]

/-!
## One run
-/

/-- What every run works on. -/
def context (settings : Settings) : Context where
  settings := settings
  contest := .ofSettings settings
  playLog := installation.logPath

/-- The request of a run with loaded settings. -/
def request
    (settings : Settings)
    (run : PlayRun) :
    Session (Except Failure Outcome) :=
  playToken (installation.surroundings run) (installation.arguments run)
    (installation.context settings) run.participant run.task run.submission

section

variable
    {installation : Installation}
    {settings : Settings}
    {run : PlayRun}
    {tree new : FileTree}

theorem perform_eq
    (loads :
      ((Settings.load installation.environment installation.settingsPath : Session _) tree).1 =
        .ok settings) :
    (perform (installation.surroundings run) (installation.arguments run) : Session _) tree =
      installation.request settings run tree := by
  have loaded :
      (Settings.load installation.environment installation.settingsPath : Session _) tree =
        (.ok settings, tree) :=
    Prod.ext loads (by rw [Settings.run_load])
  have contextLoaded :
      (loadContext (installation.surroundings run) (installation.arguments run) : Session _) tree =
        (.ok (installation.context settings), tree) := by
    rw [loadContext]
    exact bind_of_run loaded
  exact bind_of_run contextLoaded

/-- A run ends as its request does. -/
theorem play_eq_of_request
    {result : Except Failure Outcome}
    (plain : run.PlainWords)
    (loads :
      ((Settings.load installation.environment installation.settingsPath : Session _) tree).1 =
        .ok settings)
    (requested : installation.request settings run tree = (result, new)) :
    installation.play run tree = (Outcome.ofResult result, new) := by
  rw [← perform_eq loads] at requested
  rw [play, Command.run, read_commandLine installation plain]
  refine (bind_of_run requested).trans ?_
  cases result <;> rfl

theorem request_of_badInstant
    (bad : Instant.ofText? run.instant = none) :
    installation.request settings run tree = (.error (.badInstant run.instant), tree) := by
  have subject :
      subjectOf (installation.surroundings run) (installation.arguments run)
        (installation.context settings) run.participant = .error (.badInstant run.instant) := by
    simp [subjectOf, instantOf, arguments, bad, bind, Except.bind]
  rw [request, playToken, subject]
  rfl

variable
    {now : Instant}
    (read : Instant.ofText? run.instant = some now)

include read

theorem request_of_unknown
    {rejection : Rejection}
    (unknown : (Contest.ofSettings settings).participation run.participant = .error rejection) :
    installation.request settings run tree = (.error (.rejected rejection), tree) := by
  have subject :
      subjectOf (installation.surroundings run) (installation.arguments run)
        (installation.context settings) run.participant = .error (.rejected rejection) := by
    simp [subjectOf, instantOf, arguments, context, read, unknown, bind, Except.bind, throw,
      throwThe, MonadExceptOf.throw]
  rw [request, playToken, subject]
  rfl

variable
    {participation : Participation}
    (known : (Contest.ofSettings settings).participation run.participant = .ok participation)

include known

theorem subject_eq :
    subjectOf (installation.surroundings run) (installation.arguments run)
        (installation.context settings) run.participant = .ok (now, participation) := by
  simp [subjectOf, instantOf, arguments, context, read, known, bind, Except.bind, pure,
    Except.pure]

variable
    {stored : Ledger}
    (logged : (readLedger installation.logPath : Session _) tree = (.ok stored, tree))

include logged

theorem request_of_refused
    {rejection : Rejection}
    (refused :
      stored.review (.ofSettings settings) participation run.task run.submission now =
        .error rejection) :
    installation.request settings run tree = (.error (.rejected rejection), tree) := by
  rw [request, playToken, subject_eq read known]
  refine (bind_of_run logged).trans ?_
  simp only [context, Ledger.accept, refused]
  rfl

/-- A request that is let through is saved. -/
theorem request_of_granted
    {play : Play}
    (granted :
      stored.review (.ofSettings settings) participation run.task run.submission now = .ok play) :
    installation.request settings run tree =
      (match (writeLedger run.tag installation.logPath (stored.record play) : Session _) tree with
        | (.ok (), new) => (.ok (.success (playReport play)), new)
        | (.error failure, new) => (.error failure, new)) := by
  rw [request, playToken, subject_eq read known]
  refine (bind_of_run logged).trans ?_
  simp only [context, Ledger.accept, granted]
  rcases saved : (writeLedger run.tag installation.logPath (stored.record play) : Session _) tree
    with ⟨_ | _, new⟩
  · exact bind_of_run saved
  · exact bind_of_run saved

end

/-!
## Many runs
-/

/-- The play log and a run's temporary file beside it are not the settings file. -/
structure Apart
    (installation : Installation)
    (tree : FileTree)
    (run : PlayRun) : Prop where
  log : tree.location installation.logPath ≠ tree.location installation.settingsPath
  temporary :
    tree.location (temporaryPath installation.logPath "plays.json" run.tag) ≠
      tree.location installation.settingsPath

/-- A run does not end because the ledger cannot be saved. -/
def Saves
    (installation : Installation)
    (tree : FileTree)
    (run : PlayRun) :
    Prop :=
  ∀ failure,
    ((perform (installation.surroundings run) (installation.arguments run) : Session _) tree).1 =
        .error failure →
      failure.ofSaving = false

instance
    (installation : Installation)
    (tree : FileTree)
    (run : PlayRun) :
    Decidable (installation.Saves tree run) :=
  match ended :
      ((perform (installation.surroundings run) (installation.arguments run) : Session _) tree).1
    with
  | .ok _ => .isTrue fun _ failed => by cases ended.symm.trans failed
  | .error failure =>
      if unsaved : failure.ofSaving = false then
        .isTrue fun _ failed => by cases ended.symm.trans failed; exact unsaved
      else
        .isFalse fun saves => unsaved (saves failure ended)

/--
A run does on a tree what its request does on a ledger in memory: it succeeds with
the same play and leaves the text of the ledger in the play log, or fails in the
same way and leaves the tree as it was.
-/
def Refines
    (installation : Installation)
    (contest : Contest)
    (tree : FileTree)
    (memory : Ledger)
    (run : PlayRun) :
    Prop :=
  match (run.serve contest memory).1 with
  | .ok play =>
      (installation.play run tree).1 = .success (playReport play) ∧
        (installation.play run tree).2.node installation.logPath =
          .ok (.file (run.serve contest memory).2.toText.toUTF8)
  | .error failure =>
      installation.play run tree = (.failed failure, tree)

/--
What holds of the tree between runs: the settings load, and the log lists the plays
of the ledger, which are at instants that texts name.
-/
structure Mirrors
    (installation : Installation)
    (settings : Settings)
    (origin tree : FileTree)
    (memory : Ledger) : Prop where
  workingDirectory : tree.workingDirectory = origin.workingDirectory
  loads :
    ((Settings.load installation.environment installation.settingsPath : Session _) tree).1 =
      .ok settings
  stored :
    ∃ stored,
      (readLedger installation.logPath : Session (Except Failure Ledger)) tree =
          (.ok stored, tree) ∧
        stored.ListsAlike memory
  leapsEndMinutes : memory.LeapsEndMinutes

theorem participation_of_no_participants
    {settings : Settings}
    (nobody : settings.participants = [])
    (name : String) :
    (Contest.ofSettings settings).participation name = .error (.unknownParticipation name) := by
  rw [Contest.ofSettings, nobody, List.foldl_nil, Contest.participation,
    Contest.participations_foldl_addTask]
  rfl

section

variable
    {installation : Installation}
    {settings : Settings}
    {origin tree : FileTree}
    {memory : Ledger}
    {run : PlayRun}

/-- A tree in which only the play log was written mirrors the ledger that was saved. -/
theorem Mirrors.saved
    {new : FileTree}
    {recorded stored : Ledger}
    {touched : List Location}
    {text : String}
    (mirrors : installation.Mirrors settings origin tree memory)
    (alike : stored.ListsAlike recorded)
    (ends : recorded.LeapsEndMinutes)
    (settingsRead : tree.readText installation.settingsPath = .ok text)
    (keeps : FileTree.Keeps touched tree new)
    (untouched : tree.location installation.settingsPath ∉ touched)
    (there : new.node installation.logPath = .ok (.file stored.toText.toUTF8)) :
    installation.Mirrors settings origin new recorded := by
  obtain ⟨content, found, decoded⟩ := FileTree.readText_eq_ok_iff.mp settingsRead
  have settingsReadNew := FileTree.readText_eq_ok_iff.mpr
    ⟨content, keeps.node_file untouched found, decoded⟩
  exact
    { workingDirectory := keeps.workingDirectory.trans mirrors.workingDirectory
      loads := (Settings.load_congr settingsRead settingsReadNew).trans mirrors.loads
      stored :=
        ⟨_, run_readLedger_saved (alike.leapsEndMinutes_iff.mpr ends) there, alike.reloaded⟩
      leapsEndMinutes := ends }

/-- A play that is let through is at the instant that the words of its run name. -/
theorem Mirrors.leapsEndMinutes_record
    {now : Instant}
    {participation : Participation}
    {play : Play}
    (mirrors : installation.Mirrors settings origin tree memory)
    (read : Instant.ofText? run.instant = some now)
    (reviewed :
      memory.review (.ofSettings settings) participation run.task run.submission now = .ok play) :
    (memory.record play).LeapsEndMinutes := by
  obtain ⟨_, _, alike⟩ := mirrors.stored
  have verdict := memory.verdict_review (.ofSettings settings)
    ⟨participation, run.task, run.submission, now⟩
  rw [reviewed] at verdict
  cases verdict
  exact alike.secondWellFormed.leapsEndMinutes_record mirrors.leapsEndMinutes
    (Instant.exists_ofText?_iff.mp ⟨run.instant, read⟩)

/-- A request that is let through is recorded in the play log, and nowhere else. -/
theorem Mirrors.granted
    {now : Instant}
    {participation : Participation}
    {play : Play}
    (mirrors : installation.Mirrors settings origin tree memory)
    (apart : installation.Apart origin run)
    (saves : installation.Saves tree run)
    (read : Instant.ofText? run.instant = some now)
    (known : (Contest.ofSettings settings).participation run.participant = .ok participation)
    (reviewed :
      memory.review (.ofSettings settings) participation run.task run.submission now = .ok play) :
    ∃ new,
      installation.request settings run tree = (.ok (.success (playReport play)), new) ∧
        new.node installation.logPath = .ok (.file (memory.record play).toText.toUTF8) ∧
        installation.Mirrors settings origin new (memory.record play) := by
  obtain ⟨stored, logged, alike⟩ := mirrors.stored
  have recorded := alike.record play
  have recordedEnds := mirrors.leapsEndMinutes_record read reviewed
  have requested := request_of_granted read known logged ((alike.review_eq ..).trans reviewed)
  rcases written :
    (writeLedger run.tag installation.logPath (stored.record play) : Session _) tree
    with ⟨result, new⟩
  rw [written] at requested
  rcases writeLedger_cases written with ⟨failure, rfl, unsaved⟩ | ⟨rfl, keeps, there⟩
  · have performed := (perform_eq mirrors.loads).trans requested
    have notSaving := saves failure (congrArg Prod.fst performed)
    rw [unsaved] at notSaving
    cases notSaving
  · -- Without participants nothing is let through, so the settings came from a file.
    obtain ⟨text, settingsRead⟩ :=
      (Settings.participants_of_load mirrors.loads).resolve_left fun nobody => by
        rw [participation_of_no_participants nobody] at known
        cases known
    have untouched : tree.location installation.settingsPath ∉
        [tree.location (temporaryPath installation.logPath "plays.json" run.tag),
          tree.location installation.logPath] := by
      simp only [FileTree.location_congr mirrors.workingDirectory, List.mem_cons,
        List.not_mem_nil, or_false, not_or]
      exact ⟨apart.temporary.symm, apart.log.symm⟩
    refine ⟨new, requested, ?_,
      mirrors.saved recorded recordedEnds settingsRead keeps untouched there⟩
    rw [there, recorded.toText_eq]

/-- A run refines its request in memory, and the tree mirrors the ledger afterwards. -/
theorem Mirrors.step
    (mirrors : installation.Mirrors settings origin tree memory)
    (plain : run.PlainWords)
    (apart : installation.Apart origin run)
    (saves : installation.Saves tree run) :
    installation.Refines (.ofSettings settings) tree memory run ∧
      installation.Mirrors settings origin (installation.play run tree).2
        (run.serve (.ofSettings settings) memory).2 := by
  cases read : Instant.ofText? run.instant with
  | none =>
      have ran := play_eq_of_request plain mirrors.loads (request_of_badInstant read)
      simp only [Refines, PlayRun.serve, read, ran]
      exact ⟨rfl, mirrors⟩
  | some now =>
      cases known : (Contest.ofSettings settings).participation run.participant with
      | error rejection =>
          have ran := play_eq_of_request plain mirrors.loads (request_of_unknown read known)
          simp only [Refines, PlayRun.serve, read, known, ran]
          exact ⟨rfl, mirrors⟩
      | ok participation =>
          cases reviewed :
              memory.review (.ofSettings settings) participation run.task run.submission now with
          | error rejection =>
              obtain ⟨stored, logged, alike⟩ := mirrors.stored
              have ran := play_eq_of_request plain mirrors.loads
                (request_of_refused read known logged ((alike.review_eq ..).trans reviewed))
              simp only [Refines, PlayRun.serve, read, known, Ledger.accept, reviewed, ran]
              have sameEnds := (alike.openAccount_right participation.name).leapsEndMinutes_iff
              exact ⟨rfl, mirrors.workingDirectory, mirrors.loads,
                ⟨stored, logged, alike.openAccount_right participation.name⟩,
                sameEnds.mp (alike.leapsEndMinutes_iff.mpr mirrors.leapsEndMinutes)⟩
          | ok play =>
              obtain ⟨new, requested, there, after⟩ :=
                mirrors.granted apart saves read known reviewed
              have ran := play_eq_of_request plain mirrors.loads requested
              simp only [Refines, PlayRun.serve, read, known, Ledger.accept, reviewed, ran]
              exact ⟨⟨rfl, there⟩, after⟩

/-- After any number of runs the tree mirrors the ledger in memory. -/
theorem mirrors_after
    {seed : Ledger}
    {runs : List PlayRun}
    (mirrors : installation.Mirrors settings origin origin seed)
    (plain : ∀ run ∈ runs, run.PlainWords)
    (apart : ∀ run ∈ runs, installation.Apart origin run)
    (saves :
      AtEach (fun earlier run => installation.Saves (installation.treeAfter origin earlier) run)
        runs) :
    installation.Mirrors settings origin (installation.treeAfter origin runs)
      (ledgerAfter (.ofSettings settings) seed runs) := by
  induction runs using List.reverseRecOn with
  | nil =>
      exact mirrors
  | append_singleton runs run inductionHypothesis =>
      rw [List.forall_mem_append] at plain apart
      obtain ⟨savesBefore, savesLast⟩ := atEach_concat.mp saves
      have before := inductionHypothesis plain.1 apart.1 savesBefore
      have after :=
        (before.step (plain.2 run List.mem_cons_self) (apart.2 run List.mem_cons_self) savesLast).2
      rw [treeAfter, ledgerAfter, List.foldl_concat, List.foldl_concat]
      exact after

/--
Playing from the command line is playing with one ledger in memory.  From settings
that load and a play log that is absent or parses, every run of any sequence
succeeds or fails as its request does on the ledger that began with the play log.
After a success the play log is the text of that ledger; a failure changes nothing.
-/
theorem playLoop_refines
    (installation : Installation)
    (settings : Settings)
    (tree : FileTree)
    (seed : Ledger)
    (runs : List PlayRun)
    (loads :
      ((Settings.load installation.environment installation.settingsPath : Session _) tree).1 =
        .ok settings)
    (logged :
      (∃ fault, tree.node installation.logPath = .error fault) ∧ seed = .empty ∨
        ∃ text, tree.readText installation.logPath = .ok text ∧ Ledger.ofText? text = some seed)
    (plain : ∀ run ∈ runs, run.PlainWords)
    (apart : ∀ run ∈ runs, installation.Apart tree run)
    (saves :
      AtEach (fun earlier run => installation.Saves (installation.treeAfter tree earlier) run)
        runs) :
    AtEach
      (fun earlier run =>
        installation.Refines (.ofSettings settings) (installation.treeAfter tree earlier)
          (ledgerAfter (.ofSettings settings) seed earlier) run)
      runs := by
  have mirrors : installation.Mirrors settings tree tree seed := by
    rcases logged with ⟨⟨fault, absent⟩, rfl⟩ | ⟨text, read, parses⟩
    · exact ⟨rfl, loads, ⟨.empty, run_readLedger_absent absent, .empty, .empty, rfl⟩,
        Ledger.leapsEndMinutes_ofPlays (List.forall_mem_nil _)⟩
    · have wellFormed := Ledger.wellFormed_of_ofText? parses
      exact ⟨rfl, loads, ⟨seed, run_readLedger_of_text read parses, wellFormed, wellFormed, rfl⟩,
        Ledger.leapsEndMinutes_of_ofText? parses⟩
  rintro earlier run later rfl
  rw [List.forall_mem_append] at plain apart
  have savesBefore :
      AtEach (fun before next => installation.Saves (installation.treeAfter tree before) next)
        earlier := by
    intro first next others shape
    exact saves first next (others ++ run :: later) (by rw [shape]; simp)
  have before := mirrors_after mirrors plain.1 apart.1 savesBefore
  exact (before.step (plain.2 run List.mem_cons_self) (apart.2 run List.mem_cons_self)
    (saves earlier run later rfl)).1

end

/-- Settings in a file, and the play log in another. -/
def twoFiles (settingsFile : String) : Installation where
  environment := .unset
  settingsFile := some settingsFile
  playLog := some "log"

/-- Settings with one task and one participant. -/
def oneParticipant : Settings :=
  { Settings.default with
    tasks := [{ name := "sum", tokens := .infinite }]
    participants := [{ name := "ann", startingTime := none }] }

/-- A tree with these settings in a file, and no play log. -/
def withoutLog (settingsFile : String) : FileTree where
  root :=
    { entries :=
        [(settingsFile,
          .file "participants=[[\"ann\"]]\ntasks=[[\"sum\",[\"infinite\"]]]".toUTF8)] }
  workingDirectory := []

/-- A run of the participant, under a number. -/
def runAt
    (submission instant : String)
    (tag : Nat) :
    PlayRun where
  participant := "ann"
  task := "sum"
  submission := submission
  instant := instant
  clock := .onDayZero 0
  tag := tag

theorem playLoop_refines_twoRuns :
    AtEach
      (fun earlier run =>
        (twoFiles "settings").Refines (.ofSettings oneParticipant)
          ((twoFiles "settings").treeAfter (withoutLog "settings") earlier)
          (ledgerAfter (.ofSettings oneParticipant) .empty earlier) run)
      [runAt "first" "today" 1, runAt "first" "2024-03-01T09:00:00Z" 1] := by
  apply playLoop_refines (twoFiles "settings") oneParticipant (withoutLog "settings") .empty
  case loads =>
    decide +kernel
  case logged =>
    exact .inl ⟨⟨.notFound, rfl⟩, rfl⟩
  case plain =>
    decide +kernel
  case apart =>
    intro run member
    have sameTag : run.tag = 1 := by
      simp only [List.mem_cons, List.not_mem_nil, or_false] at member
      rcases member with rfl | rfl <;> rfl
    exact ⟨by decide +kernel, by rw [sameTag]; decide +kernel⟩
  case saves =>
    exact atEach_pair.mpr ⟨by decide +kernel, by decide +kernel⟩

/-- Two plays, in runs under different numbers. -/
def twoPlays : List PlayRun :=
  [runAt "first" "2024-03-01T09:00:01Z" 1, runAt "second" "2024-03-01T09:00:02Z" 2]

/--
Settings under the name of the first run's temporary file are gone after that run.
Everything but this is as in `playLoop_refines`, and the second run fails where the
ledger in memory lets the play through.
-/
theorem not_refines_of_settingsAsTemporary :
    ((Settings.load (twoFiles ".log.1.tmp").environment (twoFiles ".log.1.tmp").settingsPath :
          Session _) (withoutLog ".log.1.tmp")).1 = .ok oneParticipant ∧
      (withoutLog ".log.1.tmp").node (twoFiles ".log.1.tmp").logPath = .error .notFound ∧
      (∀ run ∈ twoPlays, run.PlainWords) ∧
      (withoutLog ".log.1.tmp").location (twoFiles ".log.1.tmp").logPath ≠
        (withoutLog ".log.1.tmp").location (twoFiles ".log.1.tmp").settingsPath ∧
      AtEach
        (fun earlier run =>
          (twoFiles ".log.1.tmp").Saves
            ((twoFiles ".log.1.tmp").treeAfter (withoutLog ".log.1.tmp") earlier) run)
        twoPlays ∧
      ¬ AtEach
        (fun earlier run =>
          (twoFiles ".log.1.tmp").Refines (.ofSettings oneParticipant)
            ((twoFiles ".log.1.tmp").treeAfter (withoutLog ".log.1.tmp") earlier)
            (ledgerAfter (.ofSettings oneParticipant) .empty earlier) run)
        twoPlays := by
  refine ⟨by decide +kernel, rfl, by decide +kernel, by decide +kernel,
    atEach_pair.mpr ⟨by decide +kernel, by decide +kernel⟩, fun refines => ?_⟩
  have second := (atEach_pair.mp refines).2
  have granted :
      ((runAt "second" "2024-03-01T09:00:02Z" 2).serve (.ofSettings oneParticipant)
          (ledgerAfter (.ofSettings oneParticipant) .empty
            [runAt "first" "2024-03-01T09:00:01Z" 1])).1.isOk = true := by
    decide +kernel
  have failed :
      ((twoFiles ".log.1.tmp").play (runAt "second" "2024-03-01T09:00:02Z" 2)
          ((twoFiles ".log.1.tmp").treeAfter (withoutLog ".log.1.tmp")
            [runAt "first" "2024-03-01T09:00:01Z" 1])).1 =
        .failed (.rejected (.unknownParticipation "ann")) := by
    decide +kernel
  rw [Refines] at second
  split at second
  case h_1 =>
    have status := congrArg Outcome.status (failed.symm.trans second.1)
    cases status
  case h_2 refused =>
    rw [refused] at granted
    cases granted

end Installation

end TokenBudget.Command
