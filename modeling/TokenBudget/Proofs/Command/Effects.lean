import TokenBudget.Proofs.Command.PlayLoop

namespace TokenBudget

/-!
# What commands do to files

Help, reports and unknown commands change nothing.  A play that fails makes at
most directories around its log, and one that succeeds writes the log besides, with
the plays that were found under its path and the new one.  Default settings are
written only where their path leads to nothing.  `Command.Effect` lists these cases,
and `Command.run_effect` says that there are no others.

Where no name of a path leads back, nothing is lost by writing under it.  A path
with two dots may lead to nothing because a directory on its way is missing, and to
an old file once the directories around it are made; that file is overwritten, as
`Command.overwrites_behind_missingDirectory` shows.
-/

open FileTree (Session bind_of_run Confined Writes)

namespace Command

open FileTree (temporaryPath)

/-- The request asks for nothing to be written. -/
def Request.readsOnly : Request → Bool
  | .writeSettings => false
  | .query (.play _ _ _) => false
  | _ => true

/-- No file lies under the temporary path of the play log. -/
def NoTemporary
    (surroundings : Surroundings)
    (arguments : Arguments)
    (tree : FileTree) :
    Prop :=
  ∀ content,
    tree.look
        (tree.location
          (temporaryPath (logPathOf surroundings arguments) "plays.json" surroundings.tag)) ≠
      some (.file content)

/-- What a run does to the files of a tree, by what is asked for and how the run ends. -/
inductive Effect
    (surroundings : Surroundings)
    (arguments : Arguments)
    (tree : FileTree) :
    Request → Outcome → FileTree → Prop
  /-- Help, reports and unknown commands change nothing. -/
  | nothing
      {request : Request}
      {outcome : Outcome}
      (reads : request.readsOnly = true) :
      Effect surroundings arguments tree request outcome tree
  /-- A play that fails makes at most directories around its log. -/
  | notPlayed
      {participant task submission : String}
      {outcome : Outcome}
      {new : FileTree}
      (fails : outcome.status ≠ 0)
      (makes : Confined [] (Path.Around (logPathOf surroundings arguments)) tree new) :
      Effect surroundings arguments tree (.query (.play participant task submission)) outcome new
  /-- A play that succeeds is written to its log with all the plays listed there. -/
  | played
      {participant task submission : String}
      {now : Instant}
      {previous : List Play}
      {outcome : Outcome}
      {new : FileTree}
      (succeeds : outcome.status = 0)
      (atInstant : instantOf surroundings arguments = .ok now)
      (lists : Lists tree (logPathOf surroundings arguments) previous)
      (writes :
        Writes (logPathOf surroundings arguments)
          (Ledger.textOf
            (previous ++ [{ participant, task, submission, instant := now }])) tree new) :
      Effect surroundings arguments tree (.query (.play participant task submission)) outcome new
  /-- Where the path of the settings leads to something, that is left as it is. -/
  | settingsKept
      {node : FileNode}
      {outcome : Outcome}
      (succeeds : outcome.status = 0)
      (found : tree.node (settingsPathOf surroundings arguments) = .ok node) :
      Effect surroundings arguments tree .writeSettings outcome tree
  /-- Settings that cannot be written leave at most directories around their path. -/
  | settingsNotWritten
      {fault : FileFault}
      {outcome : Outcome}
      {new : FileTree}
      (fails : outcome.status ≠ 0)
      (nowhere : tree.node (settingsPathOf surroundings arguments) = .error fault)
      (makes : Confined [] (Path.Around (settingsPathOf surroundings arguments)) tree new) :
      Effect surroundings arguments tree .writeSettings outcome new
  /-- Where the path of the settings leads to nothing, the default ones are written. -/
  | settingsWritten
      {fault : FileFault}
      {outcome : Outcome}
      {new : FileTree}
      (succeeds : outcome.status = 0)
      (nowhere : tree.node (settingsPathOf surroundings arguments) = .error fault)
      (writes :
        Writes (settingsPathOf surroundings arguments) Settings.defaultText tree new) :
      Effect surroundings arguments tree .writeSettings outcome new

section

variable
    {surroundings : Surroundings}
    {arguments : Arguments}
    {tree new : FileTree}
    {result : Except Failure Outcome}

/-- A query that fails may leave the files as they are. -/
theorem Effect.of_failure
    (query : Query)
    (failure : Failure) :
    Effect surroundings arguments tree (.query query) (.failed failure) tree := by
  cases query with
  | policies => exact .nothing rfl
  | standing participant task => exact .nothing rfl
  | play participant task submission => exact .notPlayed Nat.one_ne_zero (.refl _ _ _)
  | unknown words => exact .nothing rfl

theorem writeSettings_effect
    (ran : (writeSettings surroundings arguments : Session _) tree = (result, new)) :
    Effect surroundings arguments tree .writeSettings (Outcome.ofResult result) new := by
  rcases wrote :
    (Settings.writeDefault
        (arguments.settingsFile.getD surroundings.environment.settingsPath) : Session _) tree
    with ⟨answer, last⟩
  rw [writeSettings] at ran
  simp only [bind_of_run wrote] at ran
  rcases Settings.writeDefault_cases wrote with
    ⟨⟨node, found⟩, rfl, rfl⟩ |
      ⟨⟨fault, nowhere⟩, ⟨⟨reason, rfl⟩, makes⟩ | ⟨rfl, writes⟩⟩
  · cases ran
    exact .settingsKept rfl found
  · cases ran
    exact .settingsNotWritten Nat.one_ne_zero nowhere makes
  · cases ran
    exact .settingsWritten rfl nowhere writes

variable {context : Context}

/-- Showing a standing changes nothing. -/
theorem showStanding_unchanged
    {participant task : String}
    (ran :
      (showStanding surroundings arguments context participant task : Session _) tree =
        (result, new)) :
    new = tree := by
  cases subject : subjectOf surroundings arguments context participant with
  | error failure =>
      rw [showStanding, subject] at ran
      cases ran
      rfl
  | ok found =>
      obtain ⟨now, participation⟩ := found
      rw [showStanding, subject] at ran
      dsimp only at ran
      rcases read : (readLedger context.playLog : Session _) tree with ⟨_ | ledger, middle⟩
      · obtain ⟨rfl, _⟩ := readLedger_cases read
        rw [bind_of_run read] at ran
        cases ran
        rfl
      · obtain ⟨rfl, _⟩ := readLedger_cases read
        simp only [bind_of_run read] at ran
        cases answered : ledger.standing context.contest participation task now with
        | error rejection =>
            rw [answered] at ran
            cases ran
            rfl
        | ok standing =>
            rw [answered] at ran
            dsimp only at ran
            split at ran <;> cases ran <;> rfl

/-- The instant and the participation of a command are those that its words name. -/
theorem subjectOf_eq_ok
    {participant : String}
    {now : Instant}
    {participation : Participation}
    (subject : subjectOf surroundings arguments context participant = .ok (now, participation)) :
    instantOf surroundings arguments = .ok now ∧
      context.contest.participation participant = .ok participation := by
  simp only [subjectOf, bind, Except.bind] at subject
  cases atInstant : instantOf surroundings arguments with
  | error failure =>
      simp [atInstant] at subject
  | ok instant =>
      cases known : context.contest.participation participant with
      | error rejection =>
          simp [atInstant, known, throw, throwThe, MonadExceptOf.throw] at subject
      | ok found =>
          simp only [atInstant, known, pure, Except.pure, Except.ok.injEq, Prod.mk.injEq]
            at subject
          exact ⟨congrArg _ subject.1, congrArg _ subject.2⟩

/--
A request that is turned down before the log is written changes nothing.  A request
that comes to writing ends as the writing does, and what it writes are the plays
that were listed and the new one.
-/
theorem playToken_cases
    {participant task submission : String}
    (ran :
      (playToken surroundings arguments context participant task submission : Session _) tree =
        (result, new)) :
    (∃ failure, result = .error failure) ∧ new = tree ∨
      ∃ now participation previous play answer,
        subjectOf surroundings arguments context participant = .ok (now, participation) ∧
          Lists tree context.playLog previous ∧
          play = { participant := participation.name, task, submission, instant := now } ∧
          result = answer.map (fun _ => .success (playReport play)) ∧
          (writeLedger surroundings.tag context.playLog ((Ledger.ofPlays previous).record play) :
              Session _) tree =
            (answer, new) := by
  cases subject : subjectOf surroundings arguments context participant with
  | error failure =>
      rw [playToken, subject] at ran
      cases ran
      exact .inl ⟨⟨failure, rfl⟩, rfl⟩
  | ok found =>
      obtain ⟨now, participation⟩ := found
      rw [playToken, subject] at ran
      dsimp only at ran
      rcases read : (readLedger context.playLog : Session _) tree with ⟨failure | ledger, middle⟩
      · obtain ⟨rfl, _⟩ := readLedger_cases read
        rw [bind_of_run read] at ran
        cases ran
        exact .inl ⟨⟨failure, rfl⟩, rfl⟩
      · obtain ⟨rfl, loads⟩ := readLedger_cases read
        obtain ⟨previous, lists, rfl⟩ := loads ledger rfl
        simp only [bind_of_run read] at ran
        rcases accepted :
          (Ledger.ofPlays previous).accept context.contest participation task submission now
          with ⟨rejection | play, recorded⟩
        · rw [accepted] at ran
          cases ran
          exact .inl ⟨⟨.rejected rejection, rfl⟩, rfl⟩
        · obtain ⟨made, rfl⟩ := Ledger.accept_eq_ok accepted
          rw [accepted] at ran
          dsimp only at ran
          rcases wrote :
            (writeLedger surroundings.tag context.playLog
                ((Ledger.ofPlays previous).record play) : Session _) middle
            with ⟨answer, last⟩
          rw [bind_of_run wrote] at ran
          refine .inr ⟨now, participation, previous, play, answer, rfl, lists, made, ?_, ?_⟩
          · cases answer <;> cases ran <;> rfl
          · cases answer <;> cases ran <;> exact wrote

theorem playToken_effect
    {settings : Settings}
    {participant task submission : String}
    (fresh : NoTemporary surroundings arguments tree)
    (ran :
      (playToken surroundings arguments
          { settings
            contest := .ofSettings settings
            playLog := logPathOf surroundings arguments }
          participant task submission : Session _) tree =
        (result, new)) :
    Effect surroundings arguments tree (.query (.play participant task submission))
      (Outcome.ofResult result) new := by
  rcases playToken_cases ran with
    ⟨⟨failure, rfl⟩, rfl⟩ |
      ⟨now, participation, previous, play, answer, subject, lists, made, rfl, wrote⟩
  · exact .of_failure _ _
  · obtain ⟨atInstant, known⟩ := subjectOf_eq_ok subject
    rw [Contest.name_of_participation known] at made
    rcases writeLedger_writes fresh wrote with ⟨⟨failure, rfl⟩, makes⟩ | ⟨rfl, writes⟩
    · exact .notPlayed Nat.one_ne_zero makes
    · rw [Ledger.toText_record, made] at writes
      exact .played rfl atInstant lists writes

end

section

variable
    (surroundings : Surroundings)
    (tree : FileTree)

theorem answer_effect
    {arguments : Arguments}
    {settings : Settings}
    {query : Query}
    {new : FileTree}
    {result : Except Failure Outcome}
    (fresh : NoTemporary surroundings arguments tree)
    (ran :
      (answer surroundings arguments
          { settings
            contest := .ofSettings settings
            playLog := logPathOf surroundings arguments }
          query : Session _) tree =
        (result, new)) :
    Effect surroundings arguments tree (.query query) (Outcome.ofResult result) new := by
  cases query with
  | policies =>
      cases ran
      exact .nothing rfl
  | standing participant task =>
      obtain rfl := showStanding_unchanged ran
      exact .nothing rfl
  | play participant task submission =>
      exact playToken_effect fresh ran
  | unknown words =>
      cases ran
      exact .nothing rfl

/-- What is asked for is done to the files as `Effect` tells. -/
theorem perform_effect
    {arguments : Arguments}
    {new : FileTree}
    {result : Except Failure Outcome}
    (fresh : NoTemporary surroundings arguments tree)
    (ran : (perform surroundings arguments : Session _) tree = (result, new)) :
    Effect surroundings arguments tree (Request.ofWords arguments.words)
      (Outcome.ofResult result) new := by
  rw [perform] at ran
  generalize Request.ofWords arguments.words = request at ran ⊢
  cases request with
  | help =>
      cases ran
      exact .nothing rfl
  | writeSettings =>
      exact writeSettings_effect ran
  | query query =>
      rcases loads : (loadContext surroundings arguments : Session _) tree
        with ⟨_ | context, middle⟩
      · obtain ⟨rfl, _⟩ := loadContext_cases loads
        simp only [bind_of_run loads] at ran
        cases ran
        exact .of_failure query _
      · obtain ⟨rfl, made⟩ := loadContext_cases loads
        obtain ⟨settings, rfl⟩ := made context rfl
        simp only [bind_of_run loads] at ran
        exact answer_effect surroundings middle fresh ran

/--
What a run does to the files.  Arguments that cannot be read change nothing, and
other arguments what `Effect` says of their request, if no file lies under the
temporary path of the play log.
-/
theorem run_effect (arguments : List String) :
    (∀ option,
        Arguments.read arguments = .error option →
        ((run surroundings arguments : Session Outcome) tree).2 = tree) ∧
      ∀ read,
        Arguments.read arguments = .ok read →
        NoTemporary surroundings read tree →
        Effect surroundings read tree (Request.ofWords read.words)
          ((run surroundings arguments : Session Outcome) tree).1
          ((run surroundings arguments : Session Outcome) tree).2 := by
  constructor
  · intro option unread
    rw [run, unread]
    rfl
  · intro read reads fresh
    rcases ran : (perform surroundings read : Session _) tree with ⟨result, new⟩
    have effect := perform_effect surroundings tree fresh ran
    have ends :
        (run surroundings arguments : Session Outcome) tree = (Outcome.ofResult result, new) := by
      rw [run, reads]
      refine (bind_of_run ran).trans ?_
      cases result <;> rfl
    rw [ends]
    exact effect

end

/-- A tree with settings of an endless pool and a log of one play. -/
def withLog : FileTree where
  root :=
    { entries :=
        [("settings",
            .file "participants=[[\"ann\"]]\ntasks=[[\"sum\",[\"infinite\"]]]".toUTF8),
          ("log", .file "[[\"ann\",\"sum\",\"first\",\"2024-03-01T09:00:01Z\"]]".toUTF8)] }
  workingDirectory := []

/-- No variables, and a run with the number one. -/
def bareSurroundings : Surroundings where
  environment := .unset
  clock := .onDayZero 0
  tag := 1

/-- A play on a second submission, with a path of the play log. -/
def secondPlay (log : String) : List String :=
  ["play", "ann", "sum", "second", "--config", "settings", "--plays", log,
    "--at", "2024-03-01T09:00:02Z"]

/-- What the arguments of the second play say. -/
def secondArguments (log : String) : Arguments where
  settingsFile := some "settings"
  playLog := some log
  instant := some "2024-03-01T09:00:02Z"
  asJson := false
  words := ["play", "ann", "sum", "second"]

/-- A play is added to a log in the root, with no file under the temporary path. -/
theorem run_effect_secondPlay :
    Arguments.read (secondPlay "log") = .ok (secondArguments "log") ∧
      NoTemporary bareSurroundings (secondArguments "log") withLog ∧
      ((run bareSurroundings (secondPlay "log") : Session Outcome) withLog).1.status = 0 ∧
      Effect bareSurroundings (secondArguments "log") withLog
        (.query (.play "ann" "sum" "second"))
        ((run bareSurroundings (secondPlay "log") : Session Outcome) withLog).1
        ((run bareSurroundings (secondPlay "log") : Session Outcome) withLog).2 := by
  have reads : Arguments.read (secondPlay "log") = .ok (secondArguments "log") := by
    decide
  have fresh : NoTemporary bareSurroundings (secondArguments "log") withLog := by
    have absent :
        (withLog.look
          (withLog.location
            (temporaryPath (logPathOf bareSurroundings (secondArguments "log")) "plays.json"
              bareSurroundings.tag))).isNone = true := by
      decide +kernel
    intro content seen
    rw [seen] at absent
    contradiction
  refine ⟨reads, fresh, by decide +kernel, ?_⟩
  exact (run_effect bareSurroundings withLog (secondPlay "log")).2 _ reads fresh

/--
Through a directory that is missing and back, a path leads to nothing at first and
to an old file once the directory is made: settings that were there are replaced by
the default ones, and plays that were recorded are lost.
-/
theorem overwrites_behind_missingDirectory :
    withLog.readText "settings" ≠ .ok Settings.defaultText ∧
      ((run bareSurroundings ["init", "--config", "new/../settings"] : Session Outcome)
          withLog).2.readText "settings" =
        .ok Settings.defaultText ∧
      ((run bareSurroundings (secondPlay "new/../log") : Session Outcome) withLog).1.status = 0 ∧
      withLog.readText "log" =
        .ok "[[\"ann\",\"sum\",\"first\",\"2024-03-01T09:00:01Z\"]]" ∧
      (((run bareSurroundings (secondPlay "new/../log") : Session Outcome) withLog).2.readText
            "log").toOption.bind
          (fun text => (Ledger.listed? text).map fun plays => plays.map Play.submission) =
        some ["second"] := by
  decide +kernel

end Command

end TokenBudget
