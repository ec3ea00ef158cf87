import Mathlib.Data.List.Basic
import Mathlib.Data.List.Induction
import TokenBudget.Settings.Validation

namespace TokenBudget

/-!
# The rules of valid settings

Valid settings give every task a name of its own, so that the contest made of them
has for each task the pool that was set for it: `Contest.find?_ofSettings`.  Everyone
who takes part is found under the own name: `Contest.name_of_participation`.
-/

namespace Register

variable
    {Value : Type}
    {entries : List (String × Value)}

/-- File entries under their names, one after the other. -/
def insertAll
    (register : Register Value)
    (entries : List (String × Value)) :
    Register Value :=
  entries.foldl (fun register entry => register.insert entry.1 entry.2) register

/-- Entries of other names change nothing about a name. -/
theorem find?_insertAll_of_absent
    {name : String}
    (register : Register Value)
    (absent : name ∉ entries.map Prod.fst) :
    (register.insertAll entries).find? name = register.find? name := by
  induction entries generalizing register with
  | nil =>
      rfl
  | cons entry later inductionHypothesis =>
      rw [List.map_cons, List.mem_cons, not_or] at absent
      rw [insertAll, List.foldl_cons]
      exact (inductionHypothesis _ absent.2).trans
        ((find?_insert _ _ _ _).trans (if_neg absent.1))

/-- Of entries with one name the last is found. -/
theorem find?_insertAll_of_last
    {entry : String × Value}
    {earlier later : List (String × Value)}
    (register : Register Value)
    (isLast : entry.1 ∉ later.map Prod.fst) :
    (register.insertAll (earlier ++ entry :: later)).find? entry.1 = some entry.2 := by
  rw [insertAll, List.foldl_append, List.foldl_cons]
  exact (find?_insertAll_of_absent _ isLast).trans
    ((find?_insert _ _ _ _).trans (if_pos rfl))

/-- Of entries with names of their own each is found. -/
theorem find?_insertAll
    {entry : String × Value}
    (register : Register Value)
    (distinct : (entries.map Prod.fst).Nodup)
    (listed : entry ∈ entries) :
    (register.insertAll entries).find? entry.1 = some entry.2 := by
  obtain ⟨earlier, later, rfl⟩ := List.append_of_mem listed
  rw [List.map_append, List.map_cons] at distinct
  exact find?_insertAll_of_last register
    (List.nodup_cons.mp (List.nodup_append.mp distinct).2.1).1

end Register

namespace Settings

/-- The first task is looked at before the later ones, its name before its pool. -/
theorem validateTasks_cons
    (used : List String)
    (task : TaskSettings)
    (later : List TaskSettings) :
    validateTasks used (task :: later) =
      if task.name ∈ used then
        .error (.duplicateTask task.name)
      else
        match task.tokens.flaw? with
        | some flaw => .error (.invalidPool task.name flaw)
        | none => validateTasks (task.name :: used) later := by
  rw [validateTasks]
  split
  · rfl
  · rw [TokenMode.validate]
    cases task.tokens.flaw? <;> rfl

/-- Tasks are valid that keep the rules and have names of their own, none of them used before. -/
theorem validateTasks_eq_ok_iff
    {used : List String}
    {tasks : List TaskSettings} :
    validateTasks used tasks = .ok () ↔
      (∀ task ∈ tasks, task.name ∉ used ∧ task.tokens.flaw? = none) ∧
        (tasks.map TaskSettings.name).Nodup := by
  induction tasks generalizing used with
  | nil =>
      simp [validateTasks]
  | cons task later inductionHypothesis =>
      rw [validateTasks_cons, List.forall_mem_cons, List.map_cons, List.nodup_cons]
      by_cases taken : task.name ∈ used
      · simp [taken]
      · cases broken : task.tokens.flaw? with
        | some flaw =>
            simp [taken]
        | none =>
            simp only [taken, if_false, inductionHypothesis, List.mem_cons, not_or,
              List.mem_map, not_exists, not_and]
            constructor
            · rintro ⟨kept, distinct⟩
              exact ⟨⟨⟨not_false, trivial⟩, fun other member =>
                  ⟨(kept other member).1.2, (kept other member).2⟩⟩,
                fun other member => (kept other member).1.1, distinct⟩
            · rintro ⟨⟨_, kept⟩, fresh, distinct⟩
              exact ⟨fun other member =>
                ⟨⟨fresh other member, (kept other member).1⟩, (kept other member).2⟩, distinct⟩

/-- Settings are valid when their pools keep the rules and their tasks have names of their own. -/
theorem validate_eq_ok_iff
    {settings : Settings} :
    settings.validate = .ok () ↔
      settings.contest.tokens.flaw? = none ∧
        (∀ task ∈ settings.tasks, task.tokens.flaw? = none) ∧
        (settings.tasks.map TaskSettings.name).Nodup := by
  rw [validate, TokenMode.validate]
  cases settings.contest.tokens.flaw? with
  | some flaw =>
      simp [bind, Except.bind]
  | none =>
      refine validateTasks_eq_ok_iff.trans ?_
      simp

theorem distinct_of_validate
    {settings : Settings}
    (valid : settings.validate = .ok ()) :
    (settings.tasks.map TaskSettings.name).Nodup :=
  (validate_eq_ok_iff.mp valid).2.2

end Settings

namespace Contest

/-- Further participations change neither the contest pool nor the tasks. -/
theorem unchanged_foldl_addParticipation
    (participants : List Participation)
    (contest : Contest) :
    (participants.foldl addParticipation contest).pool = contest.pool ∧
      (participants.foldl addParticipation contest).tasks = contest.tasks := by
  induction participants generalizing contest with
  | nil =>
      exact ⟨rfl, rfl⟩
  | cons participant later inductionHypothesis =>
      exact inductionHypothesis (contest.addParticipation participant)

/-- A contest with the tasks that are set. -/
def withTasks
    (contest : Contest)
    (tasks : List TaskSettings) :
    Contest :=
  tasks.foldl (fun contest task => contest.addTask task.name task.tokens.policy) contest

theorem pool_withTasks
    (contest : Contest)
    (tasks : List TaskSettings) :
    (contest.withTasks tasks).pool = contest.pool := by
  induction tasks generalizing contest with
  | nil =>
      rfl
  | cons task later inductionHypothesis =>
      exact inductionHypothesis (contest.addTask task.name task.tokens.policy)

theorem tasks_withTasks
    (contest : Contest)
    (tasks : List TaskSettings) :
    (contest.withTasks tasks).tasks =
      contest.tasks.insertAll (tasks.map fun task => (task.name, task.tokens.policy)) := by
  induction tasks generalizing contest with
  | nil =>
      rfl
  | cons task later inductionHypothesis =>
      exact inductionHypothesis (contest.addTask task.name task.tokens.policy)

/-- Tasks of other names change nothing about a task. -/
theorem find?_withTasks_of_absent
    {tasks : List TaskSettings}
    {name : String}
    (contest : Contest)
    (absent : name ∉ tasks.map TaskSettings.name) :
    (contest.withTasks tasks).tasks.find? name = contest.tasks.find? name := by
  rw [tasks_withTasks]
  apply Register.find?_insertAll_of_absent
  rwa [List.map_map]

/-- Of tasks with names of their own, each has the pool that is set for it. -/
theorem find?_withTasks
    {tasks : List TaskSettings}
    {task : TaskSettings}
    (contest : Contest)
    (distinct : (tasks.map TaskSettings.name).Nodup)
    (listed : task ∈ tasks) :
    (contest.withTasks tasks).tasks.find? task.name = some task.tokens.policy := by
  rw [tasks_withTasks]
  refine Register.find?_insertAll _ ?_ (List.mem_map_of_mem listed)
  rwa [List.map_map]

theorem pool_ofSettings (settings : Settings) :
    (ofSettings settings).pool = settings.contest.tokens.policy := by
  rw [ofSettings, (unchanged_foldl_addParticipation _ _).1]
  exact pool_withTasks _ settings.tasks

/-- The contest of valid settings has for each task the pool that is set for it. -/
theorem find?_ofSettings
    {settings : Settings}
    {task : TaskSettings}
    (valid : settings.validate = .ok ())
    (listed : task ∈ settings.tasks) :
    (ofSettings settings).tasks.find? task.name = some task.tokens.policy := by
  rw [ofSettings, (unchanged_foldl_addParticipation _ _).2]
  exact find?_withTasks _ (Settings.distinct_of_validate valid) listed

/-- Tasks that are added change nothing about who takes part. -/
theorem participations_foldl_addTask
    (tasks : List TaskSettings)
    (contest : Contest) :
    (tasks.foldl (fun contest task => contest.addTask task.name task.tokens.policy)
      contest).participations = contest.participations := by
  induction tasks generalizing contest with
  | nil =>
      rfl
  | cons task tasks inductionHypothesis =>
      rw [List.foldl_cons, inductionHypothesis]
      rfl

/-- Every participation is found under its own name only. -/
def OwnNames (contest : Contest) : Prop :=
  ∀ name participation,
    contest.participations.find? name = some participation → participation.name = name

theorem OwnNames.addParticipation
    {contest : Contest}
    (ownNames : contest.OwnNames)
    (added : Participation) :
    (contest.addParticipation added).OwnNames := by
  intro name participation found
  rw [Contest.addParticipation, Register.find?_insert] at found
  split at found
  case isTrue own =>
    rw [own, Option.some.inj found]
  case isFalse =>
    exact ownNames name participation found

theorem ownNames_ofSettings (settings : Settings) :
    (ofSettings settings).OwnNames := by
  rw [ofSettings]
  induction settings.participants using List.reverseRecOn with
  | nil =>
      intro name participation found
      rw [List.foldl_nil, participations_foldl_addTask] at found
      contradiction
  | append_singleton participants last inductionHypothesis =>
      rw [List.foldl_concat]
      exact inductionHypothesis.addParticipation last

/-- A participation that is asked for by a name has this name. -/
theorem name_of_participation
    {settings : Settings}
    {name : String}
    {participation : Participation}
    (found : (ofSettings settings).participation name = .ok participation) :
    participation.name = name := by
  rw [Contest.participation] at found
  split at found
  · next listed =>
      cases found
      exact ownNames_ofSettings settings name participation listed
  · contradiction

end Contest

end TokenBudget
