import Mathlib.Data.List.Dedup
import TokenBudget.Proofs.Instant.Plain
import TokenBudget.Proofs.Settings.Rules

namespace TokenBudget

/-!
# What a contest keeps of its settings

Entries are filed under their names, so of entries with one name only the last is
kept.  Valid settings have no two tasks of one name, and each task keeps its pool.
They may list a participant twice: `Contest.carried_over_of_valid` tells which entry
counts, and that nothing is lost exactly when no participant is listed twice.
-/

namespace Register

variable {Value : Type}

theorem mem_names_insert
    (register : Register Value)
    (name other : String)
    (value : Value) :
    other ∈ (register.insert name value).names ↔ other = name ∨ other ∈ register.names := by
  rw [names_insert]
  split
  · next taken =>
      constructor
      · exact Or.inr
      · rintro (rfl | member)
        · exact taken
        · exact member
  · simp [or_comm]

theorem nodup_names_insert
    {register : Register Value}
    (distinct : register.names.Nodup)
    (name : String)
    (value : Value) :
    (register.insert name value).names.Nodup := by
  rw [names_insert]
  split
  · exact distinct
  · next fresh =>
      rw [List.nodup_append_comm, List.singleton_append, List.nodup_cons]
      exact ⟨fresh, distinct⟩

theorem mem_names_insertAll
    {name : String}
    (register : Register Value)
    (entries : List (String × Value)) :
    name ∈ (register.insertAll entries).names ↔
      name ∈ register.names ∨ name ∈ entries.map Prod.fst := by
  induction entries generalizing register with
  | nil =>
      simp [insertAll]
  | cons entry later inductionHypothesis =>
      rw [insertAll, List.foldl_cons]
      refine (inductionHypothesis _).trans ?_
      rw [mem_names_insert, List.map_cons, List.mem_cons]
      tauto

theorem nodup_names_insertAll
    {register : Register Value}
    (distinct : register.names.Nodup)
    (entries : List (String × Value)) :
    (register.insertAll entries).names.Nodup := by
  induction entries generalizing register with
  | nil =>
      exact distinct
  | cons entry later inductionHypothesis =>
      exact inductionHypothesis (nodup_names_insert distinct entry.1 entry.2)

/-- Entries that are filed in an empty register leave every name once. -/
theorem names_insertAll_perm
    (entries : List (String × Value)) :
    (empty.insertAll entries).names.Perm (entries.map Prod.fst).dedup := by
  have distinct : (empty.insertAll entries).names.Nodup := by
    apply nodup_names_insertAll
    exact .nil
  rw [List.perm_ext_iff_of_nodup distinct (List.nodup_dedup _)]
  intro name
  rw [mem_names_insertAll, List.mem_dedup]
  exact or_iff_right List.not_mem_nil

end Register

namespace Contest

theorem participations_foldl_addParticipation
    (participants : List Participation)
    (contest : Contest) :
    (participants.foldl addParticipation contest).participations =
      contest.participations.insertAll (participants.map fun entry => (entry.name, entry)) := by
  induction participants generalizing contest with
  | nil =>
      rfl
  | cons participant later inductionHypothesis =>
      exact inductionHypothesis (contest.addParticipation participant)

/-- The participants that are set are filed one after the other. -/
theorem participations_ofSettings (settings : Settings) :
    (ofSettings settings).participations =
      Register.empty.insertAll (settings.participants.map fun entry => (entry.name, entry)) := by
  rw [ofSettings, participations_foldl_addParticipation, participations_foldl_addTask]
  rfl

section

variable
    {settings : Settings}
    {name : String}

theorem taskPolicy_of_listed
    {task : TaskSettings}
    (valid : settings.validate = .ok ())
    (listed : task ∈ settings.tasks) :
    (ofSettings settings).taskPolicy task.name = .ok task.tokens.policy := by
  rw [taskPolicy, find?_ofSettings valid listed]

theorem taskPolicy_of_absent
    (absent : name ∉ settings.tasks.map TaskSettings.name) :
    (ofSettings settings).taskPolicy name = .error (.unknownTask name) := by
  have missing : (ofSettings settings).tasks.find? name = none := by
    rw [ofSettings, (unchanged_foldl_addParticipation _ _).2]
    exact find?_withTasks_of_absent _ absent
  rw [taskPolicy, missing]

theorem participation_of_last
    {entry : Participation}
    {earlier later : List Participation}
    (listed : settings.participants = earlier ++ entry :: later)
    (isLast : entry.name ∉ later.map Participation.name) :
    (ofSettings settings).participation entry.name = .ok entry := by
  have found : (ofSettings settings).participations.find? entry.name = some entry := by
    rw [participations_ofSettings, listed, List.map_append, List.map_cons]
    apply Register.find?_insertAll_of_last
    rwa [List.map_map]
  rw [participation, found]

theorem participation_of_absent
    (absent : name ∉ settings.participants.map Participation.name) :
    (ofSettings settings).participation name = .error (.unknownParticipation name) := by
  have missing : (ofSettings settings).participations.find? name = none := by
    rw [participations_ofSettings]
    apply Register.find?_insertAll_of_absent
    rwa [List.map_map]
  rw [participation, missing]

/-- When no participant is listed twice, each is found with their own entry. -/
theorem participation_of_distinct
    {entry : Participation}
    (distinct : (settings.participants.map Participation.name).Nodup)
    (listed : entry ∈ settings.participants) :
    (ofSettings settings).participation entry.name = .ok entry := by
  have found : (ofSettings settings).participations.find? entry.name = some entry := by
    rw [participations_ofSettings]
    refine Register.find?_insertAll _ ?_ (List.mem_map_of_mem listed)
    rwa [List.map_map]
  rw [participation, found]

/-- Every name that is listed is filed once. -/
theorem names_participations_perm (settings : Settings) :
    (ofSettings settings).participations.names.Perm
      (settings.participants.map Participation.name).dedup := by
  rw [participations_ofSettings]
  refine (Register.names_insertAll_perm _).trans (.of_eq ?_)
  rw [List.map_map]
  rfl

theorem length_names_participations_eq_iff (settings : Settings) :
    (ofSettings settings).participations.names.length = settings.participants.length ↔
      (settings.participants.map Participation.name).Nodup := by
  rw [(names_participations_perm settings).length_eq, ← List.dedup_eq_self,
    ← List.length_map Participation.name]
  constructor
  · exact (List.dedup_sublist _).eq_of_length
  · intro same
    rw [same]

/--
A contest has the pool of every task of valid settings and nobody that is not listed.
Of participants with one name the last counts, so every entry is kept, and there are as
many participations as entries, exactly when no participant is listed twice.
-/
theorem carried_over_of_valid
    (valid : settings.validate = .ok ()) :
    (∀ task ∈ settings.tasks,
        (ofSettings settings).taskPolicy task.name = .ok task.tokens.policy) ∧
      (∀ name ∉ settings.tasks.map TaskSettings.name,
        (ofSettings settings).taskPolicy name = .error (.unknownTask name)) ∧
      (∀ earlier entry later,
        settings.participants = earlier ++ entry :: later →
        entry.name ∉ later.map Participation.name →
        (ofSettings settings).participation entry.name = .ok entry) ∧
      (∀ name ∉ settings.participants.map Participation.name,
        (ofSettings settings).participation name = .error (.unknownParticipation name)) ∧
      (ofSettings settings).participations.names.Perm
        (settings.participants.map Participation.name).dedup ∧
      ((∀ entry ∈ settings.participants,
            (ofSettings settings).participation entry.name = .ok entry) ∧
          (ofSettings settings).participations.names.length = settings.participants.length ↔
        (settings.participants.map Participation.name).Nodup) := by
  refine ⟨fun _ => taskPolicy_of_listed valid, fun _ => taskPolicy_of_absent,
    fun _ _ _ => participation_of_last, fun _ => participation_of_absent,
    names_participations_perm settings, ?_⟩
  rw [length_names_participations_eq_iff]
  constructor
  · exact And.right
  · intro distinct
    exact ⟨fun _ => participation_of_distinct distinct, distinct⟩

end

/-- Settings that list one participant twice, with another in between. -/
def listedTwice : Settings :=
  { Settings.default with
    tasks := [{ name := "sum", tokens := .finite .default }]
    participants :=
      [{ name := "ann", startingTime := some (.onDayZero 10) },
        { name := "bob", startingTime := none },
        { name := "ann", startingTime := some (.onDayZero 20) }] }

/-- Of the participant who is listed twice the second entry is kept, and two participations are. -/
theorem carried_over_of_valid_listedTwice :
    listedTwice.validate = .ok () ∧
      (ofSettings listedTwice).taskPolicy "sum" = .ok (TokenMode.finite .default).policy ∧
      (ofSettings listedTwice).taskPolicy "max" = .error (.unknownTask "max") ∧
      (ofSettings listedTwice).participation "ann" =
        .ok { name := "ann", startingTime := some (.onDayZero 20) } ∧
      (ofSettings listedTwice).participation "cid" = .error (.unknownParticipation "cid") ∧
      (ofSettings listedTwice).participations.names.Perm ["bob", "ann"] := by
  have valid : listedTwice.validate = .ok () := by
    decide
  obtain ⟨task, noTask, last, nobody, names, -⟩ := carried_over_of_valid valid
  exact ⟨valid, task _ List.mem_cons_self, noTask "max" (by decide),
    last (listedTwice.participants.take 2) _ [] rfl (by decide), nobody "cid" (by decide), names⟩

/-- Valid settings can list a participant whose starting time is not the one that counts. -/
theorem starting_time_lost_listedTwice :
    listedTwice.validate = .ok () ∧
      { name := "ann", startingTime := some (.onDayZero 10) } ∈ listedTwice.participants ∧
      ((ofSettings listedTwice).participation "ann").map Participation.startingTime =
        .ok (some (.onDayZero 20)) ∧
      Instant.onDayZero 10 ≠ .onDayZero 20 ∧
      (ofSettings listedTwice).participations.names.length = 2 ∧
      listedTwice.participants.length = 3 := by
  decide

end Contest

end TokenBudget
