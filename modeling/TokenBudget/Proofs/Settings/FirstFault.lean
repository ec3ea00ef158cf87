import TokenBudget.Proofs.Settings.Rules

namespace TokenBudget

/-!
# The first fault of settings

`Settings.WellFormed` lists the rules of settings, and `Settings.FirstFault` tells
which broken rule comes first: the contest pool before the tasks, the tasks in their
order, a name that was used before ahead of the pool of its task, and within a pool
the rules in the order of `PoolFlaw.place`.  Validation accepts exactly the
well-formed settings and reports the first fault of all others:
`Settings.validate_exact`.

In a contest of valid settings the pools that never run out are those that were set
to be endless; no finite pool becomes one.
-/

/-- The place of a rule in the order in which the rules of a pool are looked at. -/
def PoolFlaw.place : PoolFlaw → Nat
  | .periodNotPositive => 0
  | .capNotPositive => 1
  | .lifetimeNotPositive => 2
  | .initialAboveCap => 3

theorem PoolFlaw.place_injective
    {first second : PoolFlaw}
    (same : first.place = second.place) :
    first = second := by
  cases first <;> cases second <;> first | rfl | contradiction

/-!
## The rules of a pool
-/

/-- The rules of a finite pool. -/
structure FiniteTokens.WellFormed (tokens : FiniteTokens) : Prop where
  period_pos : 0 < tokens.periodSeconds
  cap_ne_zero : tokens.cap ≠ some 0
  lifetime_ne_zero : tokens.lifetime ≠ some 0
  initial_le_cap : ∀ cap, tokens.cap = some cap → tokens.initial ≤ cap

/-- The numbers of a pool break a rule. -/
def FiniteTokens.Breaks (tokens : FiniteTokens) : PoolFlaw → Prop
  | .periodNotPositive => tokens.periodSeconds = 0
  | .capNotPositive => tokens.cap = some 0
  | .lifetimeNotPositive => tokens.lifetime = some 0
  | .initialAboveCap => ∃ cap, tokens.cap = some cap ∧ cap < tokens.initial

theorem FiniteTokens.wellFormed_iff
    {tokens : FiniteTokens} :
    tokens.WellFormed ↔ ∀ flaw, ¬ tokens.Breaks flaw := by
  constructor
  · intro wellFormed flaw broken
    cases flaw with
    | periodNotPositive =>
        exact UInt64.pos_iff_ne_zero.mp wellFormed.period_pos broken
    | capNotPositive =>
        exact wellFormed.cap_ne_zero broken
    | lifetimeNotPositive =>
        exact wellFormed.lifetime_ne_zero broken
    | initialAboveCap =>
        obtain ⟨cap, isCap, above⟩ := broken
        exact UInt32.not_lt.mpr (wellFormed.initial_le_cap cap isCap) above
  · intro kept
    refine ⟨?_, kept .capNotPositive, kept .lifetimeNotPositive, ?_⟩
    · exact UInt64.pos_iff_ne_zero.mpr (kept .periodNotPositive)
    · intro cap isCap
      exact UInt32.not_lt.mp fun above => kept .initialAboveCap ⟨cap, isCap, above⟩

namespace TokenMode

/-- The rules of a mode; only finite pools have rules. -/
def WellFormed : TokenMode → Prop
  | .finite tokens => tokens.WellFormed
  | .disabled => True
  | .infinite => True

/-- A mode breaks a rule. -/
def Breaks : TokenMode → PoolFlaw → Prop
  | .finite tokens, flaw => tokens.Breaks flaw
  | .disabled, _ => False
  | .infinite, _ => False

/-- A rule is broken, and none is that is looked at before it. -/
structure FirstFlaw
    (mode : TokenMode)
    (flaw : PoolFlaw) :
    Prop where
  broken : mode.Breaks flaw
  first : ∀ earlier, earlier.place < flaw.place → ¬ mode.Breaks earlier

variable
    {mode : TokenMode}
    {flaw : PoolFlaw}

theorem wellFormed_iff :
    mode.WellFormed ↔ ∀ flaw, ¬ mode.Breaks flaw := by
  cases mode with
  | finite tokens => exact FiniteTokens.wellFormed_iff
  | disabled => simp [WellFormed, Breaks]
  | infinite => simp [WellFormed, Breaks]

theorem FirstFlaw.unique
    {other : PoolFlaw}
    (isFirst : mode.FirstFlaw flaw)
    (otherIsFirst : mode.FirstFlaw other) :
    flaw = other := by
  have notBefore := mt (isFirst.first other) (not_not_intro otherIsFirst.broken)
  have notAfter := mt (otherIsFirst.first flaw) (not_not_intro isFirst.broken)
  exact PoolFlaw.place_injective (by omega)

/-- Looking at the rules in their order finds the first that is broken, if one is. -/
theorem flaw?_cases (mode : TokenMode) :
    mode.WellFormed ∧ mode.flaw? = none ∨
      ∃ flaw, mode.FirstFlaw flaw ∧ mode.flaw? = some flaw := by
  cases mode with
  | disabled => exact .inl ⟨trivial, rfl⟩
  | infinite => exact .inl ⟨trivial, rfl⟩
  | finite tokens =>
      simp only [flaw?, FiniteTokens.flaw?]
      by_cases period : tokens.periodSeconds = 0
      · exact .inr ⟨.periodNotPositive, ⟨period, fun _ before => by cases before⟩, if_pos period⟩
      rw [if_neg period]
      by_cases cap : tokens.cap = some 0
      · refine .inr ⟨.capNotPositive, ⟨cap, fun earlier before => ?_⟩, if_pos cap⟩
        cases earlier with
        | periodNotPositive => exact period
        | _ => exact absurd before (by decide)
      rw [if_neg cap]
      by_cases lifetime : tokens.lifetime = some 0
      · refine .inr ⟨.lifetimeNotPositive, ⟨lifetime, fun earlier before => ?_⟩, if_pos lifetime⟩
        cases earlier with
        | periodNotPositive => exact period
        | capNotPositive => exact cap
        | _ => exact absurd before (by decide)
      rw [if_neg lifetime]
      by_cases initial : ∃ cap, tokens.cap = some cap ∧ cap < tokens.initial
      · refine .inr ⟨.initialAboveCap, ⟨initial, fun earlier before => ?_⟩, ?_⟩
        · cases earlier with
          | periodNotPositive => exact period
          | capNotPositive => exact cap
          | lifetimeNotPositive => exact lifetime
          | initialAboveCap => exact absurd before (by decide)
        · obtain ⟨cap, isCap, above⟩ := initial
          simp only [isCap, if_pos above]
      · refine .inl ⟨FiniteTokens.wellFormed_iff.mpr fun flaw => ?_, ?_⟩
        · cases flaw with
          | periodNotPositive => exact period
          | capNotPositive => exact cap
          | lifetimeNotPositive => exact lifetime
          | initialAboveCap => exact initial
        · cases isCap : tokens.cap with
          | none => rfl
          | some cap => exact if_neg fun above => initial ⟨cap, isCap, above⟩

theorem flaw?_eq_none_iff :
    mode.flaw? = none ↔ mode.WellFormed := by
  rcases flaw?_cases mode with ⟨wellFormed, none⟩ | ⟨flaw, first, found⟩
  · exact iff_of_true none wellFormed
  · refine iff_of_false (by simp [found]) fun wellFormed => ?_
    exact wellFormed_iff.mp wellFormed flaw first.broken

theorem flaw?_eq_some_iff :
    mode.flaw? = some flaw ↔ mode.FirstFlaw flaw := by
  rcases flaw?_cases mode with ⟨wellFormed, none⟩ | ⟨found, isFirst, finds⟩
  · refine iff_of_false (by simp [none]) fun isFirst => ?_
    exact wellFormed_iff.mp wellFormed flaw isFirst.broken
  · rw [finds, Option.some.injEq]
    constructor
    · rintro rfl
      exact isFirst
    · exact isFirst.unique

end TokenMode

/-!
## What a mode promises of its pool
-/

/-- A pool is endless and hands out tokens just as its mode says. -/
structure Policy.Follows
    (policy : Policy)
    (mode : TokenMode) :
    Prop where
  isInfinite_iff : policy.isInfinite = true ↔ mode = .infinite
  isEnabled_iff : policy.isEnabled = true ↔ mode ≠ .disabled

/-- The pool of a finite mode that keeps the rules has periods that take time, so it runs out. -/
theorem TokenMode.follows_policy
    {mode : TokenMode}
    (wellFormed : mode.WellFormed) :
    mode.policy.Follows mode := by
  cases mode with
  | disabled => exact ⟨by simp [policy, Policy.isInfinite], by simp [policy]⟩
  | infinite => exact ⟨by simp [policy], by simp [policy, Policy.infinite, Policy.isEnabled]⟩
  | finite tokens =>
      have takesTime : (Duration.ofSeconds tokens.periodSeconds).toNanos ≠ 0 := by
        have positive := UInt64.lt_iff_toNat_lt.mp wellFormed.period_pos
        simp only [Duration.toNanos, Duration.ofSeconds, nanosPerSecond, UInt64.toNat_zero] at *
        omega
      exact ⟨by simp [policy, Policy.isInfinite, takesTime], by simp [policy, Policy.isEnabled]⟩

namespace TaskSettings

/-- A task that follows others has a name of its own and a pool that keeps the rules. -/
structure FaultlessAfter
    (earlier : List TaskSettings)
    (task : TaskSettings) :
    Prop where
  fresh : task.name ∉ earlier.map TaskSettings.name
  wellFormed : task.tokens.WellFormed

/-- What is wrong with a task that follows others: its name, or else its pool. -/
inductive FaultAfter
    (earlier : List TaskSettings)
    (task : TaskSettings) :
    SettingsFault → Prop
  | duplicate
      (used : task.name ∈ earlier.map TaskSettings.name) :
      FaultAfter earlier task (.duplicateTask task.name)
  | pool
      {flaw : PoolFlaw}
      (fresh : task.name ∉ earlier.map TaskSettings.name)
      (isFirst : task.tokens.FirstFlaw flaw) :
      FaultAfter earlier task (.invalidPool task.name flaw)

theorem faultless_or_faulty
    (earlier : List TaskSettings)
    (task : TaskSettings) :
    task.FaultlessAfter earlier ∨ ∃ fault, task.FaultAfter earlier fault := by
  by_cases used : task.name ∈ earlier.map TaskSettings.name
  · exact .inr ⟨_, .duplicate used⟩
  · rcases task.tokens.flaw?_cases with ⟨wellFormed, _⟩ | ⟨flaw, isFirst, _⟩
    · exact .inl ⟨used, wellFormed⟩
    · exact .inr ⟨_, .pool used isFirst⟩

end TaskSettings

namespace Settings

/-- The rules of settings. -/
structure WellFormed (settings : Settings) : Prop where
  contest : settings.contest.tokens.WellFormed
  tasks : ∀ task ∈ settings.tasks, task.tokens.WellFormed
  names : (settings.tasks.map TaskSettings.name).Nodup

/-- The fault of the contest pool, or else of the first task that has one. -/
inductive FirstFault (settings : Settings) : SettingsFault → Prop
  | contest
      {flaw : PoolFlaw}
      (isFirst : settings.contest.tokens.FirstFlaw flaw) :
      FirstFault settings (.invalidPool "contest" flaw)
  | task
      {index : Nat}
      {task : TaskSettings}
      {fault : SettingsFault}
      (contest : settings.contest.tokens.WellFormed)
      (found : settings.tasks[index]? = some task)
      (faulty : task.FaultAfter (settings.tasks.take index) fault)
      (first :
        ∀ place < index,
          ∀ earlier : TaskSettings,
            settings.tasks[place]? = some earlier →
            earlier.FaultlessAfter (settings.tasks.take place)) :
      FirstFault settings fault

section

variable
    {earlier : List TaskSettings}
    {task : TaskSettings}
    {fault : SettingsFault}

theorem validateTasks_of_faulty
    (faulty : task.FaultAfter earlier fault)
    (later : List TaskSettings) :
    validateTasks (earlier.map TaskSettings.name).reverse (task :: later) = .error fault := by
  rw [validateTasks_cons]
  cases faulty with
  | duplicate used =>
      rw [if_pos (List.mem_reverse.mpr used)]
  | pool fresh isFirst =>
      rw [if_neg (mt List.mem_reverse.mp fresh), TokenMode.flaw?_eq_some_iff.mpr isFirst]

theorem validateTasks_of_faultless
    (faultless : task.FaultlessAfter earlier)
    (later : List TaskSettings) :
    validateTasks (earlier.map TaskSettings.name).reverse (task :: later) =
      validateTasks ((earlier ++ [task]).map TaskSettings.name).reverse later := by
  rw [validateTasks_cons, if_neg (mt List.mem_reverse.mp faultless.fresh),
    TokenMode.flaw?_eq_none_iff.mpr faultless.wellFormed]
  simp

/-- After other tasks, validation reports the fault of the first task that has one. -/
theorem validateTasks_eq_error_iff
    {tasks : List TaskSettings} :
    validateTasks (earlier.map TaskSettings.name).reverse tasks = .error fault ↔
      ∃ (index : Nat) (task : TaskSettings),
        tasks[index]? = some task ∧
          task.FaultAfter (earlier ++ tasks.take index) fault ∧
          ∀ place < index,
            ∀ other : TaskSettings,
              tasks[place]? = some other →
              other.FaultlessAfter (earlier ++ tasks.take place) := by
  induction tasks generalizing earlier with
  | nil =>
      simp [validateTasks]
  | cons task later inductionHypothesis =>
      constructor
      · intro reported
        rcases task.faultless_or_faulty earlier with faultless | ⟨found, faulty⟩
        · rw [validateTasks_of_faultless faultless] at reported
          obtain ⟨index, other, atIndex, faulty, first⟩ := inductionHypothesis.mp reported
          refine ⟨index + 1, other, atIndex, ?_, fun place before => ?_⟩
          · rwa [List.append_assoc] at faulty
          · cases place with
            | zero =>
                rintro _ ⟨⟩
                rwa [List.take_zero, List.append_nil]
            | succ place =>
                intro another atPlace
                have passed := first place (Nat.lt_of_succ_lt_succ before) another atPlace
                rwa [List.append_assoc] at passed
        · rw [validateTasks_of_faulty faulty] at reported
          cases reported
          refine ⟨0, task, rfl, ?_, fun place before => absurd before (Nat.not_lt_zero place)⟩
          rwa [List.take_zero, List.append_nil]
      · rintro ⟨index, other, atIndex, faulty, first⟩
        cases index with
        | zero =>
            cases atIndex
            rw [List.take_zero, List.append_nil] at faulty
            exact validateTasks_of_faulty faulty later
        | succ index =>
            have faultless := first 0 (Nat.succ_pos index) task rfl
            rw [List.take_zero, List.append_nil] at faultless
            rw [validateTasks_of_faultless faultless, inductionHypothesis]
            refine ⟨index, other, atIndex, ?_, fun place before another atPlace => ?_⟩
            · rwa [List.append_assoc]
            · rw [List.append_assoc]
              exact first (place + 1) (Nat.succ_lt_succ before) another atPlace

end

variable {settings : Settings}

theorem validate_eq_ok_iff_wellFormed :
    settings.validate = .ok () ↔ settings.WellFormed := by
  simp only [validate_eq_ok_iff, TokenMode.flaw?_eq_none_iff]
  constructor
  · rintro ⟨contest, tasks, names⟩
    exact ⟨contest, tasks, names⟩
  · rintro ⟨contest, tasks, names⟩
    exact ⟨contest, tasks, names⟩

theorem validate_eq_error_iff
    {fault : SettingsFault} :
    settings.validate = .error fault ↔ settings.FirstFault fault := by
  rw [validate, TokenMode.validate]
  rcases settings.contest.tokens.flaw?_cases with ⟨wellFormed, none⟩ | ⟨flaw, isFirst, found⟩
  · rw [none]
    refine (@validateTasks_eq_error_iff [] fault settings.tasks).trans ?_
    simp only [List.nil_append]
    constructor
    · rintro ⟨index, task, found, faulty, first⟩
      exact .task wellFormed found faulty first
    · intro isFirst
      cases isFirst with
      | contest isFirst =>
          exact absurd isFirst.broken (TokenMode.wellFormed_iff.mp wellFormed _)
      | task _ found faulty first =>
          exact ⟨_, _, found, faulty, first⟩
  · rw [found]
    simp only [bind, Except.bind, Except.error.injEq]
    constructor
    · rintro rfl
      exact .contest isFirst
    · intro reported
      cases reported with
      | contest other =>
          rw [isFirst.unique other]
      | task wellFormed =>
          exact absurd isFirst.broken (TokenMode.wellFormed_iff.mp wellFormed _)

/--
Validation accepts exactly the well-formed settings, and reports the first fault of
all others.  In a contest of accepted settings every pool is endless just where its
mode is `infinite`, and hands out tokens just where its mode is not `disabled`.
-/
theorem validate_exact (settings : Settings) :
    (settings.validate = .ok () ↔ settings.WellFormed) ∧
      (∀ fault, settings.validate = .error fault ↔ settings.FirstFault fault) ∧
      (settings.validate = .ok () →
        (Contest.ofSettings settings).pool.Follows settings.contest.tokens ∧
          ∀ task ∈ settings.tasks,
            ∃ policy,
              (Contest.ofSettings settings).taskPolicy task.name = .ok policy ∧
                policy.Follows task.tokens) := by
  refine ⟨validate_eq_ok_iff_wellFormed, fun _ => validate_eq_error_iff, fun valid => ?_⟩
  have wellFormed := validate_eq_ok_iff_wellFormed.mp valid
  constructor
  · rw [Contest.pool_ofSettings]
    exact TokenMode.follows_policy wellFormed.contest
  · intro task listed
    refine ⟨task.tokens.policy, ?_, TokenMode.follows_policy (wellFormed.tasks task listed)⟩
    rw [Contest.taskPolicy, Contest.find?_ofSettings valid listed]

/-- Settings of three tasks, the second without tokens. -/
def threeTasks (last : TaskSettings) : Settings :=
  { Settings.default with
    tasks :=
      [{ name := "sum", tokens := .finite .default },
        { name := "max", tokens := .disabled },
        last] }

/-- Numbers that break two rules. -/
def timelessAndEmpty : FiniteTokens :=
  { FiniteTokens.default with
    periodSeconds := 0
    cap := some 0 }

/-- The name of a task counts before its pool, and of two broken rules the period's. -/
theorem validate_exact_threeTasks :
    (threeTasks ⟨"sum", .finite timelessAndEmpty⟩).FirstFault (.duplicateTask "sum") ∧
      (threeTasks ⟨"min", .finite timelessAndEmpty⟩).FirstFault
        (.invalidPool "min" .periodNotPositive) ∧
      (threeTasks ⟨"min", .finite .default⟩).WellFormed ∧
      (threeTasks ⟨"min", .finite .default⟩).validate = .ok () ∧
      (Contest.ofSettings (threeTasks ⟨"min", .finite .default⟩)).pool.isInfinite = true ∧
      ∃ policy,
        (Contest.ofSettings (threeTasks ⟨"min", .finite .default⟩)).taskPolicy "min" =
            .ok policy ∧
          policy.isInfinite ≠ true ∧
          policy.isEnabled = true := by
  have valid : (threeTasks ⟨"min", .finite .default⟩).validate = .ok () := by
    decide
  obtain ⟨accepted, -, follows⟩ := validate_exact (threeTasks ⟨"min", .finite .default⟩)
  obtain ⟨contest, tasks⟩ := follows valid
  obtain ⟨policy, found, follows⟩ := tasks ⟨"min", .finite .default⟩ (by decide)
  refine ⟨((validate_exact _).2.1 _).mp (by decide), ((validate_exact _).2.1 _).mp (by decide),
    accepted.mp valid, valid, contest.isInfinite_iff.mpr rfl, policy, found, ?_, ?_⟩
  · exact fun endless => nomatch follows.isInfinite_iff.mp endless
  · exact follows.isEnabled_iff.mpr (by decide)

end Settings

end TokenBudget
