import TokenBudget.Proofs.Contest.Faults
import TokenBudget.Proofs.Pool.Reach
import TokenBudget.Proofs.Settings.Rules

namespace TokenBudget

/-!
# How far valid settings reach

Validation sets no limit to periods and cooldowns, so valid settings may ask for
instants that there are not.  A query is answered exactly when both pools are in
reach, and is otherwise out of range: `Settings.standingAfter_inReach`.  Up to year
9999 it is always answered when no period or cooldown takes more than a quarter of
a million years.

The instants are looked for before the lifetime is, so a query can be out of range
on a pool whose lifetime is used up, as in `Settings.outOfRange_of_valid`.
-/

namespace TokenMode

/-- The period and the cooldown of a finite pool take at most so many seconds. -/
def IntervalsAtMost (seconds : Nat) : TokenMode → Prop
  | .finite tokens =>
      tokens.periodSeconds.toNat ≤ seconds ∧ tokens.cooldownSeconds.toNat ≤ seconds
  | .disabled => True
  | .infinite => True

instance (seconds : Nat) (mode : TokenMode) : Decidable (mode.IntervalsAtMost seconds) := by
  cases mode <;> unfold IntervalsAtMost <;> infer_instance

/-- Periods are set in whole seconds. -/
theorem second_le_period
    (mode : TokenMode)
    (start : Instant) :
    nanosPerSecond ≤ (Clock.ofPolicy start mode.policy).period := by
  rw [Clock.period_ofPolicy]
  split
  · next positive =>
      cases mode with
      | disabled => exact absurd positive (by decide)
      | infinite => exact absurd positive (by decide)
      | finite tokens =>
          simp only [policy, Duration.toNanos_ofSeconds] at positive ⊢
          exact Nat.le_mul_of_pos_left nanosPerSecond (Nat.pos_of_mul_pos_right positive)
  · exact Nat.le_refl _

section

variable
    {mode : TokenMode}
    {seconds : Nat}
    (brief : mode.IntervalsAtMost seconds)

include brief

theorem IntervalsAtMost.cooldown_le :
    mode.policy.cooldown.toNanos ≤ seconds * nanosPerSecond := by
  cases mode with
  | disabled =>
      simp only [policy, Policy.disabled, Duration.toNanos_zero, Nat.zero_le]
  | infinite =>
      simp only [policy, Policy.infinite, Policy.disabled, Duration.toNanos_zero, Nat.zero_le]
  | finite tokens =>
      simp only [policy, Duration.toNanos_ofSeconds]
      exact Nat.mul_le_mul_right nanosPerSecond brief.2

theorem IntervalsAtMost.period_le
    (positive : 0 < seconds)
    (start : Instant) :
    (Clock.ofPolicy start mode.policy).period ≤ seconds * nanosPerSecond := by
  rw [Clock.period_ofPolicy]
  split
  · next hasPeriod =>
      cases mode with
      | disabled => exact absurd hasPeriod (by decide)
      | infinite => exact absurd hasPeriod (by decide)
      | finite tokens =>
          simp only [policy, Duration.toNanos_ofSeconds]
          exact Nat.mul_le_mul_right nanosPerSecond brief.1
  · exact Nat.le_mul_of_pos_left nanosPerSecond positive

end

end TokenMode

/-- A contest answers about a participation that has started exactly when both pools do. -/
theorem Contest.exists_standing_iff
    {contest : Contest}
    {participation : Participation}
    {task : String}
    {policy : Policy}
    {plays : List Play}
    {start now : Instant}
    (known : contest.tasks.find? task = some policy)
    (started : contest.schedule.tokenStart? participation = some start)
    (ordered : start ≤ now)
    (contestSecond : nanosPerSecond ≤ (Clock.ofPolicy start contest.pool).period)
    (taskSecond : nanosPerSecond ≤ (Clock.ofPolicy start policy).period) :
    (∃ standing, contest.standing participation task plays now = .ok standing) ↔
      contest.pool.Answers start (Play.instants (pastPlays plays now)) now ∧
        policy.Answers start (Play.instants (Play.onTask task (pastPlays plays now))) now := by
  have orderly := orderly_pastPlays plays now
  have onTaskOrderly := orderly.part (Play.instants_onTask_sublist task _)
  rw [← Policy.exists_standing_iff ordered orderly.sorted
      (fun played member => (orderly.within played member).2) contestSecond,
    ← Policy.exists_standing_iff ordered onTaskOrderly.sorted
      (fun played member => (onTaskOrderly.within played member).2) taskSecond]
  simp only [standing_eq_ok_iff_of_started known started, jointStanding_eq_ok_iff]
  constructor
  · rintro ⟨standing, contestStanding, taskStanding, contestAnswered, taskAnswered, -⟩
    exact ⟨⟨contestStanding, contestAnswered⟩, taskStanding, taskAnswered⟩
  · rintro ⟨⟨contestStanding, contestAnswered⟩, taskStanding, taskAnswered⟩
    exact ⟨_, contestStanding, taskStanding, contestAnswered, taskAnswered, rfl⟩

namespace Settings

/-- What a participation is told of a task after requests under the settings. -/
def standingAfter
    (settings : Settings)
    (requests : List Request)
    (participation : Participation)
    (task : String)
    (now : Instant) :
    Except Rejection Standing :=
  (Ledger.empty.serve (.ofSettings settings) requests).standing (.ofSettings settings)
    participation task now

/-- The plays that a query of a participation sees after requests under the settings. -/
def seenAfter
    (settings : Settings)
    (requests : List Request)
    (participation : Participation)
    (now : Instant) :
    List Play :=
  Contest.pastPlays
    ((Ledger.empty.serve (.ofSettings settings) requests).playsOf participation.name) now

section

variable
    {settings : Settings}
    {task : TaskSettings}
    {requests : List Request}
    {participation : Participation}
    {start now : Instant}
    (valid : settings.validate = .ok ())
    (listed : task ∈ settings.tasks)
    (started : (Contest.ofSettings settings).schedule.tokenStart? participation = some start)
    (ordered : start ≤ now)

include valid listed started ordered

theorem exists_standingAfter_iff :
    (∃ standing, settings.standingAfter requests participation task.name now = .ok standing) ↔
      settings.contest.tokens.policy.Answers start
          (Play.instants (settings.seenAfter requests participation now)) now ∧
        task.tokens.policy.Answers start
          (Play.instants
            (Play.onTask task.name (settings.seenAfter requests participation now)))
          now := by
  have isPool := Contest.pool_ofSettings settings
  rw [← isPool]
  exact
    Contest.exists_standing_iff (Contest.find?_ofSettings valid listed) started ordered
      (isPool ▸ settings.contest.tokens.second_le_period start)
      (task.tokens.second_le_period start)

variable
    (steady :
      ∀ request ∈ requests,
        request.participation.name = participation.name →
        request.participation = participation)

include steady

/-- A participation that plays as itself only is answered unless an instant is out of range. -/
theorem standingAfter_cases :
    (∃ standing, settings.standingAfter requests participation task.name now = .ok standing) ∨
      settings.standingAfter requests participation task.name now =
        .error (.unanswerable .outOfRange) := by
  refine
    (Contest.standing_cases (Contest.find?_ofSettings valid listed)).imp_right
      fun ⟨fault, failed⟩ => ?_
  rcases (Ledger.playedSinceStart_serve steady).fault_cases failed with
    ⟨sameStart, alsoStarted, early, -⟩ | rfl
  · cases started.symm.trans alsoStarted
    exact absurd early (not_lt.mpr ordered)
  · exact failed

/-- Up to year 9999 a participation that plays as itself only is answered if intervals are brief. -/
theorem exists_standingAfter_of_brief
    (early : now.year ≤ 9999)
    (briefContest :
      settings.contest.tokens.IntervalsAtMost Instant.quarterMillionYears)
    (briefTask : task.tokens.IntervalsAtMost Instant.quarterMillionYears) :
    ∃ standing,
      settings.standingAfter requests participation task.name now = .ok standing := by
  have within
      (counts : Play → Bool) :
      ∀ instant ∈
          Play.instants ((settings.seenAfter requests participation now).filter counts),
        start ≤ instant ∧ instant ≤ now :=
    (Ledger.playedSinceStart_serve steady).within started counts
  have answers
      {mode : TokenMode}
      (brief : mode.IntervalsAtMost Instant.quarterMillionYears)
      (counts : Play → Bool) :
      mode.policy.Answers start
        (Play.instants ((settings.seenAfter requests participation now).filter counts))
        now :=
    Policy.answers_of_brief (fun played member => (within counts played member).2) early
      (fun played member => (within counts played member).1) brief.cooldown_le
      (brief.period_le (by decide) start)
  rw [exists_standingAfter_iff valid listed started ordered]
  refine ⟨?_, answers briefTask _⟩
  have contestAnswers := answers briefContest fun _ => true
  rwa [seenAfter, Contest.filter_true_past] at contestAnswers

end

/-- A task without limits of its own. -/
def unlimitedSum : TaskSettings where
  name := "sum"
  tokens := .infinite

/-- Settings with windows of an hour, a counted contest pool and one task without limits. -/
def ofPool (tokens : FiniteTokens) : Settings where
  contest :=
    { start := .onDayZero 0
      personalSeconds := some 3600
      tokens := .finite tokens }
  tasks := [unlimitedSum]
  participants := []

/-- The participant asks for a token as soon as the window opens. -/
def playAtOnce (second : Nat) : Request where
  participation := startingAt "ann" second
  task := "sum"
  submission := "first"
  now := .onDayZero second

/-- A cooldown that outlasts all instants, on a pool that keeps a token. -/
def endlessCooldown : Settings :=
  ofPool
    { FiniteTokens.default with
      perPeriod := 0
      cooldownSeconds := 9223372036854775807 }

/-- The same cooldown, on a pool whose lifetime is used up by one play. -/
def spentForever : Settings :=
  ofPool
    { FiniteTokens.default with
      perPeriod := 0
      lifetime := some 1
      cooldownSeconds := 9223372036854775807 }

/-- A period that outlasts all instants. -/
def endlessPeriod : Settings :=
  ofPool { FiniteTokens.default with periodSeconds := 9223372036854775807 }

end Settings

end TokenBudget
