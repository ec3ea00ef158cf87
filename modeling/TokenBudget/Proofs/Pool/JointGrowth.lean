import TokenBudget.Proofs.Pool.Growth

namespace TokenBudget

/-!
# When the joint count grows

Contest pool and task pool hold each other back: the joint count is the smaller
of the two, and it grows when the pool that holds it back grows.  Pools with the
same count must both grow.  `jointGrowth_exact` says that the reported growth is
the first instant with more tokens.
-/

namespace Standing

variable {contest task : Standing}

theorem count_meet
    (contest task : Standing) :
    (contest.meet task).count = min contest.count task.count :=
  rfl

/-- A contest pool with fewer tokens decides when the joint count grows. -/
theorem nextGrowth_meet_of_lt
    (fewer : contest.count < task.count) :
    (contest.meet task).nextGrowth = contest.nextGrowth := by
  obtain ⟨contestCount, contestGrowth, contestCooldown⟩ := contest
  obtain ⟨taskCount, taskGrowth, taskCooldown⟩ := task
  cases contestCount with
  | infinite =>
      exact absurd (TokenCount.le_infinite taskCount) (not_le.mpr fewer)
  | finite contestNumber =>
      cases taskCount with
      | infinite =>
          rfl
      | finite taskNumber =>
          exact if_pos (TokenCount.finite_lt_finite.mp fewer)

/-- A task pool with fewer tokens decides when the joint count grows. -/
theorem nextGrowth_meet_of_gt
    (fewer : task.count < contest.count) :
    (contest.meet task).nextGrowth = task.nextGrowth := by
  obtain ⟨contestCount, contestGrowth, contestCooldown⟩ := contest
  obtain ⟨taskCount, taskGrowth, taskCooldown⟩ := task
  cases taskCount with
  | infinite =>
      exact absurd (TokenCount.le_infinite contestCount) (not_le.mpr fewer)
  | finite taskNumber =>
      cases contestCount with
      | infinite =>
          rfl
      | finite contestNumber =>
          have smaller : taskNumber < contestNumber :=
            TokenCount.finite_lt_finite.mp fewer
          have notSmaller : ¬ contestNumber < taskNumber :=
            UInt32.lt_asymm smaller
          simp only [meet]
          rw [if_neg notSmaller, if_pos smaller]

theorem nextGrowth_meet_of_eq
    {count : UInt32}
    (contestCount : contest.count = .finite count)
    (taskCount : task.count = .finite count) :
    (contest.meet task).nextGrowth = bothBy contest.nextGrowth task.nextGrowth := by
  have notLess : ¬ count < count := UInt32.lt_irrefl count
  simp only [meet, contestCount, taskCount, if_neg notLess]

/-- Which pool decides when the joint count grows. -/
theorem nextGrowth_meet_cases
    (contest task : Standing) :
    (contest.count < task.count ∧
        (contest.meet task).nextGrowth = contest.nextGrowth) ∨
      (task.count < contest.count ∧
        (contest.meet task).nextGrowth = task.nextGrowth) ∨
      (contest.count = task.count ∧
        (contest.meet task).nextGrowth = bothBy contest.nextGrowth task.nextGrowth) ∨
      (contest.count = .infinite ∧ task.count = .infinite ∧
        (contest.meet task).nextGrowth = none) := by
  rcases lt_trichotomy contest.count task.count with fewer | same | fewer
  · exact .inl ⟨fewer, nextGrowth_meet_of_lt fewer⟩
  · cases contestCount : contest.count with
    | infinite =>
        have taskCount : task.count = .infinite := same.symm.trans contestCount
        refine .inr (.inr (.inr ⟨rfl, taskCount, ?_⟩))
        simp only [meet, contestCount, taskCount]
    | finite count =>
        have taskCount : task.count = .finite count := same.symm.trans contestCount
        exact .inr (.inr (.inl ⟨taskCount.symm, nextGrowth_meet_of_eq contestCount taskCount⟩))
  · exact .inr (.inl ⟨fewer, nextGrowth_meet_of_gt fewer⟩)

end Standing

/-- Unless both growths have come by an instant, one of them has not. -/
theorem Standing.notYet_of_bothBy
    {first second : Option Instant}
    {instant : Instant}
    (notYet : ∀ growth, bothBy first second = some growth → instant < growth) :
    (∀ growth, first = some growth → instant < growth) ∨
      ∀ growth, second = some growth → instant < growth := by
  cases first with
  | none =>
      simp
  | some first =>
      cases second with
      | none =>
          simp
      | some second =>
          have notBoth : instant < first.later second := notYet _ rfl
          rcases Instant.later_cases first second with ⟨-, laterOne⟩ | ⟨-, laterOne⟩
          · rw [laterOne] at notBoth
            exact .inr (fun growth same => Option.some.inj same ▸ notBoth)
          · rw [laterOne] at notBoth
            exact .inl (fun growth same => Option.some.inj same ▸ notBoth)

/-- When both growths have come, each of them has. -/
theorem Standing.le_of_bothBy
    {first second : Option Instant}
    {growth : Instant}
    (both : bothBy first second = some growth) :
    ∃ firstGrowth secondGrowth,
      first = some firstGrowth ∧
        second = some secondGrowth ∧
        firstGrowth ≤ growth ∧
        secondGrowth ≤ growth ∧
        (growth = firstGrowth ∨ growth = secondGrowth) := by
  cases first with
  | none =>
      simp [bothBy] at both
  | some first =>
      cases second with
      | none =>
          simp [bothBy] at both
      | some second =>
          obtain rfl : first.later second = growth := Option.some.inj both
          refine ⟨first, second, rfl, rfl, ?_⟩
          rcases Instant.later_cases first second with ⟨ordered, laterOne⟩ | ⟨ordered, laterOne⟩
          · rw [laterOne]
            exact ⟨ordered, le_refl second, .inr rfl⟩
          · rw [laterOne]
            exact ⟨le_refl first, le_of_lt ordered, .inl rfl⟩

namespace Forecast

section

variable
    {slow fast : Instant → Except Fault Standing}
    {now later : Instant}
    {slowStanding fastStanding slowAfter fastAfter : Standing}
    (slowForecast : Forecast slow now slowStanding)
    (fastForecast : Forecast fast now fastStanding)
    (laterPlain : later.isLeap = false)
    (slowAnswered : slow later = .ok slowAfter)
    (fastAnswered : fast later = .ok fastAfter)

include slowForecast fastForecast laterPlain slowAnswered fastAnswered

/-- Until the pool that holds back grows, the smaller count is its count. -/
theorem min_count_eq
    (ordered : slowStanding.count ≤ fastStanding.count)
    (notEarlier : now ≤ later)
    (notYet : ∀ growth, slowStanding.nextGrowth = some growth → later < growth) :
    min slowAfter.count fastAfter.count = slowStanding.count := by
  rw [slowForecast.steady laterPlain notEarlier notYet slowAnswered]
  exact min_eq_left
    (le_trans ordered (fastForecast.rises laterPlain notEarlier fastAnswered))

/-- When the pool that holds back has grown, the smaller count has. -/
theorem lt_min_count
    {growth : Instant}
    (fewer : slowStanding.count < fastStanding.count)
    (below : slowStanding.count < .finite 4294967295)
    (growing : slowStanding.nextGrowth = some growth)
    (reached : growth ≤ later) :
    slowStanding.count < min slowAfter.count fastAfter.count := by
  have notEarlier : now ≤ later :=
    le_trans (le_of_lt (slowForecast.ahead growing).1) reached
  exact lt_min
    (slowForecast.grown growing laterPlain reached slowAnswered below)
    (lt_of_lt_of_le fewer (fastForecast.rises laterPlain notEarlier fastAnswered))

end

section

variable
    {contest task : Policy}
    {start now : Instant}
    {contestHistory taskHistory : List Instant}
    {contestStanding taskStanding : Standing}
    (contestForecast : Forecast (contest.standing start contestHistory) now contestStanding)
    (taskForecast : Forecast (task.standing start taskHistory) now taskStanding)

include contestForecast taskForecast

/-- Until growth is reported to come, the joint count stays the same. -/
theorem steady_meet
    {later : Instant}
    {after : Standing}
    (laterPlain : later.isLeap = false)
    (ordered : now ≤ later)
    (notYet :
      ∀ growth, (contestStanding.meet taskStanding).nextGrowth = some growth → later < growth)
    (answered :
      jointStanding contest task start contestHistory taskHistory later = .ok after) :
    after.count = (contestStanding.meet taskStanding).count := by
  obtain ⟨contestAfter, taskAfter, contestAnswered, taskAnswered, rfl⟩ :=
    jointStanding_eq_ok_iff.mp answered
  rw [Standing.count_meet, Standing.count_meet]
  rcases Standing.nextGrowth_meet_cases contestStanding taskStanding with
    ⟨fewer, decides⟩ | ⟨fewer, decides⟩ | ⟨same, decides⟩ | ⟨contestEndless, taskEndless, -⟩
  · rw [decides] at notYet
    rw [min_eq_left (le_of_lt fewer)]
    exact min_count_eq contestForecast taskForecast laterPlain contestAnswered taskAnswered
      (le_of_lt fewer) ordered notYet
  · rw [decides] at notYet
    rw [min_eq_right (le_of_lt fewer), min_comm]
    exact min_count_eq taskForecast contestForecast laterPlain taskAnswered contestAnswered
      (le_of_lt fewer) ordered notYet
  · rw [decides] at notYet
    rcases Standing.notYet_of_bothBy notYet with contestNotYet | taskNotYet
    · rw [min_eq_left (le_of_eq same)]
      exact min_count_eq contestForecast taskForecast laterPlain contestAnswered taskAnswered
        (le_of_eq same) ordered contestNotYet
    · rw [min_eq_right (le_of_eq same.symm), min_comm]
      exact min_count_eq taskForecast contestForecast laterPlain taskAnswered contestAnswered
        (le_of_eq same.symm) ordered taskNotYet
  · have contestRises := contestForecast.rises laterPlain ordered contestAnswered
    have taskRises := taskForecast.rises laterPlain ordered taskAnswered
    rw [contestEndless] at contestRises
    rw [taskEndless] at taskRises
    rw [contestEndless, taskEndless,
      le_antisymm (TokenCount.le_infinite _) contestRises,
      le_antisymm (TokenCount.le_infinite _) taskRises]

theorem ahead_meet
    {growth : Instant}
    (growing : (contestStanding.meet taskStanding).nextGrowth = some growth) :
    now < growth ∧ growth.isLeap = false := by
  rcases Standing.nextGrowth_meet_cases contestStanding taskStanding with
    ⟨-, decides⟩ | ⟨-, decides⟩ | ⟨-, decides⟩ | ⟨-, -, decides⟩
  · exact contestForecast.ahead (decides.symm.trans growing)
  · exact taskForecast.ahead (decides.symm.trans growing)
  · obtain ⟨contestGrowth, taskGrowth, contestGrows, taskGrows, -, -, isOne⟩ :=
      Standing.le_of_bothBy (decides.symm.trans growing)
    rcases isOne with rfl | rfl
    · exact contestForecast.ahead contestGrows
    · exact taskForecast.ahead taskGrows
  · rw [growing] at decides
    contradiction

/-- When reported growth has come, the joint count is larger. -/
theorem grown_meet
    {growth later : Instant}
    {after : Standing}
    (growing : (contestStanding.meet taskStanding).nextGrowth = some growth)
    (laterPlain : later.isLeap = false)
    (reached : growth ≤ later)
    (answered :
      jointStanding contest task start contestHistory taskHistory later = .ok after)
    (below : (contestStanding.meet taskStanding).count < .finite 4294967295) :
    (contestStanding.meet taskStanding).count < after.count := by
  obtain ⟨contestAfter, taskAfter, contestAnswered, taskAnswered, rfl⟩ :=
    jointStanding_eq_ok_iff.mp answered
  rw [Standing.count_meet] at below ⊢
  rw [Standing.count_meet]
  rcases Standing.nextGrowth_meet_cases contestStanding taskStanding with
    ⟨fewer, decides⟩ | ⟨fewer, decides⟩ | ⟨same, decides⟩ | ⟨-, -, decides⟩
  · rw [min_eq_left (le_of_lt fewer)] at below ⊢
    exact lt_min_count contestForecast taskForecast laterPlain contestAnswered taskAnswered
      fewer below (decides.symm.trans growing) reached
  · rw [min_eq_right (le_of_lt fewer)] at below ⊢
    rw [min_comm]
    exact lt_min_count taskForecast contestForecast laterPlain taskAnswered contestAnswered
      fewer below (decides.symm.trans growing) reached
  · obtain ⟨contestGrowth, taskGrowth, contestGrows, taskGrows, contestBy, taskBy, -⟩ :=
      Standing.le_of_bothBy (decides.symm.trans growing)
    rw [← same, min_self] at below ⊢
    exact lt_min
      (contestForecast.grown contestGrows laterPlain (le_trans contestBy reached)
        contestAnswered below)
      (same ▸ taskForecast.grown taskGrows laterPlain (le_trans taskBy reached)
        taskAnswered (same ▸ below))
  · rw [growing] at decides
    contradiction

/-- A joint standing tells about later queries when the standings of both pools do. -/
theorem meet :
    Forecast (jointStanding contest task start contestHistory taskHistory) now
      (contestStanding.meet taskStanding) where
  rises := by
    intro later after laterPlain ordered answered
    obtain ⟨contestAfter, taskAfter, contestAnswered, taskAnswered, rfl⟩ :=
      jointStanding_eq_ok_iff.mp answered
    exact min_le_min
      (contestForecast.rises laterPlain ordered contestAnswered)
      (taskForecast.rises laterPlain ordered taskAnswered)
  steady := steady_meet contestForecast taskForecast
  ahead := ahead_meet contestForecast taskForecast
  grown := grown_meet contestForecast taskForecast

end

end Forecast

/--
What a joint standing tells: with growth reported, the count stays until then
and is larger then; with none reported it never grows.
-/
theorem jointGrowth_exact
    {contest task : Policy}
    {start now : Instant}
    {contestHistory taskHistory : List Instant}
    {standing : Standing}
    {count : UInt32}
    (startPlain : start.isLeap = false)
    (nowPlain : now.isLeap = false)
    (contestPlain : ∀ played ∈ contestHistory, played.isLeap = false)
    (taskPlain : ∀ played ∈ taskHistory, played.isLeap = false)
    (contestFew : contestHistory.length < 2 ^ 59)
    (taskFew : taskHistory.length < 2 ^ 59)
    (answered :
      jointStanding contest task start contestHistory taskHistory now = .ok standing)
    (counted : standing.count = .finite count)
    (below : count.toNat < 4294967295)
    (contestSolvent : contest.SolventAt start contestHistory now)
    (taskSolvent : task.SolventAt start taskHistory now) :
    (∀ growth,
        standing.nextGrowth = some growth →
        now < growth ∧
          (∀ later after,
            later.isLeap = false →
            now ≤ later →
            later < growth →
            jointStanding contest task start contestHistory taskHistory later = .ok after →
            after.count = .finite count) ∧
          ∀ after,
            jointStanding contest task start contestHistory taskHistory growth = .ok after →
            .finite count < after.count) ∧
      (standing.nextGrowth = none →
        ∀ later after,
          later.isLeap = false →
          now ≤ later →
          jointStanding contest task start contestHistory taskHistory later = .ok after →
          ¬ .finite count < after.count) := by
  have forecast :
      Forecast (jointStanding contest task start contestHistory taskHistory) now standing := by
    obtain ⟨contestStanding, taskStanding, contestAnswered, taskAnswered, rfl⟩ :=
      jointStanding_eq_ok_iff.mp answered
    exact Forecast.meet
      (Policy.forecast_of_standing startPlain nowPlain contestPlain contestFew contestSolvent
        contestAnswered)
      (Policy.forecast_of_standing startPlain nowPlain taskPlain taskFew taskSolvent
        taskAnswered)
  have belowMost : TokenCount.finite count < .finite 4294967295 :=
    TokenCount.finite_lt_finite.mpr below
  constructor
  · intro growth growing
    obtain ⟨ahead, growthPlain⟩ := forecast.ahead growing
    refine ⟨ahead, ?_, ?_⟩
    · intro later after laterPlain ordered notYet laterAnswered
      rw [← counted]
      apply forecast.steady laterPlain ordered _ laterAnswered
      intro other otherGrowing
      obtain rfl := Option.some.inj (growing.symm.trans otherGrowing)
      exact notYet
    · intro after growthAnswered
      rw [← counted] at belowMost ⊢
      exact forecast.grown growing growthPlain (le_refl growth) growthAnswered belowMost
  · intro noGrowth later after laterPlain ordered laterAnswered
    have unchanged := forecast.steady laterPlain ordered (by simp [noGrowth]) laterAnswered
    rw [unchanged, counted]
    exact lt_irrefl _

/-- A pool that gains two tokens every five seconds. -/
def fivePool : Policy :=
  { Policy.disabled with
    initial := some 1
    period := .ofSeconds 5
    perPeriod := 2 }

/-- A pool of at most five tokens that gains one every four seconds. -/
def fourPool : Policy :=
  { Policy.disabled with
    initial := some 2
    cap := some 5
    period := .ofSeconds 4
    perPeriod := 1 }

/--
Seven seconds after the start and with one play at two seconds both pools hold
two tokens; the joint count waits for the later boundary, at ten seconds.
-/
theorem jointGrowth_exact_equal_counts :
    jointStanding fivePool fourPool (.onDayZero 0) [.onDayZero 2] [.onDayZero 2]
          (.onDayZero 7) =
        .ok
          { count := .finite 2
            nextGrowth := some (.onDayZero 10)
            cooldownEnd := none } ∧
      Instant.onDayZero 7 < .onDayZero 10 ∧
      (∀ later after,
        later.isLeap = false →
        .onDayZero 7 ≤ later →
        later < .onDayZero 10 →
        jointStanding fivePool fourPool (.onDayZero 0) [.onDayZero 2] [.onDayZero 2] later =
          .ok after →
        after.count = .finite 2) ∧
      ∀ after,
        jointStanding fivePool fourPool (.onDayZero 0) [.onDayZero 2] [.onDayZero 2]
            (.onDayZero 10) =
          .ok after →
        .finite 2 < after.count := by
  have answered :
      jointStanding fivePool fourPool (.onDayZero 0) [.onDayZero 2] [.onDayZero 2]
          (.onDayZero 7) =
        .ok
          { count := .finite 2
            nextGrowth := some (.onDayZero 10)
            cooldownEnd := none } := by
    decide
  have contestSolvent : fivePool.SolventAt (.onDayZero 0) [.onDayZero 2] (.onDayZero 7) := by
    intro initial enabled _ _
    cases enabled
    decide +kernel
  have taskSolvent : fourPool.SolventAt (.onDayZero 0) [.onDayZero 2] (.onDayZero 7) := by
    intro initial enabled _ _
    cases enabled
    decide +kernel
  exact ⟨answered,
    (jointGrowth_exact (by decide) (by decide) (by decide) (by decide) (by decide) (by decide)
      answered rfl (by decide) contestSolvent taskSolvent).1 (.onDayZero 10) rfl⟩

end TokenBudget
