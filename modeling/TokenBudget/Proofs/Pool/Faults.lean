import TokenBudget.Proofs.Pool.Answer

namespace TokenBudget

/-!
# When a pool is at fault

A pool gives no standing when the plays do not lie in order between its start and
the query, or when the standing would have to name an instant that there is not:
the end of a cooldown, or the next growth.  `Policy.standing_eq_error_iff` says
that there is no other fault, and which of them is reported.
-/

/-- Plays in order between the start and the query are at fault only for a query before the start. -/
theorem timelineFault?_of_within
    {start now : Instant}
    {history : List Instant}
    (sorted : history.Pairwise (· ≤ ·))
    (within : ∀ played ∈ history, start ≤ played ∧ played ≤ now) :
    timelineFault? start now history =
      if now < start then some (.queryBeforeStart start now) else none := by
  by_cases early : now < start
  · rw [if_pos early, timelineFault?, if_pos early]
  · rw [if_neg early, timelineFault?_eq_none_iff]
    exact ⟨not_lt.mp early, sorted, within⟩

namespace Policy

/-- A standing that would have to name an instant out of range. -/
inductive OutOfReach
    (policy : Policy)
    (initial : UInt32)
    (start : Instant)
    (history : List Instant)
    (now : Instant) :
    Prop where
  /-- The cooldown after the last play does not end. -/
  | cooldown
      {last : Instant}
      (isLast : history.getLast? = some last)
      (noEnd : last.shift? policy.cooldown.toNanos = none)
  /-- The tokens are counted and could grow, but there is no boundary to come. -/
  | growth
      (finite : policy.isInfinite = false)
      (left : policy.isExhausted history.length = false)
      (generates : 0 < policy.perPeriod)
      (room :
        policy.isSaturated
            (policy.replay (Clock.ofPolicy start policy) now initial.toNat start history) =
          false)
      (noBoundary : (Clock.ofPolicy start policy).nextBoundary? now = none)

variable
    {policy : Policy}
    {start now : Instant}
    {history : List Instant}
    {fault : Fault}

theorem whileRunning_eq_error_iff
    {ends? : Option Instant} :
    whileRunning now ends? = .error fault ↔ fault = .outOfRange ∧ ends? = none := by
  cases ends? <;> simp [whileRunning, eq_comm]

theorem cooldownEnd_eq_error_iff :
    policy.cooldownEnd history now = .error fault ↔
      fault = .outOfRange ∧
        ∃ last,
          history.getLast? = some last ∧ last.shift? policy.cooldown.toNanos = none := by
  rw [cooldownEnd]
  cases history.getLast? with
  | none =>
      simp
  | some last =>
      simp only [whileRunning_eq_error_iff, Option.some.injEq, exists_eq_left']

theorem nextGrowth_eq_error_iff
    {clock : Clock}
    {balance : Int} :
    policy.nextGrowth clock now balance = .error fault ↔
      fault = .outOfRange ∧
        0 < policy.perPeriod ∧
        policy.isSaturated balance = false ∧
        clock.nextBoundary? now = none := by
  by_cases generates : 0 < policy.perPeriod
  · cases room : policy.isSaturated balance with
    | true =>
        simp [nextGrowth, room]
    | false =>
        cases found : clock.nextBoundary? now with
        | none =>
            simp [nextGrowth, generates, room, found, eq_comm]
        | some boundary =>
            simp [nextGrowth, generates, room, found]
  · simp [nextGrowth, generates]

/-- With its plays in order, an enabled pool lacks a standing only for want of an instant. -/
theorem standingFrom_eq_error_iff
    {initial : UInt32} :
    policy.standingFrom initial start history now = .error fault ↔
      fault = .outOfRange ∧ policy.OutOfReach initial start history now := by
  simp only [standingFrom, bind, Except.bind]
  cases cooling : policy.cooldownEnd history now with
  | error coolingFault =>
      obtain ⟨rfl, last, isLast, noEnd⟩ := cooldownEnd_eq_error_iff.mp cooling
      simp only [Except.error.injEq]
      exact ⟨fun same => ⟨same.symm, .cooldown isLast noEnd⟩, fun beyond => beyond.1.symm⟩
  | ok cooldownEnd =>
      have cooled :
          ∀ {last}, history.getLast? = some last → last.shift? policy.cooldown.toNanos ≠ none := by
        intro last isLast noEnd
        rw [cooldownEnd_eq_error_iff.mpr ⟨rfl, last, isLast, noEnd⟩] at cooling
        contradiction
      dsimp only
      split
      · next endless =>
          refine ⟨fun impossible => absurd impossible (by simp [pure, Except.pure]), ?_⟩
          rintro ⟨-, ⟨isLast, noEnd⟩ | ⟨finite, -⟩⟩
          · exact absurd noEnd (cooled isLast)
          · simp [finite] at endless
      · next notEndless =>
          split
          · next usedUp =>
              refine ⟨fun impossible => absurd impossible (by simp [pure, Except.pure]), ?_⟩
              rintro ⟨-, ⟨isLast, noEnd⟩ | ⟨-, left, -⟩⟩
              · exact absurd noEnd (cooled isLast)
              · simp [left] at usedUp
          · next notUsedUp =>
              split
              · next growthFault growing =>
                  obtain ⟨rfl, generates, room, noBoundary⟩ := nextGrowth_eq_error_iff.mp growing
                  simp only [Except.error.injEq]
                  exact
                    ⟨fun same =>
                      ⟨same.symm, .growth (by simpa using notEndless) (by simpa using notUsedUp)
                        generates room noBoundary⟩,
                      fun beyond => beyond.1.symm⟩
              · next nextGrowth growing =>
                  refine ⟨fun impossible => absurd impossible (by simp [pure, Except.pure]), ?_⟩
                  rintro ⟨-, ⟨isLast, noEnd⟩ | ⟨-, -, generates, room, noBoundary⟩⟩
                  · exact absurd noEnd (cooled isLast)
                  · rw [nextGrowth_eq_error_iff.mpr ⟨rfl, generates, room, noBoundary⟩] at growing
                    contradiction

/-- An enabled pool is at fault for its plays first, and then for want of an instant. -/
theorem standing_eq_error_iff
    {initial : UInt32}
    (enabled : policy.initial = some initial) :
    policy.standing start history now = .error fault ↔
      timelineFault? start now history = some fault ∨
        Orderly start now history ∧
          fault = .outOfRange ∧ policy.OutOfReach initial start history now := by
  rw [← timelineFault?_eq_none_iff]
  simp only [standing, enabled]
  cases timelineFault? start now history with
  | none =>
      simp [standingFrom_eq_error_iff]
  | some timelineFault =>
      simp

/-- With its plays in order since the start, a pool is at fault for an early query or an instant. -/
theorem fault_of_within
    (sorted : history.Pairwise (· ≤ ·))
    (within : ∀ played ∈ history, start ≤ played ∧ played ≤ now)
    (failed : policy.standing start history now = .error fault) :
    (now < start ∧ fault = .queryBeforeStart start now) ∨ fault = .outOfRange := by
  cases enabled : policy.initial with
  | none =>
      simp [standing, enabled] at failed
  | some initial =>
      rcases (standing_eq_error_iff enabled).mp failed with early | ⟨-, isRange, -⟩
      · rw [timelineFault?_of_within sorted within] at early
        split at early
        · next isEarly =>
            exact .inl ⟨isEarly, (Option.some.inj early).symm⟩
        · contradiction
      · exact .inr isRange

/-- A pool that lets a play through has its plays in order since the start. -/
theorem orderly_of_canPlay
    {standing : Standing}
    (answered : policy.standing start history now = .ok standing)
    (canPlay : standing.canPlay = true) :
    Orderly start now history := by
  cases standing_eq_ok_iff.mp answered with
  | disabled off => contradiction
  | infinite enabled orderly cooling endless => exact orderly
  | exhausted enabled orderly cooling finite usedUp => exact orderly
  | counted enabled orderly cooling finite left replayed growing => exact orderly

end Policy

/-- Together the pools are at fault for the contest pool first. -/
theorem jointStanding_eq_error_iff
    {contest task : Policy}
    {start now : Instant}
    {contestHistory taskHistory : List Instant}
    {fault : Fault} :
    jointStanding contest task start contestHistory taskHistory now = .error fault ↔
      contest.standing start contestHistory now = .error fault ∨
        (∃ standing, contest.standing start contestHistory now = .ok standing) ∧
          task.standing start taskHistory now = .error fault := by
  simp only [jointStanding, bind, Except.bind, pure, Except.pure]
  cases contest.standing start contestHistory now with
  | error contestFault =>
      simp
  | ok contestStanding =>
      cases task.standing start taskHistory now with
      | error taskFault => simp
      | ok taskStanding => simp

end TokenBudget
