import TokenBudget.Pool.Replay
import TokenBudget.Proofs.Instant.Plain

namespace TokenBudget

/-!
# How a pool answers

A pool answers a query in one of four ways: it is disabled, it never runs out,
its lifetime is used up, or its tokens are counted.  `Policy.Answer` lists them
with all that is known in each case, and `Policy.standing_eq_ok_iff` says that
there is no other.
-/

/-- A history in order of time between the start of its pool and the instant of a query. -/
structure Orderly
    (start now : Instant)
    (history : List Instant) :
    Prop where
  started : start ≤ now
  sorted : history.Pairwise (· ≤ ·)
  within : ∀ played ∈ history, start ≤ played ∧ played ≤ now

namespace Orderly

variable
    {start now played : Instant}
    {history : List Instant}

theorem until_later
    (orderly : Orderly start now history)
    {later : Instant}
    (ordered : now ≤ later) :
    Orderly start later history where
  started :=
    le_trans orderly.started ordered
  sorted :=
    orderly.sorted
  within member memberIn :=
    ⟨(orderly.within member memberIn).1,
      le_trans (orderly.within member memberIn).2 ordered⟩

theorem last_within
    (orderly : Orderly start now (history ++ [played])) :
    start ≤ played ∧ played ≤ now :=
  orderly.within played (by simp)

theorem before_last
    (orderly : Orderly start now (history ++ [played])) :
    Orderly start played history := by
  obtain ⟨earlierSorted, -, beforeLast⟩ :=
    List.pairwise_append.mp orderly.sorted
  refine ⟨orderly.last_within.1, earlierSorted, ?_⟩
  intro earlier member
  exact ⟨(orderly.within earlier (by simp [member])).1,
    beforeLast earlier member played (by simp)⟩

/-- A play at the instant of the query keeps the history in order. -/
theorem concat
    (orderly : Orderly start now history) :
    Orderly start now (history ++ [now]) where
  started :=
    orderly.started
  sorted := by
    rw [List.pairwise_append]
    refine ⟨orderly.sorted, by simp, ?_⟩
    intro earlier member last isLast
    rw [List.mem_singleton.mp isLast]
    exact (orderly.within earlier member).2
  within := by
    intro member memberIn
    rcases List.mem_append.mp memberIn with inHistory | isLast
    · exact orderly.within member inHistory
    · rw [List.mem_singleton.mp isLast]
      exact ⟨orderly.started, le_refl now⟩

/-- A part of a history in order is in order. -/
theorem part
    {chosen : List Instant}
    (orderly : Orderly start now history)
    (isPart : chosen.Sublist history) :
    Orderly start now chosen where
  started :=
    orderly.started
  sorted :=
    orderly.sorted.sublist isPart
  within played member :=
    orderly.within played (isPart.subset member)

end Orderly

/-- The scan of a history finds no fault when its plays are in range and in order. -/
theorem historyFault?_eq_none_iff
    {start now previous : Instant}
    {index : Nat}
    {history : List Instant} :
    historyFault? start now index previous history = none ↔
      (previous :: history).Pairwise (· ≤ ·) ∧
        ∀ played ∈ history, start ≤ played ∧ played ≤ now := by
  induction history generalizing index previous with
  | nil =>
      simp [historyFault?]
  | cons played later inductionHypothesis =>
      simp only [historyFault?]
      by_cases early : played < start
      · rw [if_pos early]
        have outside : ¬ start ≤ played := not_le.mpr early
        simp [outside]
      · rw [if_neg early]
        by_cases late : now < played
        · rw [if_pos late]
          have outside : ¬ played ≤ now := not_le.mpr late
          simp [outside]
        · rw [if_neg late]
          by_cases backwards : played < previous
          · rw [if_pos backwards]
            have outOfOrder : ¬ previous ≤ played := not_le.mpr backwards
            simp [outOfOrder]
          · rw [if_neg backwards, inductionHypothesis]
            have step : previous ≤ played := not_lt.mp backwards
            constructor
            · rintro ⟨sorted, within⟩
              refine ⟨List.pairwise_cons.mpr ⟨?_, sorted⟩, ?_⟩
              · intro other member
                rcases List.mem_cons.mp member with rfl | inLater
                · exact step
                · exact le_trans step ((List.pairwise_cons.mp sorted).1 other inLater)
              · intro other member
                rcases List.mem_cons.mp member with rfl | inLater
                · exact ⟨not_lt.mp early, not_lt.mp late⟩
                · exact within other inLater
            · rintro ⟨sorted, within⟩
              exact ⟨(List.pairwise_cons.mp sorted).2,
                fun other member => within other (List.mem_cons_of_mem _ member)⟩

/-- A query about a history is at fault unless the history is in order. -/
theorem timelineFault?_eq_none_iff
    {start now : Instant}
    {history : List Instant} :
    timelineFault? start now history = none ↔ Orderly start now history := by
  simp only [timelineFault?]
  by_cases early : now < start
  · rw [if_pos early]
    have notStarted : ¬ start ≤ now := not_le.mpr early
    constructor
    · intro impossible
      contradiction
    · intro orderly
      exact (notStarted orderly.started).elim
  · rw [if_neg early, historyFault?_eq_none_iff]
    constructor
    · rintro ⟨sorted, within⟩
      exact ⟨not_lt.mp early, (List.pairwise_cons.mp sorted).2, within⟩
    · intro orderly
      exact ⟨List.pairwise_cons.mpr
          ⟨fun other member => (orderly.within other member).1, orderly.sorted⟩,
        orderly.within⟩

namespace Policy

/-- The ways in which a pool answers a query, with what holds in each. -/
inductive Answer
    (policy : Policy)
    (start : Instant)
    (history : List Instant)
    (now : Instant) :
    Standing → Prop where
  /-- The pool hands out no tokens. -/
  | disabled
      (off : policy.initial = none) :
      Answer policy start history now .nothing
  /-- The pool never runs out. -/
  | infinite
      {initial : UInt32}
      {cooldownEnd : Option Instant}
      (enabled : policy.initial = some initial)
      (orderly : Orderly start now history)
      (cooling : policy.cooldownEnd history now = .ok cooldownEnd)
      (endless : policy.isInfinite = true) :
      Answer policy start history now
        { count := .infinite, nextGrowth := none, cooldownEnd }
  /-- The lifetime of the pool is used up. -/
  | exhausted
      {initial : UInt32}
      {cooldownEnd : Option Instant}
      (enabled : policy.initial = some initial)
      (orderly : Orderly start now history)
      (cooling : policy.cooldownEnd history now = .ok cooldownEnd)
      (finite : policy.isInfinite = false)
      (usedUp : policy.isExhausted history.length = true) :
      Answer policy start history now .nothing
  /-- The tokens of the pool are counted. -/
  | counted
      {initial : UInt32}
      {cooldownEnd nextGrowth : Option Instant}
      {balance : Int}
      (enabled : policy.initial = some initial)
      (orderly : Orderly start now history)
      (cooling : policy.cooldownEnd history now = .ok cooldownEnd)
      (finite : policy.isInfinite = false)
      (left : policy.isExhausted history.length = false)
      (replayed :
        policy.replay (Clock.ofPolicy start policy) now initial.toNat start history = balance)
      (growing :
        policy.nextGrowth (Clock.ofPolicy start policy) now balance = .ok nextGrowth) :
      Answer policy start history now
        { count :=
            .ofBalance (policy.withinLifetime history.length balance nextGrowth).1
          nextGrowth :=
            (policy.withinLifetime history.length balance nextGrowth).2
          cooldownEnd }

variable
    {policy : Policy}
    {start now : Instant}
    {history : List Instant}
    {standing : Standing}

/-- The answers are exactly the standings that a pool has. -/
theorem standing_eq_ok_iff :
    policy.standing start history now = .ok standing ↔
      policy.Answer start history now standing := by
  constructor
  · intro answered
    simp only [Policy.standing] at answered
    split at answered
    · next off =>
        cases answered
        exact .disabled off
    · next initial enabled =>
        split at answered
        · contradiction
        · next noFault =>
            have orderly := timelineFault?_eq_none_iff.mp noFault
            simp only [standingFrom, bind, Except.bind] at answered
            split at answered
            · contradiction
            · next cooldownEnd cooling =>
                split at answered
                · next endless =>
                    cases answered
                    exact .infinite enabled orderly cooling endless
                · next notEndless =>
                    have finite : policy.isInfinite = false := by
                      simpa using notEndless
                    split at answered
                    · next usedUp =>
                        cases answered
                        exact .exhausted enabled orderly cooling finite usedUp
                    · next notUsedUp =>
                        have left : policy.isExhausted history.length = false := by
                          simpa using notUsedUp
                        split at answered
                        · contradiction
                        · next nextGrowth growing =>
                            cases answered
                            exact .counted enabled orderly cooling finite left rfl growing
  · intro answer
    cases answer with
    | disabled off =>
        simp [Policy.standing, off]
    | infinite enabled orderly cooling endless =>
        simp [Policy.standing, enabled, timelineFault?_eq_none_iff.mpr orderly, standingFrom,
          cooling, endless, bind, Except.bind, pure, Except.pure]
    | exhausted enabled orderly cooling finite usedUp =>
        simp [Policy.standing, enabled, timelineFault?_eq_none_iff.mpr orderly, standingFrom,
          cooling, finite, usedUp, bind, Except.bind, pure, Except.pure]
    | counted enabled orderly cooling finite left replayed growing =>
        subst replayed
        simp [Policy.standing, enabled, timelineFault?_eq_none_iff.mpr orderly, standingFrom,
          cooling, finite, left, growing, bind, Except.bind, pure, Except.pure]

/-- An enabled pool only answers about a history in order. -/
theorem orderly_of_standing
    {initial : UInt32}
    (enabled : policy.initial = some initial)
    (answered : policy.standing start history now = .ok standing) :
    Orderly start now history := by
  cases standing_eq_ok_iff.mp answered with
  | disabled off =>
      rw [enabled] at off
      contradiction
  | infinite _ orderly _ _ =>
      exact orderly
  | exhausted _ orderly _ _ _ =>
      exact orderly
  | counted _ orderly _ _ _ _ _ =>
      exact orderly

/-- The count of a pool that does not count its tokens: it is closed, or it never runs out. -/
def fixedCount?
    (policy : Policy)
    (played : Nat) :
    Option TokenCount :=
  if !policy.isEnabled then
    some (.finite 0)
  else if policy.isInfinite then
    some .infinite
  else if policy.isExhausted played then
    some (.finite 0)
  else
    none

theorem fixedCount?_eq_none_iff
    {played : Nat} :
    policy.fixedCount? played = none ↔
      policy.isEnabled = true ∧
        policy.isInfinite = false ∧
        policy.isExhausted played = false := by
  simp only [fixedCount?]
  cases policy.isEnabled <;> cases policy.isInfinite <;> cases policy.isExhausted played <;> simp

/-- A pool that does not count its tokens has the same count at all times. -/
theorem count_of_fixedCount?
    {count : TokenCount}
    (fixed : policy.fixedCount? history.length = some count)
    (answered : policy.standing start history now = .ok standing) :
    standing.count = count ∧ standing.nextGrowth = none := by
  cases standing_eq_ok_iff.mp answered with
  | disabled off =>
      obtain rfl : .finite 0 = count := by
        simpa [fixedCount?, isEnabled, off] using fixed
      exact ⟨rfl, rfl⟩
  | infinite enabled orderly cooling endless =>
      obtain rfl : .infinite = count := by
        simpa [fixedCount?, isEnabled, enabled, endless] using fixed
      exact ⟨rfl, rfl⟩
  | exhausted enabled orderly cooling finite usedUp =>
      obtain rfl : .finite 0 = count := by
        simpa [fixedCount?, isEnabled, enabled, finite, usedUp] using fixed
      exact ⟨rfl, rfl⟩
  | counted enabled orderly cooling finite left replayed growing =>
      simp [fixedCount?, isEnabled, enabled, finite, left] at fixed

end Policy

/-- Contest pool and task pool answer together when each of them answers. -/
theorem jointStanding_eq_ok_iff
    {contest task : Policy}
    {start now : Instant}
    {contestHistory taskHistory : List Instant}
    {standing : Standing} :
    jointStanding contest task start contestHistory taskHistory now = .ok standing ↔
      ∃ contestStanding taskStanding,
        contest.standing start contestHistory now = .ok contestStanding ∧
          task.standing start taskHistory now = .ok taskStanding ∧
          standing = contestStanding.meet taskStanding := by
  simp only [jointStanding, bind, Except.bind, pure, Except.pure]
  constructor
  · intro answered
    split at answered
    · contradiction
    · next contestStanding contestAnswered =>
        split at answered
        · contradiction
        · next taskStanding taskAnswered =>
            cases answered
            exact ⟨contestStanding, taskStanding, contestAnswered, taskAnswered, rfl⟩
  · rintro ⟨contestStanding, taskStanding, contestAnswered, taskAnswered, rfl⟩
    rw [contestAnswered, taskAnswered]

end TokenBudget
