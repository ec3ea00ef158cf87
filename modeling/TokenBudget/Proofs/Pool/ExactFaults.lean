import Mathlib.Data.List.Basic
import TokenBudget.Proofs.Pool.Growth
import TokenBudget.Proofs.Pool.Reach

namespace TokenBudget

/-!
# The faults of a pool, exactly

Outside leap seconds the faults of a pool are told by its rules alone: the query
comes before the start; or a first play lies before the start, after the query or
before its predecessor; or else the answer would name an instant after the last
one, the end of the cooldown or the next boundary of a pool that can still grow.
`Policy.Fails` lists them in plain sums over the timeline and the exact balance,
and `Policy.standing_fails_iff` says that a pool has a standing in all other cases.
-/

/-!
## The first play out of place
-/

section

variable
    {start now previous : Instant}
    {earlier : List Instant}

/-- The scan passes over plays that are in order. -/
theorem historyFault?_append
    (sorted : (previous :: earlier).Pairwise (· ≤ ·))
    (within : ∀ played ∈ earlier, start ≤ played ∧ played ≤ now)
    (index : Nat)
    (rest : List Instant) :
    historyFault? start now index previous (earlier ++ rest) =
      historyFault? start now (index + earlier.length) (earlier.getLast?.getD previous) rest := by
  induction earlier generalizing index previous with
  | nil =>
      rfl
  | cons played later inductionHypothesis =>
      obtain ⟨before, laterSorted⟩ := List.pairwise_cons.mp sorted
      obtain ⟨⟨started, past⟩, laterWithin⟩ := List.forall_mem_cons.mp within
      have notBackwards := before played List.mem_cons_self
      have last : (played :: later).getLast?.getD previous = later.getLast?.getD played := by
        rw [List.getLast?_cons, Option.getD_some]
      rw [List.cons_append, historyFault?, if_neg (not_lt.mpr started), if_neg (not_lt.mpr past),
        if_neg (not_lt.mpr notBackwards), inductionHypothesis laterSorted laterWithin, last,
        List.length_cons, Nat.add_right_comm, Nat.add_assoc]

/-- After plays in order the scan goes on with the last of them. -/
theorem Orderly.historyFault?_append
    (orderly : Orderly start now earlier)
    (rest : List Instant) :
    historyFault? start now 0 start (earlier ++ rest) =
      historyFault? start now earlier.length (earlier.getLast?.getD start) rest := by
  have sorted : (start :: earlier).Pairwise (· ≤ ·) :=
    List.pairwise_cons.mpr
      ⟨fun played member => (orderly.within played member).1, orderly.sorted⟩
  rw [TokenBudget.historyFault?_append sorted orderly.within, Nat.zero_add]

end

/--
Plays in order are followed by one that is not, and the fault is told of that one:
a play before the start first, then one after the query, then one before its
predecessor.
-/
inductive FirstMisplaced
    (start now : Instant)
    (history : List Instant) :
    Fault → Prop
  | beforeStart
      {earlier later : List Instant}
      {played : Instant}
      (shape : history = earlier ++ played :: later)
      (orderly : Orderly start now earlier)
      (early : played < start) :
      FirstMisplaced start now history (.playBeforeStart played start)
  | afterQuery
      {earlier later : List Instant}
      {played : Instant}
      (shape : history = earlier ++ played :: later)
      (orderly : Orderly start now earlier)
      (notEarly : start ≤ played)
      (late : now < played) :
      FirstMisplaced start now history (.playAfterQuery played now)
  | unsorted
      {earlier later : List Instant}
      {previous played : Instant}
      (shape : history = earlier ++ previous :: played :: later)
      (orderly : Orderly start now (earlier ++ [previous]))
      (notEarly : start ≤ played)
      (notLate : played ≤ now)
      (backwards : played < previous) :
      FirstMisplaced start now history (.historyUnsorted (earlier.length + 1))

section

variable
    {start now : Instant}
    {earlier history : List Instant}
    {fault : Fault}

/-- A play that gives the scan no fault can follow plays in order. -/
theorem Orderly.concat_of_historyFault?
    {played : Instant}
    (orderly : Orderly start now earlier)
    (noFault :
      TokenBudget.historyFault? start now earlier.length (earlier.getLast?.getD start) [played] =
        none) :
    Orderly start now (earlier ++ [played]) := by
  rw [← timelineFault?_eq_none_iff, timelineFault?, if_neg (not_lt.mpr orderly.started),
    orderly.historyFault?_append]
  exact noFault

/-- After plays in order the scan finds the first that is out of place. -/
theorem Orderly.firstMisplaced
    (orderly : Orderly start now earlier)
    (rest : List Instant)
    (found :
      TokenBudget.historyFault? start now earlier.length (earlier.getLast?.getD start) rest =
        some fault) :
    FirstMisplaced start now (earlier ++ rest) fault := by
  -- The plays passed over are in order, and the scan goes on behind the last of them.
  induction rest generalizing earlier with
  | nil =>
      simp [TokenBudget.historyFault?] at found
  | cons played later inductionHypothesis =>
      have passed := @Orderly.concat_of_historyFault? start now earlier played orderly
      simp only [TokenBudget.historyFault?] at found passed
      by_cases early : played < start
      · rw [if_pos early] at found
        obtain rfl := Option.some.inj found
        exact .beforeStart rfl orderly early
      · rw [if_neg early] at found passed
        by_cases late : now < played
        · rw [if_pos late] at found
          obtain rfl := Option.some.inj found
          exact .afterQuery rfl orderly (not_lt.mp early) late
        · rw [if_neg late] at found passed
          by_cases backwards : played < earlier.getLast?.getD start
          · rw [if_pos backwards] at found
            obtain rfl := Option.some.inj found
            rcases List.eq_nil_or_concat' earlier with rfl | ⟨before, previous, rfl⟩
            · exact absurd backwards early
            · rw [List.getLast?_concat, Option.getD_some] at backwards
              rw [List.length_append, List.length_singleton]
              exact .unsorted (List.append_assoc before [previous] _) orderly (not_lt.mp early)
                (not_lt.mp late) backwards
          · rw [if_neg backwards] at found passed
            have longer : (earlier ++ [played]).length = earlier.length + 1 :=
              List.length_append
            have rest :=
              inductionHypothesis (passed rfl) (by
                rw [List.getLast?_concat, Option.getD_some, longer]
                exact found)
            rwa [List.append_assoc] at rest

/-- The scan of a history tells the fault of the first play out of place. -/
theorem historyFault?_eq_some_iff
    (started : start ≤ now) :
    historyFault? start now 0 start history = some fault ↔
      FirstMisplaced start now history fault := by
  constructor
  · intro found
    have none : Orderly start now [] :=
      ⟨started, List.Pairwise.nil, by simp⟩
    exact none.firstMisplaced history found
  · intro misplaced
    cases misplaced with
    | beforeStart shape orderly early =>
        rw [shape, orderly.historyFault?_append, historyFault?, if_pos early]
    | afterQuery shape orderly notEarly late =>
        rw [shape, orderly.historyFault?_append, historyFault?, if_neg (not_lt.mpr notEarly),
          if_pos late]
    | @unsorted before after previous played shape orderly notEarly notLate backwards =>
        have grouped : history = (before ++ [previous]) ++ played :: after := by
          rw [shape, List.append_assoc, List.singleton_append]
        rw [grouped, orderly.historyFault?_append, historyFault?, if_neg (not_lt.mpr notEarly),
          if_neg (not_lt.mpr notLate), List.getLast?_concat, Option.getD_some, if_pos backwards,
          List.length_append, List.length_singleton]

/-- A query about a history is at fault for coming early, or for the first play out of place. -/
theorem timelineFault?_eq_some_iff :
    timelineFault? start now history = some fault ↔
      now < start ∧ fault = .queryBeforeStart start now ∨
        start ≤ now ∧ FirstMisplaced start now history fault := by
  by_cases early : now < start
  · simp [timelineFault?, early, eq_comm]
  · have started := not_lt.mp early
    rw [timelineFault?, if_neg early, historyFault?_eq_some_iff started]
    simp [early, started]

end

/-!
## The next boundary on the timeline
-/

/-- The first place after the query that lies a number of whole periods after the start. -/
structure Policy.IsNextBoundary
    (policy : Policy)
    (start now : Instant)
    (place : Int) :
    Prop where
  onBoundary : ∃ index : Nat, place = start.timeline + (index + 1) * policy.period.toNanos
  ahead : now.timeline < place
  first :
    ∀ index : Nat,
      now.timeline < start.timeline + (index + 1) * policy.period.toNanos →
      place ≤ start.timeline + (index + 1) * policy.period.toNanos

namespace Policy

section

variable
    {policy : Policy}
    {start now : Instant}

theorem IsNextBoundary.unique
    {first second : Int}
    (firstNext : policy.IsNextBoundary start now first)
    (secondNext : policy.IsNextBoundary start now second) :
    first = second := by
  obtain ⟨firstIndex, rfl⟩ := firstNext.onBoundary
  obtain ⟨secondIndex, rfl⟩ := secondNext.onBoundary
  exact Int.le_antisymm (firstNext.first _ secondNext.ahead)
    (secondNext.first _ firstNext.ahead)

variable
    (startPlain : start.isLeap = false)
    (nowPlain : now.isLeap = false)
    (started : start ≤ now)
    (periodic : 0 < policy.period.toNanos)

include startPlain nowPlain started periodic

/-- The clock of a pool finds the next boundary. -/
theorem isNextBoundary_nextPlace :
    policy.IsNextBoundary start now ((Clock.ofPolicy start policy).nextPlace now) := by
  have clockPlain := Clock.plain_ofPolicy startPlain policy
  have clockPeriod : (Clock.ofPolicy start policy).period = policy.period.toNanos := by
    rw [Clock.period_ofPolicy, if_pos periodic]
  have clockStart := Clock.start_ofPolicy start policy
  generalize Clock.ofPolicy start policy = clock at clockPlain clockPeriod clockStart
  subst clockStart
  constructor
  case onBoundary =>
    refine ⟨(clock.periods now).toNat, ?_⟩
    rw [Clock.nextPlace_eq_boundaryPlace clockPlain,
      Int.toNat_of_nonneg (Clock.periods_nonneg clockPlain nowPlain started), ← clockPeriod]
    rfl
  case ahead =>
    exact Clock.lt_nextPlace clockPlain nowPlain
  case first =>
    intro index isAhead
    rw [← clockPeriod] at isAhead ⊢
    exact Clock.nextPlace_le_boundaryPlace clockPlain nowPlain isAhead

/-- The next boundary is missing exactly when it lies after the last instant. -/
theorem nextBoundary?_eq_none_iff :
    (Clock.ofPolicy start policy).nextBoundary? now = none ↔
      ∃ place, policy.IsNextBoundary start now place ∧ Instant.lastPlace < place := by
  have next := isNextBoundary_nextPlace startPlain nowPlain started periodic
  have clockPlain := Clock.plain_ofPolicy startPlain policy
  have forwards :
      (Clock.ofPolicy start policy).start.settledPlace ≤
        (Clock.ofPolicy start policy).nextPlace now :=
    Clock.settledPlace_le_nextPlace_of_plain clockPlain nowPlain
      ((Clock.start_ofPolicy start policy).symm ▸ started)
  rw [Clock.nextBoundary?_eq_none_iff_of_forwards forwards
    (Clock.period_ofPolicy_le_longest start policy)]
  constructor
  · intro beyond
    exact ⟨_, next, beyond⟩
  · rintro ⟨place, isNext, beyond⟩
    rw [isNext.unique next] at beyond
    exact beyond

end

/-!
## The faults of a pool
-/

/-- What is wrong when an enabled pool gives no standing. -/
inductive Fails
    (policy : Policy)
    (initial : UInt32)
    (start : Instant)
    (history : List Instant)
    (now : Instant) :
    Fault → Prop
  /-- The query comes before the start. -/
  | earlyQuery
      (early : now < start) :
      policy.Fails initial start history now (.queryBeforeStart start now)
  /-- A play is out of place. -/
  | misplaced
      {fault : Fault}
      (started : start ≤ now)
      (first : FirstMisplaced start now history fault) :
      policy.Fails initial start history now fault
  /-- The cooldown after the last play ends after the last instant. -/
  | longCooldown
      {last : Instant}
      (orderly : Orderly start now history)
      (isLast : history.getLast? = some last)
      (beyond : Instant.lastPlace < last.timeline + policy.cooldown.toNanos) :
      policy.Fails initial start history now .outOfRange
  /-- There is room for tokens to come, but the next boundary is after the last instant. -/
  | lateGrowth
      {place : Int}
      (orderly : Orderly start now history)
      (finite : policy.isInfinite = false)
      (left : policy.isExhausted history.length = false)
      (generates : 0 < policy.perPeriod)
      (room :
        ∀ cap,
          policy.cap = some cap →
          policy.exactBalance initial start history now < cap.toNat)
      (next : policy.IsNextBoundary start now place)
      (beyond : Instant.lastPlace < place) :
      policy.Fails initial start history now .outOfRange

section

variable
    {policy : Policy}
    {initial : UInt32}
    {start now : Instant}
    {history : List Instant}
    (startPlain : start.isLeap = false)
    (nowPlain : now.isLeap = false)
    (playsPlain : ∀ played ∈ history, played.isLeap = false)
    (few : history.length < 2 ^ 59)

/-- A pool that generates tokens and can run out has periods that take time. -/
theorem period_pos_of_finite
    (enabled : policy.initial = some initial)
    (finite : policy.isInfinite = false)
    (generates : 0 < policy.perPeriod) :
    0 < policy.period.toNanos := by
  rw [Nat.pos_iff_ne_zero]
  intro noLength
  simp [isInfinite, isEnabled, enabled, generates, noLength] at finite

include startPlain nowPlain playsPlain few

/-- The replayed balance leaves room below the cap exactly when the exact balance does. -/
theorem isSaturated_replay_eq_false_iff
    (enabled : policy.initial = some initial)
    (finite : policy.isInfinite = false)
    (orderly : Orderly start now history) :
    policy.isSaturated
          (policy.replay (Clock.ofPolicy start policy) now initial.toNat start history) =
        false ↔
      ∀ cap,
        policy.cap = some cap →
        policy.exactBalance initial start history now < cap.toNat := by
  have agrees :=
    agrees_replay enabled finite startPlain nowPlain playsPlain orderly (Nat.le_of_lt few)
  have sameRoom (cap : UInt32) :
      policy.replay (Clock.ofPolicy start policy) now initial.toNat start history < cap.toNat ↔
        policy.exactBalance initial start history now < cap.toNat :=
    agrees.lt_iff (Nat.le_of_lt few) (by exact_mod_cast cap.toNat_lt)
  simp only [isSaturated_eq_false_iff, sameRoom]

/-- An enabled pool with its plays in order fails exactly for an instant that there is not. -/
theorem outOfReach_iff_fails
    (enabled : policy.initial = some initial)
    (orderly : Orderly start now history) :
    policy.OutOfReach initial start history now ↔
      policy.Fails initial start history now .outOfRange := by
  have noEnd {last : Instant} (isLast : history.getLast? = some last) :
      last.shift? policy.cooldown.toNanos = none ↔
        Instant.lastPlace < last.timeline + policy.cooldown.toNanos := by
    rw [Instant.shift?_eq_none_iff (Int.natCast_nonneg _),
      Instant.settledPlace_of_not_leap (playsPlain last (List.mem_of_getLast? isLast))]
  have room (finite : policy.isInfinite = false) :=
    isSaturated_replay_eq_false_iff startPlain nowPlain playsPlain few enabled finite orderly
  have noBoundary (finite : policy.isInfinite = false) (generates : 0 < policy.perPeriod) :=
    nextBoundary?_eq_none_iff startPlain nowPlain orderly.started
      (period_pos_of_finite enabled finite generates)
  constructor
  · intro outOfReach
    cases outOfReach with
    | cooldown isLast missing =>
        exact .longCooldown orderly isLast ((noEnd isLast).mp missing)
    | growth finite left generates notFull missing =>
        obtain ⟨place, next, beyond⟩ := (noBoundary finite generates).mp missing
        exact .lateGrowth orderly finite left generates ((room finite).mp notFull) next beyond
  · intro fails
    cases fails with
    | misplaced started first =>
        nomatch first
    | longCooldown _ isLast beyond =>
        exact .cooldown isLast ((noEnd isLast).mpr beyond)
    | lateGrowth _ finite left generates notFull next beyond =>
        exact .growth finite left generates ((room finite).mpr notFull)
          ((noBoundary finite generates).mpr ⟨_, next, beyond⟩)

/-- Outside leap seconds an enabled pool has exactly the faults that its rules tell. -/
theorem standing_eq_error_iff_fails
    {fault : Fault}
    (enabled : policy.initial = some initial) :
    policy.standing start history now = .error fault ↔
      policy.Fails initial start history now fault := by
  rw [standing_eq_error_iff enabled, timelineFault?_eq_some_iff]
  constructor
  · rintro ((⟨early, rfl⟩ | ⟨started, first⟩) | ⟨orderly, rfl, outOfReach⟩)
    · exact .earlyQuery early
    · exact .misplaced started first
    · exact (outOfReach_iff_fails startPlain nowPlain playsPlain few enabled orderly).mp outOfReach
  · intro fails
    have sameReach := outOfReach_iff_fails startPlain nowPlain playsPlain few enabled
    cases fails with
    | earlyQuery early =>
        exact .inl (.inl ⟨early, rfl⟩)
    | misplaced started first =>
        exact .inl (.inr ⟨started, first⟩)
    | longCooldown orderly isLast beyond =>
        exact .inr ⟨orderly, rfl, (sameReach orderly).mpr (.longCooldown orderly isLast beyond)⟩
    | lateGrowth orderly finite left generates room next beyond =>
        exact .inr ⟨orderly, rfl,
          (sameReach orderly).mpr (.lateGrowth orderly finite left generates room next beyond)⟩

/--
A disabled pool always has a standing, an empty one.  An enabled pool has exactly
the faults of `Policy.Fails`, and a standing in all other cases.
-/
theorem standing_fails_iff :
    (policy.initial = none → policy.standing start history now = .ok .nothing) ∧
      ∀ initial,
        policy.initial = some initial →
        (∀ fault,
            policy.standing start history now = .error fault ↔
              policy.Fails initial start history now fault) ∧
          ((∃ standing, policy.standing start history now = .ok standing) ↔
            ∀ fault, ¬ policy.Fails initial start history now fault) := by
  constructor
  · intro disabled
    rw [standing, disabled]
  · intro initial enabled
    have faults (fault : Fault) :
        policy.standing start history now = .error fault ↔
          policy.Fails initial start history now fault :=
      standing_eq_error_iff_fails startPlain nowPlain playsPlain few enabled
    refine ⟨faults, ?_⟩
    simp only [← faults]
    cases policy.standing start history now with
    | ok standing =>
        simp
    | error fault =>
        simp

end

/-- An endless pool with the longest of all cooldowns. -/
def longestCooldown : Policy :=
  { infinite with
    cooldown := .ofSeconds 18446744073709551615 }

/-- Even an endless pool fails when a cooldown outlasts all instants. -/
theorem standing_fails_iff_longestCooldown :
    (Instant.onDayZero 0).isLeap = false ∧
      (Instant.onDayZero 9).isLeap = false ∧
      (∀ played ∈ [Instant.onDayZero 5], played.isLeap = false) ∧
      [Instant.onDayZero 5].length < 2 ^ 59 ∧
      longestCooldown.initial = some 0 ∧
      longestCooldown.standing (.onDayZero 0) [.onDayZero 5] (.onDayZero 9) =
        .error .outOfRange := by
  have startPlain : (Instant.onDayZero 0).isLeap = false := by
    decide
  have nowPlain : (Instant.onDayZero 9).isLeap = false := by
    decide
  have playsPlain : ∀ played ∈ [Instant.onDayZero 5], played.isLeap = false := by
    decide
  have orderly : Orderly (.onDayZero 0) (.onDayZero 9) [.onDayZero 5] :=
    timelineFault?_eq_none_iff.mp (by decide)
  have fails :
      longestCooldown.Fails 0 (.onDayZero 0) [.onDayZero 5] (.onDayZero 9) .outOfRange :=
    .longCooldown orderly rfl (by decide)
  have exactly :=
    @standing_fails_iff longestCooldown _ _ _ startPlain nowPlain playsPlain (by decide)
  exact ⟨startPlain, nowPlain, playsPlain, by decide, rfl,
    ((exactly.2 0 rfl).1 .outOfRange).mpr fails⟩

end Policy

end TokenBudget
