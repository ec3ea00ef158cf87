import TokenBudget.Proofs.Contest.Requests
import TokenBudget.Proofs.Pool.Spending

namespace TokenBudget

/-!
# Lifetimes and the order of requests

A request is checked against the plays up to its own instant only, so a request
at an earlier instant does not see plays that are already recorded at later
ones.  `SeenWithin` is what the lifetime of a pool then still guarantees: every
play was recorded while fewer plays than the lifetime were seen.  Plays in order
of time are within the lifetime, and so is every part of the plays that is in
order of time: `Ledger.lifetimes_keptInOrder`.  All plays together exceed a
lifetime exactly when a play goes back in time while the lifetime is used up, as
in `Ledger.lifetime_exceeded_by_earlierRequest`.
-/

/-- Each play was recorded after fewer plays up to its instant than a lifetime allows. -/
def SeenWithin
    (lifetime : Nat)
    (plays : List Play) :
    Prop :=
  AtEach
    (fun earlier play =>
      (earlier.countP fun other => decide (other.instant ≤ play.instant)) < lifetime)
    plays

/-- A play sees all plays that are not after it. -/
theorem countP_eq_length_of_past
    {plays : List Play}
    {now : Instant}
    (past : ∀ play ∈ plays, play.instant ≤ now) :
    (plays.countP fun play => decide (play.instant ≤ now)) = plays.length := by
  rw [List.countP_eq_length]
  intro play member
  exact decide_eq_true (past play member)

namespace SeenWithin

/-- A part of the plays that is in order of time is within the lifetime. -/
theorem length_le
    {lifetime : Nat}
    {plays chosen : List Play}
    (seenWithin : SeenWithin lifetime plays)
    (part : chosen.Sublist plays)
    (sorted : chosen.Pairwise fun earlier later => earlier.instant ≤ later.instant) :
    chosen.length ≤ lifetime := by
  cases chosen using List.reverseRecOn with
  | nil =>
      exact Nat.zero_le lifetime
  | append_singleton front last =>
      obtain ⟨before, rest, shape, frontPart, lastPart⟩ := List.append_sublist_iff.mp part
      obtain ⟨between, after, restShape⟩ :=
        List.append_of_mem (List.singleton_sublist.mp lastPart)
      have allSeen :=
        countP_eq_length_of_past
          fun other member => (List.pairwise_append.mp sorted).2.2 other member last (by simp)
      have frontBefore : front.Sublist (before ++ between) :=
        frontPart.trans (List.sublist_append_left before between)
      have fewer :=
        seenWithin (before ++ between) last after (by simp [shape, restShape])
      have counted :
          (front.countP fun other => decide (other.instant ≤ last.instant)) ≤
            (before ++ between).countP fun other => decide (other.instant ≤ last.instant) :=
        frontBefore.countP_le
      rw [List.length_append, List.length_singleton]
      omega

/-- A play recorded once the lifetime is used up lies before one that is already recorded. -/
theorem exists_later
    {lifetime : Nat}
    {plays earlier later : List Play}
    {play : Play}
    (seenWithin : SeenWithin lifetime plays)
    (shape : plays = earlier ++ play :: later)
    (usedUp : lifetime ≤ earlier.length) :
    ∃ other ∈ earlier, play.instant < other.instant := by
  by_contra noneLater
  have allSeen :=
    @countP_eq_length_of_past earlier play.instant
      fun other member => not_lt.mp fun overtaken => noneLater ⟨other, member, overtaken⟩
  have fewer := seenWithin earlier play later shape
  omega

end SeenWithin

/-- With the lifetime used up, a play was recorded that lies before one recorded earlier. -/
def WentBack
    (lifetime : Nat)
    (plays : List Play) :
    Prop :=
  ∃ earlier play later,
    plays = earlier ++ play :: later ∧
      lifetime ≤ earlier.length ∧
      ∃ other ∈ earlier, play.instant < other.instant

/-- The lifetime is exceeded when a play goes back in time while it is used up, and only then. -/
theorem SeenWithin.exceeded_iff
    {lifetime : Nat}
    {plays : List Play}
    (seenWithin : SeenWithin lifetime plays) :
    lifetime < plays.length ↔ WentBack lifetime plays := by
  constructor
  · intro exceeded
    have shape :
        plays =
          plays.take lifetime ++ plays[lifetime] :: plays.drop (lifetime + 1) := by
      rw [← List.drop_eq_getElem_cons exceeded, List.take_append_drop]
    have usedUp : lifetime ≤ (plays.take lifetime).length := by
      rw [List.length_take]
      omega
    exact ⟨_, _, _, shape, usedUp, seenWithin.exists_later shape usedUp⟩
  · rintro ⟨earlier, play, later, rfl, usedUp, -⟩
    rw [List.length_append, List.length_cons]
    omega

/-- What a lifetime guarantees of plays, in whatever order of time they are recorded. -/
structure KeptInOrder
    (lifetime : Nat)
    (plays : List Play) :
    Prop where
  /-- Each play was recorded after fewer plays up to its instant than the lifetime allows. -/
  seen : SeenWithin lifetime plays
  /-- Plays that come in order of time do not exceed the lifetime. -/
  inOrder :
    ∀ chosen : List Play,
      chosen.Sublist plays →
      (chosen.Pairwise fun earlier later => earlier.instant ≤ later.instant) →
      chosen.length ≤ lifetime
  /-- A play beyond the lifetime lies before one that was recorded earlier. -/
  beyond :
    ∀ earlier play later,
      plays = earlier ++ play :: later →
      lifetime ≤ earlier.length →
      ∃ other ∈ earlier, play.instant < other.instant
  /-- Only a play that goes back in time exceeds the lifetime. -/
  exceeded : lifetime < plays.length ↔ WentBack lifetime plays

theorem SeenWithin.keptInOrder
    {lifetime : Nat}
    {plays : List Play}
    (seenWithin : SeenWithin lifetime plays) :
    KeptInOrder lifetime plays where
  seen := seenWithin
  inOrder _ part sorted := seenWithin.length_le part sorted
  beyond _ _ _ shape usedUp := seenWithin.exists_later shape usedUp
  exceeded := seenWithin.exceeded_iff

namespace Policy

/-- The lifetime of a pool, if it has one, is more than each play saw. -/
def SeesWithin
    (policy : Policy)
    (plays : List Play) :
    Prop :=
  policy.isInfinite = false →
  ∀ lifetime,
    policy.lifetime = some lifetime →
    SeenWithin lifetime.toNat plays

theorem SeesWithin.concat
    {policy : Policy}
    {plays : List Play}
    {play : Play}
    (seesWithin : policy.SeesWithin plays)
    (seen :
      policy.isInfinite = false →
      ∀ lifetime,
        policy.lifetime = some lifetime →
        (plays.countP fun other => decide (other.instant ≤ play.instant)) <
          lifetime.toNat) :
    policy.SeesWithin (plays ++ [play]) := by
  intro finite lifetime limited
  exact atEach_concat.mpr
    ⟨seesWithin finite lifetime limited, seen finite lifetime limited⟩

end Policy

namespace Ledger

/-- Both pools see fewer plays than their lifetimes when they let a request through. -/
theorem Grants.seen
    {contest : Contest}
    {ledger : Ledger}
    {request : Request}
    {policy : Policy}
    {start : Instant}
    {standing : Standing}
    (granted : ledger.Grants contest request policy start standing) :
    (contest.pool.isInfinite = false →
        ∀ lifetime,
          contest.pool.lifetime = some lifetime →
          ((ledger.playsOf request.participation.name).countP
              fun play => decide (play.instant ≤ request.now)) <
            lifetime.toNat) ∧
      (policy.isInfinite = false →
        ∀ lifetime,
          policy.lifetime = some lifetime →
          ((Play.onTask request.task (ledger.playsOf request.participation.name)).countP
              fun play => decide (play.instant ≤ request.now)) <
            lifetime.toNat) := by
  obtain ⟨contestStanding, taskStanding, ⟨contestAnswered, contestCanPlay⟩,
    taskAnswered, taskCanPlay⟩ := granted.standings
  constructor
  · intro finite lifetime limited
    rw [← Contest.length_pastPlays]
    simpa [Play.instants] using
      Policy.length_lt_lifetime contestAnswered contestCanPlay finite limited
  · intro finite lifetime limited
    rw [← Contest.length_onTask_pastPlays]
    simpa [Play.instants] using
      Policy.length_lt_lifetime taskAnswered taskCanPlay finite limited

/-- Every play of a run was recorded while both its pools saw fewer plays than their lifetimes. -/
theorem seenWithin_serve
    (contest : Contest)
    (requests : List Request)
    (participant : String) :
    contest.pool.SeesWithin ((empty.serve contest requests).playsOf participant) ∧
      ∀ task policy,
        contest.tasks.find? task = some policy →
        policy.SeesWithin
          (Play.onTask task ((empty.serve contest requests).playsOf participant)) := by
  induction requests using List.reverseRecOn with
  | nil =>
      refine ⟨?_, ?_⟩
      · simp [serve, Policy.SeesWithin, SeenWithin]
      · simp [serve, Policy.SeesWithin, SeenWithin, Play.onTask]
  | append_singleton requests request inductionHypothesis =>
      rw [serve_concat]
      rcases playsOf_afterRequest_cases contest (empty.serve contest requests) request
          participant with
        ⟨own, recorded, policy, start, standing, granted⟩ | unchanged
      · obtain ⟨contestSeen, taskSeen⟩ := granted.seen
        obtain ⟨poolBefore, tasksBefore⟩ := inductionHypothesis
        rw [own] at contestSeen taskSeen
        rw [recorded]
        refine ⟨poolBefore.concat contestSeen, ?_⟩
        intro task taskPolicy known
        rw [Play.onTask_concat]
        by_cases onTask : request.play.task = task
        · rw [if_pos onTask]
          cases onTask
          cases granted.known.symm.trans known
          exact (tasksBefore request.task policy known).concat taskSeen
        · rw [if_neg onTask]
          exact tasksBefore task taskPolicy known
      · rw [unchanged]
        exact inductionHypothesis

/--
Whatever the order of the instants of requests, the plays of a run keep the
lifetimes of both pools as far as they come in order of time; a play beyond a
lifetime is one that went back in time.
-/
theorem lifetimes_keptInOrder
    (contest : Contest)
    (requests : List Request)
    (participant : String) :
    (∀ lifetime,
        contest.pool.isInfinite = false →
        contest.pool.lifetime = some lifetime →
        KeptInOrder lifetime.toNat
          ((empty.serve contest requests).playsOf participant)) ∧
      ∀ task policy lifetime,
        contest.tasks.find? task = some policy →
        policy.isInfinite = false →
        policy.lifetime = some lifetime →
        KeptInOrder lifetime.toNat
          (Play.onTask task ((empty.serve contest requests).playsOf participant)) := by
  obtain ⟨contestSees, tasksSee⟩ := seenWithin_serve contest requests participant
  constructor
  · intro lifetime finite limited
    exact (contestSees finite lifetime limited).keptInOrder
  · intro task policy lifetime known finite limited
    exact (tasksSee task policy known finite lifetime limited).keptInOrder

/-- A pool of five tokens, of which one may be spent. -/
def oncePool : Policy :=
  { Policy.disabled with
    initial := some 5
    lifetime := some 1 }

/-- A contest with one task, in which one token may be spent. -/
def onceContest : Contest :=
  (Contest.new
    { contestStart := .onDayZero 0
      personalTime := none }
    oncePool).addTask "sum" oncePool

/-- Two requests of which the second goes back in time. -/
def earlierRequest : List Request :=
  [⟨enrolled "ann", "sum", "first", .onDayZero 10⟩,
    ⟨enrolled "ann", "sum", "backdated", .onDayZero 5⟩]

/-- Going back in time, both requests are let through, and the lifetime is kept in order only. -/
theorem lifetimes_keptInOrder_earlierRequest :
    ((empty.serve onceContest earlierRequest).playsOf "ann").map Play.submission =
        ["first", "backdated"] ∧
      KeptInOrder 1 ((empty.serve onceContest earlierRequest).playsOf "ann") ∧
      KeptInOrder 1
        (Play.onTask "sum" ((empty.serve onceContest earlierRequest).playsOf "ann")) := by
  obtain ⟨contestKept, tasksKept⟩ :=
    lifetimes_keptInOrder onceContest earlierRequest "ann"
  exact ⟨by decide +kernel, contestKept 1 rfl rfl, tasksKept "sum" oncePool 1 rfl rfl rfl⟩

/-- A lifetime of one play does not hold back a request that goes back in time. -/
theorem lifetime_exceeded_by_earlierRequest :
    oncePool.isEnabled = true ∧
      oncePool.isInfinite = false ∧
      oncePool.lifetime = some 1 ∧
      onceContest.pool = oncePool ∧
      onceContest.tasks.find? "sum" = some oncePool ∧
      ((empty.serve onceContest earlierRequest).playsOf "ann").length = 2 ∧
      (Play.onTask "sum" ((empty.serve onceContest earlierRequest).playsOf "ann")).length =
        2 :=
  ⟨rfl, rfl, rfl, rfl, rfl, by decide +kernel, by decide +kernel⟩

end Ledger

end TokenBudget
