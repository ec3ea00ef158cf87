import TokenBudget.Proofs.Contest.PastPlays
import TokenBudget.Proofs.Pool.ExactCount
import TokenBudget.Proofs.Pool.ExtraPlay

namespace TokenBudget

/-!
# What one more play costs

A play may count in one pool, in both or in none, and may lie anywhere between the
others.  Each pool then sees at most one more play, so its count changes by at most
one token, and so does the smaller of the two counts:
`Contest.withinOne_insert`.
-/

namespace Policy

/-- A pool that sees at most one more play has a count within one. -/
theorem withinOne_of_oneMore
    {policy : Policy}
    {start now : Instant}
    {historyWithout historyMore : List Instant}
    {without more : Standing}
    (oneMore : OneMore historyWithout historyMore)
    (startPlain : start.isLeap = false)
    (nowPlain : now.isLeap = false)
    (playsPlain : ∀ played ∈ historyMore, played.isLeap = false)
    (few : historyWithout.length < 2 ^ 59)
    (answeredWithout : policy.standing start historyWithout now = .ok without)
    (answeredMore : policy.standing start historyMore now = .ok more) :
    TokenCount.WithinOne without.count more.count := by
  rcases oneMore with rfl | ⟨earlier, played, later, rfl, rfl⟩
  · rw [answeredWithout] at answeredMore
    cases answeredMore
    exact .refl _
  · exact withinOne_count startPlain nowPlain playsPlain few answeredWithout answeredMore

end Policy

namespace Contest

section

variable
    {counts : Play → Bool}
    {plays : List Play}
    {now : Instant}

theorem instants_past_plain
    (plain : ∀ play ∈ plays, play.instant.isLeap = false) :
    ∀ played ∈ Play.instants ((pastPlays plays now).filter counts), played.isLeap = false := by
  intro played member
  obtain ⟨play, seen, rfl⟩ := List.mem_map.mp member
  exact plain play (mem_pastPlays.mp (List.mem_filter.mp seen).1).1

theorem length_instants_past_le :
    (Play.instants ((pastPlays plays now).filter counts)).length ≤ plays.length := by
  rw [(instants_past_perm counts plays now).length_eq, Play.instants, List.length_map]
  exact List.length_filter_le _ _

end

/-- A pool that counts some of the plays counts at most the one play more. -/
theorem withinOne_pool
    {front back : List Play}
    {play : Play}
    {policy : Policy}
    {start now : Instant}
    {without more : Standing}
    (counts : Play → Bool)
    (startPlain : start.isLeap = false)
    (nowPlain : now.isLeap = false)
    (playsPlain : ∀ other ∈ front ++ back, other.instant.isLeap = false)
    (playPlain : play.instant.isLeap = false)
    (few : (front ++ back).length < 2 ^ 59)
    (answeredWithout :
      policy.standing start
          (Play.instants ((pastPlays (front ++ back) now).filter counts)) now =
        .ok without)
    (answeredMore :
      policy.standing start
          (Play.instants ((pastPlays (front ++ play :: back) now).filter counts)) now =
        .ok more) :
    TokenCount.WithinOne without.count more.count := by
  have allPlain : ∀ other ∈ front ++ play :: back, other.instant.isLeap = false := by
    intro other member
    rcases List.mem_cons.mp (List.perm_middle.mem_iff.mp member) with rfl | among
    · exact playPlain
    · exact playsPlain other among
  exact Policy.withinOne_of_oneMore (oneMore_past counts now front back play) startPlain
    nowPlain (instants_past_plain allPlain)
    (Nat.lt_of_le_of_lt length_instants_past_le few) answeredWithout answeredMore

/--
One more play among the plays of a participation, on whatever task and at
whatever instant, costs at most one token on a task and never gains one.
-/
theorem withinOne_insert
    {contest : Contest}
    {participation : Participation}
    {task : String}
    {front back : List Play}
    {play : Play}
    {now : Instant}
    {without more : Standing}
    (startPlain :
      ∀ start,
        contest.schedule.tokenStart? participation = some start →
        start.isLeap = false)
    (nowPlain : now.isLeap = false)
    (playsPlain : ∀ other ∈ front ++ back, other.instant.isLeap = false)
    (playPlain : play.instant.isLeap = false)
    (few : (front ++ back).length < 2 ^ 59)
    (answeredWithout :
      contest.standing participation task (front ++ back) now = .ok without)
    (answeredMore :
      contest.standing participation task (front ++ play :: back) now = .ok more) :
    TokenCount.WithinOne without.count more.count := by
  obtain ⟨policy, known, unstarted | ⟨start, started, jointWithout⟩⟩ :=
    standing_eq_ok_iff.mp answeredWithout
  · obtain ⟨-, -, moreUnstarted | ⟨start, started, -⟩⟩ := standing_eq_ok_iff.mp answeredMore
    · rw [unstarted.2, moreUnstarted.2]
      exact .refl _
    · rw [unstarted.1] at started
      contradiction
  · obtain ⟨samePolicy, sameKnown, ⟨unstarted, -⟩ | ⟨sameStart, sameStarted, jointMore⟩⟩ :=
      standing_eq_ok_iff.mp answeredMore
    · rw [unstarted] at started
      contradiction
    · cases known.symm.trans sameKnown
      cases started.symm.trans sameStarted
      obtain ⟨contestWithout, taskWithout, contestAnswered, taskAnswered, rfl⟩ :=
        jointStanding_eq_ok_iff.mp jointWithout
      obtain ⟨contestMore, taskMore, contestAnsweredMore, taskAnsweredMore, rfl⟩ :=
        jointStanding_eq_ok_iff.mp jointMore
      rw [← filter_true_past] at contestAnswered contestAnsweredMore
      exact TokenCount.WithinOne.smaller
        (withinOne_pool _ (startPlain start started) nowPlain playsPlain playPlain few
          contestAnswered contestAnsweredMore)
        (withinOne_pool _ (startPlain start started) nowPlain playsPlain playPlain few
          taskAnswered taskAnsweredMore)

/-- A contest without limits of its own, and one task with a cap and a lifetime. -/
def cappedTask : Contest :=
  (Contest.new
    { contestStart := .onDayZero 0
      personalTime := none }
    .infinite).addTask "sum" Policy.cappedPool

/-- With a play at 15 seconds before the one at 25, the lifetime leaves two tokens instead of three. -/
theorem withinOne_insert_cappedTask :
    cappedTask.standing (enrolled "ann") "sum"
          ([] ++ [.onDayZero "ann" "sum" "second" 25]) (.onDayZero 30) =
        .ok { count := .finite 3, nextGrowth := none, cooldownEnd := none } ∧
      cappedTask.standing (enrolled "ann") "sum"
          ([] ++ .onDayZero "ann" "sum" "first" 15 :: [.onDayZero "ann" "sum" "second" 25])
          (.onDayZero 30) =
        .ok { count := .finite 2, nextGrowth := none, cooldownEnd := none } ∧
      TokenCount.WithinOne (.finite 3) (.finite 2) := by
  have withoutPlay :
      cappedTask.standing (enrolled "ann") "sum"
          ([] ++ [.onDayZero "ann" "sum" "second" 25]) (.onDayZero 30) =
        .ok { count := .finite 3, nextGrowth := none, cooldownEnd := none } := by
    decide +kernel
  have withPlay :
      cappedTask.standing (enrolled "ann") "sum"
          ([] ++ .onDayZero "ann" "sum" "first" 15 :: [.onDayZero "ann" "sum" "second" 25])
          (.onDayZero 30) =
        .ok { count := .finite 2, nextGrowth := none, cooldownEnd := none } := by
    refine standing_eq_ok_iff.mpr ⟨Policy.cappedPool, rfl, .inr ⟨.onDayZero 0, rfl, ?_⟩⟩
    rw [pastPlays_eq_self (by decide) (by decide)]
    decide +kernel
  refine ⟨withoutPlay, withPlay, ?_⟩
  refine withinOne_insert ?_ (by decide) (by decide) (by decide) (by decide) withoutPlay withPlay
  intro start started
  cases started
  decide

end Contest

end TokenBudget
