import Mathlib.Data.List.Sort
import TokenBudget.Proofs.Contest.Requests

namespace TokenBudget

/-!
# What a query sees of the plays

A query looks at the instants of the plays up to its own, in order of time, once
for all plays and once for those on its task.  These instants do not depend on
the order of the plays, `Contest.instants_past_of_perm`, and one further play
adds at most its own instant to them, `Contest.oneMore_past`.  Nothing else of the
plays counts: `Contest.standing_settled_by_past`.
-/

namespace Play

/-- The instants of plays up to that of a query, each with whether its play is on the query's task. -/
def seen
    (task : String)
    (now : Instant)
    (plays : List Play) :
    List (Instant × Bool) :=
  (plays.filter fun play => decide (play.instant ≤ now)).map
    fun play => (play.instant, decide (play.task = task))

theorem instants_past_eq_seen
    (task : String)
    (now : Instant)
    (plays : List Play) :
    instants (plays.filter fun play => decide (play.instant ≤ now)) =
      (seen task now plays).map Prod.fst := by
  rw [instants, seen, List.map_map]
  rfl

theorem instants_pastOnTask_eq_seen
    (task : String)
    (now : Instant)
    (plays : List Play) :
    instants
        (plays.filter fun play => decide (play.task = task) && decide (play.instant ≤ now)) =
      ((seen task now plays).filter Prod.snd).map Prod.fst := by
  rw [instants, seen, ← List.filter_filter, List.filter_map, List.map_map]
  rfl

/-- A play after a query is not seen. -/
theorem seen_concat_later
    {task : String}
    {now : Instant}
    {play : Play}
    (plays : List Play)
    (isLater : now < play.instant) :
    seen task now (plays ++ [play]) = seen task now plays := by
  have unseen : ¬ play.instant ≤ now := not_le.mpr isLater
  simp [seen, unseen]

end Play

/-- A history with at most one more play than another. -/
def OneMore (without more : List Instant) : Prop :=
  more = without ∨
    ∃ earlier played later,
      without = earlier ++ later ∧ more = earlier ++ played :: later

/-- A sorted list with one more entry than another sorted list has it somewhere in between. -/
theorem exists_insert_of_perm_cons
    {without more : List Instant}
    {played : Instant}
    (withoutSorted : without.Pairwise (· ≤ ·))
    (moreSorted : more.Pairwise (· ≤ ·))
    (entries : more.Perm (played :: without)) :
    ∃ earlier later,
      without = earlier ++ later ∧ more = earlier ++ played :: later := by
  have inserted : more = without.orderedInsert (· ≤ ·) played :=
    (entries.trans (List.perm_orderedInsert (· ≤ ·) played without).symm).eq_of_pairwise
      (fun _ _ _ _ => le_antisymm) moreSorted (withoutSorted.orderedInsert played without)
  rw [List.orderedInsert_eq_take_drop] at inserted
  exact ⟨_, _, List.takeWhile_append_dropWhile.symm, inserted⟩

namespace Contest

section

variable
    (counts : Play → Bool)
    (plays : List Play)
    (now : Instant)

theorem sorted_instants_past :
    (Play.instants ((pastPlays plays now).filter counts)).Pairwise (· ≤ ·) := by
  rw [Play.instants, List.pairwise_map]
  exact (sorted_pastPlays plays now).filter counts

theorem instants_past_perm :
    (Play.instants ((pastPlays plays now).filter counts)).Perm
      (Play.instants
        (plays.filter fun play => counts play && decide (play.instant ≤ now))) := by
  rw [← List.filter_filter]
  exact ((List.mergeSort_perm _ _).filter counts).map Play.instant

end

/-- Of the past plays that count, a query sees the instants and nothing of their order. -/
theorem instants_past_congr
    {counts : Play → Bool}
    {now : Instant}
    {first second : List Play}
    (sameInstants :
      (Play.instants
          (first.filter fun play => counts play && decide (play.instant ≤ now))).Perm
        (Play.instants
          (second.filter fun play => counts play && decide (play.instant ≤ now)))) :
    Play.instants ((pastPlays first now).filter counts) =
      Play.instants ((pastPlays second now).filter counts) := by
  have sorted :=
    (instants_past_perm counts first now).trans
      (sameInstants.trans (instants_past_perm counts second now).symm)
  exact sorted.eq_of_pairwise (fun _ _ _ _ => le_antisymm)
    (sorted_instants_past counts first now) (sorted_instants_past counts second now)

/-- The order of plays does not matter to a query. -/
theorem instants_past_of_perm
    (counts : Play → Bool)
    (now : Instant)
    {first second : List Play}
    (samePlays : first.Perm second) :
    Play.instants ((pastPlays first now).filter counts) =
      Play.instants ((pastPlays second now).filter counts) :=
  instants_past_congr ((samePlays.filter _).map _)

/-- A further play adds its own instant to what a query sees, or nothing. -/
theorem oneMore_past
    (counts : Play → Bool)
    (now : Instant)
    (front back : List Play)
    (play : Play) :
    OneMore
      (Play.instants ((pastPlays (front ++ back) now).filter counts))
      (Play.instants ((pastPlays (front ++ play :: back) now).filter counts)) := by
  have inFront :
      Play.instants ((pastPlays (front ++ play :: back) now).filter counts) =
        Play.instants ((pastPlays (play :: (front ++ back)) now).filter counts) :=
    instants_past_of_perm counts now List.perm_middle
  have withPlay := instants_past_perm counts (play :: (front ++ back)) now
  have withoutPlay := instants_past_perm counts (front ++ back) now
  rw [inFront]
  by_cases seen : (counts play && decide (play.instant ≤ now)) = true
  · rw [List.filter_cons, if_pos seen] at withPlay
    obtain ⟨earlier, later, shape, moreShape⟩ :=
      exists_insert_of_perm_cons (sorted_instants_past counts (front ++ back) now)
        (sorted_instants_past counts (play :: (front ++ back)) now)
        (withPlay.trans (withoutPlay.symm.cons play.instant))
    exact .inr ⟨earlier, play.instant, later, shape, moreShape⟩
  · rw [List.filter_cons, if_neg seen] at withPlay
    exact .inl
      ((withPlay.trans withoutPlay.symm).eq_of_pairwise (fun _ _ _ _ => le_antisymm)
        (sorted_instants_past counts _ now) (sorted_instants_past counts _ now))

/-- The plays that count for the contest pool are all plays. -/
theorem filter_true_past
    (plays : List Play)
    (now : Instant) :
    (pastPlays plays now).filter (fun _ => true) = pastPlays plays now :=
  List.filter_eq_self.mpr fun _ _ => rfl

/-- A contest looks at nothing of the plays but the instants of those that are past. -/
theorem standing_congr
    {contest : Contest}
    {participation : Participation}
    {task : String}
    {now : Instant}
    {first second : List Play}
    (samePast :
      Play.instants (pastPlays first now) = Play.instants (pastPlays second now))
    (samePastOnTask :
      Play.instants (Play.onTask task (pastPlays first now)) =
        Play.instants (Play.onTask task (pastPlays second now))) :
    contest.standing participation task first now =
      contest.standing participation task second now := by
  simp only [Play.instants, Play.onTask] at samePast samePastOnTask
  simp only [Contest.standing, samePast, samePastOnTask]

/-- A contest answers the same about the same plays in another order. -/
theorem standing_of_perm
    (contest : Contest)
    (participation : Participation)
    (task : String)
    (now : Instant)
    {first second : List Play}
    (samePlays : first.Perm second) :
    contest.standing participation task first now =
      contest.standing participation task second now := by
  have all := instants_past_of_perm (fun _ => true) now samePlays
  rw [filter_true_past, filter_true_past] at all
  exact standing_congr all (instants_past_of_perm _ now samePlays)

/-- A contest answers the same about plays that it sees alike. -/
theorem standing_of_seen_perm
    (contest : Contest)
    (participation : Participation)
    {task : String}
    {now : Instant}
    {first second : List Play}
    (seenAlike : (Play.seen task now first).Perm (Play.seen task now second)) :
    contest.standing participation task first now =
      contest.standing participation task second now := by
  apply standing_congr
  case samePast =>
    rw [← filter_true_past first, ← filter_true_past second]
    apply instants_past_congr
    simp only [Bool.true_and]
    rw [Play.instants_past_eq_seen task, Play.instants_past_eq_seen task]
    exact seenAlike.map Prod.fst
  case samePastOnTask =>
    apply instants_past_congr
    rw [Play.instants_pastOnTask_eq_seen, Play.instants_pastOnTask_eq_seen]
    exact (seenAlike.filter Prod.snd).map Prod.fst

/--
The answer to a query depends only on the plays up to its instant, and of these
only on how many lie at each instant, on the task and on others.  A play that is
recorded later than the query therefore changes no answer.
-/
theorem standing_settled_by_past
    (contest : Contest)
    (participation : Participation)
    (task : String)
    (now : Instant) :
    (∀ first second : List Play,
        (Play.seen task now first).Perm (Play.seen task now second) →
        contest.standing participation task first now =
          contest.standing participation task second now) ∧
      ∀ (ledger : Ledger) (play : Play),
        now < play.instant →
        (ledger.record play).standing contest participation task now =
          ledger.standing contest participation task now := by
  constructor
  · intro first second seenAlike
    exact standing_of_seen_perm contest participation seenAlike
  · intro ledger play isLater
    rw [Ledger.standing, Ledger.standing, Ledger.playsOf_record]
    split
    · apply standing_of_seen_perm
      rw [Play.seen_concat_later _ isLater]
    · rfl

/-- A contest of five tokens, three of them for its only task. -/
def fiveTokens : Contest :=
  (Contest.new
    { contestStart := .onDayZero 0
      personalTime := none }
    { Policy.disabled with initial := some 5 }).addTask "sum"
      { Policy.disabled with initial := some 3 }

/-- Two plays at one instant count alike, whoever made them; a later one is not seen. -/
theorem standing_settled_by_past_laterPlay :
    (Play.seen "sum" (.onDayZero 10)
          [.onDayZero "ann" "graph" "first" 5, .onDayZero "ann" "sum" "second" 5,
            .onDayZero "ann" "sum" "third" 20]).Perm
        (Play.seen "sum" (.onDayZero 10)
          [.onDayZero "bob" "sum" "first" 5, .onDayZero "ann" "tree" "second" 5]) ∧
      Instant.onDayZero 10 < (Play.onDayZero "ann" "sum" "third" 20).instant ∧
      fiveTokens.standing (enrolled "ann") "sum"
          [.onDayZero "ann" "graph" "first" 5, .onDayZero "ann" "sum" "second" 5,
            .onDayZero "ann" "sum" "third" 20]
          (.onDayZero 10) =
        .ok { count := .finite 2, nextGrowth := none, cooldownEnd := none } ∧
      ((Ledger.ofPlays [.onDayZero "ann" "sum" "second" 5]).record
            (.onDayZero "ann" "sum" "third" 20)).standing
          fiveTokens (enrolled "ann") "sum" (.onDayZero 10) =
        .ok { count := .finite 2, nextGrowth := none, cooldownEnd := none } := by
  have seenAlike :
      (Play.seen "sum" (.onDayZero 10)
          [.onDayZero "ann" "graph" "first" 5, .onDayZero "ann" "sum" "second" 5,
            .onDayZero "ann" "sum" "third" 20]).Perm
        (Play.seen "sum" (.onDayZero 10)
          [.onDayZero "bob" "sum" "first" 5, .onDayZero "ann" "tree" "second" 5]) := by
    decide +kernel
  have isLater : Instant.onDayZero 10 < (Play.onDayZero "ann" "sum" "third" 20).instant := by
    decide
  obtain ⟨sameAnswer, recordedLater⟩ :=
    standing_settled_by_past fiveTokens (enrolled "ann") "sum" (.onDayZero 10)
  refine ⟨seenAlike, isLater, ?_, ?_⟩
  · rw [sameAnswer _ _ seenAlike]
    refine standing_eq_ok_iff.mpr ⟨_, rfl, .inr ⟨.onDayZero 0, rfl, ?_⟩⟩
    rw [pastPlays_eq_self (by decide) (by decide)]
    decide +kernel
  · rw [recordedLater _ _ isLater]
    decide +kernel

end Contest

end TokenBudget
