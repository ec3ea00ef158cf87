import TokenBudget.Proofs.Contest.PastPlays
import TokenBudget.Proofs.Pool.ExactCount
import TokenBudget.Proofs.Pool.OneToken

namespace TokenBudget

/-!
# An accepted play costs one token

A play that is accepted comes last among the plays that a query at its instant
sees, in the contest pool and in the pool of its task, whatever else is in the
ledger: `Contest.instants_past_concat`.  Each pool then has one token less, and so
has the smaller of the two counts: `Ledger.accept_costs_one_token`.
-/

namespace Contest

/-- A play at the instant of a query comes last among the plays that the query sees. -/
theorem instants_past_concat
    {counts : Play → Bool}
    {play : Play}
    (plays : List Play)
    (counted : counts play = true) :
    Play.instants ((pastPlays (plays ++ [play]) play.instant).filter counts) =
      Play.instants ((pastPlays plays play.instant).filter counts) ++ [play.instant] := by
  have entries := instants_past_perm counts (plays ++ [play]) play.instant
  have entriesBefore := instants_past_perm counts plays play.instant
  have playSeen :
      ([play].filter fun other => counts other && decide (other.instant ≤ play.instant)) =
        [play] := by
    simp [counted]
  rw [List.filter_append, playSeen, Play.instants_concat] at entries
  have orderly :
      Orderly .earliest play.instant
        (Play.instants ((pastPlays plays play.instant).filter counts)) :=
    (orderly_pastPlays plays play.instant).part (List.filter_sublist.map _)
  exact (entries.trans (entriesBefore.symm.append_right _)).eq_of_pairwise
    (fun _ _ _ _ => le_antisymm) (sorted_instants_past counts _ _) orderly.concat.sorted

/-- A new play comes last among all past plays. -/
theorem instants_pastPlays_concat
    (plays : List Play)
    (play : Play) :
    Play.instants (pastPlays (plays ++ [play]) play.instant) =
      Play.instants (pastPlays plays play.instant) ++ [play.instant] := by
  have counted := @instants_past_concat (fun _ => true) play plays rfl
  rwa [filter_true_past, filter_true_past] at counted

/-- A new play comes last among the past plays on its task. -/
theorem instants_onTask_concat
    (plays : List Play)
    (play : Play) :
    Play.instants (Play.onTask play.task (pastPlays (plays ++ [play]) play.instant)) =
      Play.instants (Play.onTask play.task (pastPlays plays play.instant)) ++ [play.instant] :=
  instants_past_concat plays (decide_eq_true rfl)

section

variable
    {contest : Contest}
    {participation : Participation}
    {plays : List Play}
    {play : Play}
    {before : Standing}
    (answered : contest.standing participation play.task plays play.instant = .ok before)
    (canPlay : before.canPlay = true)

include answered canPlay

/-- A play that a contest lets through costs one token on its task. -/
theorem oneSpent_concat
    {after : Standing}
    (answeredAfter :
      contest.standing participation play.task (plays ++ [play]) play.instant = .ok after) :
    TokenCount.OneSpent before.count after.count := by
  obtain ⟨policy, start, known, started, joint⟩ :=
    Ledger.exists_jointStanding_of_canPlay answered canPlay
  rw [standing_eq_ok_iff_of_started known started, instants_pastPlays_concat,
    instants_onTask_concat] at answeredAfter
  exact oneSpent_jointStanding joint canPlay answeredAfter

/-- After a play that a contest lets through, a query at its instant may want an instant, no more. -/
theorem outOfRange_concat
    {rejection : Rejection}
    (failed :
      contest.standing participation play.task (plays ++ [play]) play.instant =
        .error rejection) :
    rejection = .unanswerable .outOfRange := by
  obtain ⟨policy, start, known, started, joint⟩ :=
    Ledger.exists_jointStanding_of_canPlay answered canPlay
  rcases standing_cases known with ⟨after, answeredAfter⟩ | ⟨fault, atFault⟩
  · rw [answeredAfter] at failed
    contradiction
  · obtain ⟨samePolicy, sameStart, sameKnown, sameStarted, jointFault⟩ :=
      standing_eq_unanswerable_iff.mp atFault
    cases known.symm.trans sameKnown
    cases started.symm.trans sameStarted
    rw [instants_pastPlays_concat, instants_onTask_concat] at jointFault
    cases failed.symm.trans atFault
    rw [fault_after_joint_play joint canPlay jointFault]

end

end Contest

namespace Ledger

/-- A request is let through when the query before it allows a play. -/
theorem exists_standing_of_accepted
    {contest : Contest}
    {ledger recorded : Ledger}
    {participation : Participation}
    {task submission : String}
    {now : Instant}
    {play : Play}
    (granted :
      ledger.accept contest participation task submission now = (.ok play, recorded)) :
    ∃ before,
      ledger.standing contest participation task now = .ok before ∧
        before.canPlay = true := by
  have verdict := ledger.verdict_review contest ⟨participation, task, submission, now⟩
  rw [← fst_accept, granted] at verdict
  cases verdict with
  | granted answered canPlay _ =>
      exact ⟨_, answered, canPlay⟩

/-- A query of a participant sees a recorded play of theirs after all others. -/
theorem standing_record
    {contest : Contest}
    {ledger : Ledger}
    {participation : Participation}
    {task : String}
    {now : Instant}
    {play : Play}
    (own : participation.name = play.participant) :
    (ledger.record play).standing contest participation task now =
      contest.standing participation task (ledger.playsOf participation.name ++ [play])
        now := by
  rw [standing, playsOf_record, if_pos own]

/--
After a request that is let through, the same query has an infinite count as before,
or one token less than before, as long as the count before was not the largest one.
It can only fail because an instant is out of range.
-/
theorem accept_costs_one_token
    {contest : Contest}
    {ledger recorded : Ledger}
    {participation : Participation}
    {task submission : String}
    {now : Instant}
    {play : Play}
    (granted :
      ledger.accept contest participation task submission now = (.ok play, recorded)) :
    ∃ before,
      ledger.standing contest participation task now = .ok before ∧
        (∀ after,
          recorded.standing contest participation task now = .ok after →
          (before.count = .infinite → after.count = .infinite) ∧
            ∀ count : UInt32,
              before.count = .finite count →
              count.toNat < 4294967295 →
              ∃ left : UInt32,
                after.count = .finite left ∧ left.toNat + 1 = count.toNat) ∧
        ∀ rejection,
          recorded.standing contest participation task now = .error rejection →
          rejection = .unanswerable .outOfRange := by
  obtain ⟨before, answered, canPlay⟩ := exists_standing_of_accepted granted
  obtain ⟨asked, rfl⟩ := accept_eq_ok granted
  have ofParticipant : participation.name = play.participant := by
    rw [asked]
  have onTask : play.task = task := by
    rw [asked]
  have atInstant : play.instant = now := by
    rw [asked]
  subst onTask atInstant
  refine ⟨before, answered, ?_, ?_⟩
  · intro after answeredAfter
    rw [standing_record ofParticipant] at answeredAfter
    have spent := Contest.oneSpent_concat answered canPlay answeredAfter
    refine ⟨fun endless => (endless ▸ spent).infinite, ?_⟩
    intro count counted notMost
    exact (counted ▸ spent).finite notMost
  · intro rejection failed
    rw [standing_record ofParticipant] at failed
    exact Contest.outOfRange_concat answered canPlay failed

/-- A contest pool beyond the largest count, and one task with a cap and a lifetime. -/
def overfullContest : Contest :=
  (Contest.new
    { contestStart := .onDayZero 0
      personalTime := none }
    { Policy.disabled with
      initial := some 4294967295
      period := .ofSeconds 10
      perPeriod := 1 }).addTask "sum" Policy.cappedPool

/-- The play that is asked for. -/
def playNow : Play :=
  .onDayZero "ann" "sum" "now" 30

/-- A ledger with a play after the request and one before it. -/
def laterAndEarlier : Ledger :=
  ofPlays [.onDayZero "ann" "sum" "later" 60, .onDayZero "ann" "sum" "earlier" 25]

/-- The task is full when the play is accepted, and the contest pool hides that it has one less. -/
theorem accept_costs_one_token_overfullContest :
    laterAndEarlier.accept overfullContest (enrolled "ann") "sum" "now" (.onDayZero 30) =
        (.ok playNow, laterAndEarlier.record playNow) ∧
      laterAndEarlier.standing overfullContest (enrolled "ann") "sum" (.onDayZero 30) =
        .ok { count := .finite 3, nextGrowth := none, cooldownEnd := none } ∧
      (laterAndEarlier.record playNow).standing overfullContest (enrolled "ann")
          "sum" (.onDayZero 30) =
        .ok { count := .finite 2, nextGrowth := none, cooldownEnd := none } ∧
      ∃ left : UInt32,
        TokenCount.finite 2 = .finite left ∧ left.toNat + 1 = (3 : UInt32).toNat := by
  have granted :
      laterAndEarlier.accept overfullContest (enrolled "ann") "sum" "now" (.onDayZero 30) =
        (.ok playNow, laterAndEarlier.record playNow) := by
    decide +kernel
  have answered :
      laterAndEarlier.standing overfullContest (enrolled "ann") "sum" (.onDayZero 30) =
        .ok { count := .finite 3, nextGrowth := none, cooldownEnd := none } := by
    decide +kernel
  have answeredAfter :
      (laterAndEarlier.record playNow).standing overfullContest (enrolled "ann")
          "sum" (.onDayZero 30) =
        .ok { count := .finite 2, nextGrowth := none, cooldownEnd := none } := by
    have past :
        Play.instants
            (Contest.pastPlays
              (laterAndEarlier.playsOf (enrolled "ann").name ++ [playNow])
              (.onDayZero 30)) =
          [.onDayZero 25, .onDayZero 30] :=
      (Contest.instants_pastPlays_concat _ playNow).trans (by decide +kernel)
    have pastOnTask :
        Play.instants
            (Play.onTask "sum"
              (Contest.pastPlays
                (laterAndEarlier.playsOf (enrolled "ann").name ++ [playNow])
                (.onDayZero 30))) =
          [.onDayZero 25, .onDayZero 30] :=
      (Contest.instants_onTask_concat _ playNow).trans (by decide +kernel)
    rw [standing_record rfl, Contest.standing_eq_ok_iff_of_started rfl rfl, past, pastOnTask]
    decide +kernel
  obtain ⟨before, sameAnswer, costs, -⟩ := accept_costs_one_token granted
  cases answered.symm.trans sameAnswer
  exact ⟨granted, answered, answeredAfter, (costs _ answeredAfter).2 3 rfl (by decide)⟩

end Ledger

end TokenBudget
