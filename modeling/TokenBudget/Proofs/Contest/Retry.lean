import TokenBudget.Proofs.Contest.Chronological
import TokenBudget.Proofs.Pool.Backing
import TokenBudget.Proofs.Pool.JointGrowth

namespace TokenBudget

/-!
# When to ask again

A request that is turned down for want of tokens, or for a cooldown, is answered
with a standing.  `Standing.retryAt?` reads off the standing when the request would
be let through: not before that instant, and from then on as long as nothing is
played, `Ledger.unacceptable_later_iff`.

Both pools were asked about plays that they let through themselves, so each of
them forecasts its later counts, and the two forecasts make one of the joint
standing.
-/

namespace Standing

/-- When a play that is turned down now is let through; none if it never is. -/
def retryAt? (standing : Standing) : Option Instant :=
  if standing.count = .finite 0 then
    standing.nextGrowth.bind fun growth => laterOf (some growth) standing.cooldownEnd
  else
    standing.cooldownEnd

/-- Growth and the end of a cooldown have both come when the later of them has. -/
theorem laterOf_le_iff
    {growth retry instant : Instant}
    {cooldownEnd : Option Instant}
    (decides : laterOf (some growth) cooldownEnd = some retry) :
    retry ≤ instant ↔
      growth ≤ instant ∧ ∀ ends, cooldownEnd = some ends → ends ≤ instant := by
  cases cooldownEnd with
  | none =>
      obtain rfl : growth = retry := Option.some.inj decides
      simp
  | some ends =>
      obtain rfl : growth.later ends = retry := Option.some.inj decides
      simp only [Option.some.injEq, forall_eq']
      rcases Instant.later_cases growth ends with ⟨ordered, laterOne⟩ | ⟨ordered, laterOne⟩
      · rw [laterOne]
        exact ⟨fun reached => ⟨le_trans ordered reached, reached⟩, And.right⟩
      · rw [laterOne]
        exact ⟨fun reached => ⟨reached, le_trans (le_of_lt ordered) reached⟩, And.left⟩

/-- A standing that lets no play through has a cooldown, unless it lacks tokens. -/
theorem exists_cooldownEnd
    {standing : Standing}
    (refused : standing.canPlay = false)
    (stocked : standing.count ≠ .finite 0) :
    ∃ ends, standing.cooldownEnd = some ends := by
  rw [← Option.ne_none_iff_exists']
  intro cooled
  rw [Standing.canPlay_iff.mpr ⟨TokenCount.any_iff_ne_zero.mpr stocked, cooled⟩] at refused
  contradiction

/-- A refused standing tells no retry only when there is neither a token nor growth to come. -/
theorem retryAt?_eq_none_iff
    {standing : Standing}
    (refused : standing.canPlay = false) :
    standing.retryAt? = none ↔ standing.count = .finite 0 ∧ standing.nextGrowth = none := by
  by_cases empty : standing.count = .finite 0
  · cases growing : standing.nextGrowth with
    | none =>
        simp [retryAt?, empty, growing]
    | some growth =>
        cases cooling : standing.cooldownEnd <;> simp [retryAt?, empty, growing, cooling, laterOf]
  · obtain ⟨ends, cooling⟩ := exists_cooldownEnd refused empty
    simp [retryAt?, empty, cooling]

section

variable {contest task : Standing}

/-- The joint cooldown has ended when those of both pools have. -/
theorem cooldownEnd_meet_le_iff
    {instant : Instant} :
    (∀ ends, (contest.meet task).cooldownEnd = some ends → ends ≤ instant) ↔
      (∀ ends, contest.cooldownEnd = some ends → ends ≤ instant) ∧
        ∀ ends, task.cooldownEnd = some ends → ends ≤ instant := by
  simp only [meet]
  cases contest.cooldownEnd with
  | none =>
      cases task.cooldownEnd <;> simp [laterOf]
  | some contestEnd =>
      obtain ⟨jointEnd, joint⟩ :
          ∃ jointEnd, laterOf (some contestEnd) task.cooldownEnd = some jointEnd := by
        cases task.cooldownEnd <;> exact ⟨_, rfl⟩
      simp only [joint, Option.some.injEq, forall_eq']
      exact laterOf_le_iff joint

end

end Standing

/-- With the forecast of a refusal, play is let through from the retry on. -/
theorem Forecast.canPlay_iff_retry
    {Refusal : Type}
    {ask : Instant → Except Refusal Standing}
    {now later : Instant}
    {standing after : Standing}
    (forecast : Forecast ask now standing)
    (cooled :
      after.cooldownEnd = none ↔ ∀ ends, standing.cooldownEnd = some ends → ends ≤ later)
    (laterPlain : later.isLeap = false)
    (ordered : now ≤ later)
    (answered : ask later = .ok after)
    (refused : standing.canPlay = false) :
    after.canPlay = true ↔ ∃ retry, standing.retryAt? = some retry ∧ retry ≤ later := by
  rw [Standing.canPlay_iff, cooled, TokenCount.any_iff]
  by_cases empty : standing.count = .finite 0
  · simp only [Standing.retryAt?, if_pos empty]
    cases growing : standing.nextGrowth with
    | none =>
        have still := forecast.steady laterPlain ordered (by simp [growing]) answered
        simp [still, empty]
    | some growth =>
        have counts : .finite 0 < after.count ↔ growth ≤ later := by
          constructor
          · intro token
            by_contra notReached
            have still :=
              forecast.steady laterPlain ordered
                (by simpa [growing] using notReached) answered
            rw [still, empty] at token
            exact lt_irrefl _ token
          · intro reached
            have below : standing.count < .finite 4294967295 := by
              rw [empty]
              exact TokenCount.finite_lt_finite.mpr (by decide)
            rw [← empty]
            exact forecast.grown growing laterPlain reached answered below
        obtain ⟨retry, decides⟩ :
            ∃ retry, Standing.laterOf (some growth) standing.cooldownEnd = some retry := by
          cases standing.cooldownEnd <;> exact ⟨_, rfl⟩
        rw [counts, ← Standing.laterOf_le_iff decides]
        simp [decides]
  · obtain ⟨ends, cooling⟩ := Standing.exists_cooldownEnd refused empty
    have token : .finite 0 < standing.count :=
      TokenCount.any_iff.mp (TokenCount.any_iff_ne_zero.mpr empty)
    have laterToken : .finite 0 < after.count :=
      lt_of_lt_of_le token (forecast.rises laterPlain ordered answered)
    simp [Standing.retryAt?, empty, cooling, laterToken]

namespace Contest

/-- What holds of the plays of a participation in the contest pool and in every task pool. -/
structure PoolsKeep
    (Keeps : Policy → Instant → List Instant → Prop)
    (contest : Contest)
    (participation : Participation)
    (plays : List Play) :
    Prop where
  pool :
    ∀ start,
      contest.schedule.tokenStart? participation = some start →
      Keeps contest.pool start (Play.instants plays)
  tasks :
    ∀ start,
      contest.schedule.tokenStart? participation = some start →
      ∀ task policy,
        contest.tasks.find? task = some policy →
        Keeps policy start (Play.instants (Play.onTask task plays))

end Contest

namespace Ledger

section

variable
    {Keeps : Policy → Instant → List Instant → Prop}
    (fresh : ∀ policy start, Keeps policy start [])
    (plays :
      ∀ {policy start history now standing},
        Keeps policy start history →
        policy.standing start history now = .ok standing →
        standing.canPlay = true →
        Keeps policy start (history ++ [now]))

include plays in
/-- What every play that a pool lets through keeps, a play of a contest keeps in its pools. -/
theorem Grants.poolsKeep
    {contest : Contest}
    {ledger : Ledger}
    {request : Request}
    {policy : Policy}
    {start : Instant}
    {standing : Standing}
    (granted : ledger.Grants contest request policy start standing)
    (kept :
      contest.PoolsKeep Keeps request.participation
        (ledger.playsOf request.participation.name))
    (played : PlayedUntil request.now (ledger.playsOf request.participation.name)) :
    contest.PoolsKeep Keeps request.participation
      (ledger.playsOf request.participation.name ++ [request.play]) := by
  obtain ⟨contestStanding, taskStanding, ⟨contestAnswered, contestCanPlay⟩,
    taskAnswered, taskCanPlay⟩ := granted.standings
  rw [Contest.pastPlays_eq_self played.sorted played.past] at contestAnswered taskAnswered
  constructor
  · intro contestStart started
    cases granted.started.symm.trans started
    rw [Play.instants_concat]
    exact plays (kept.pool start started) contestAnswered contestCanPlay
  · intro taskStart started task taskPolicy known
    cases granted.started.symm.trans started
    have before := kept.tasks start started task taskPolicy known
    rw [Play.onTask_concat]
    by_cases own : request.play.task = task
    · rw [if_pos own, Play.instants_concat]
      cases own
      cases granted.known.symm.trans known
      exact plays before taskAnswered taskCanPlay
    · rw [if_neg own]
      exact before

include fresh plays in
/-- In order of time every pool keeps what plays that it lets through keep. -/
theorem poolsKeep_of_chronological
    {contest : Contest}
    {requests : List Request}
    {participation : Participation}
    (chronological : Chronological requests participation) :
    contest.PoolsKeep Keeps participation
      ((empty.serve contest requests).playsOf participation.name) := by
  induction requests using List.reverseRecOn with
  | nil =>
      exact ⟨fun start _ => fresh _ start, fun start _ _ _ _ => fresh _ start⟩
  | append_singleton requests request inductionHypothesis =>
      have kept := inductionHypothesis chronological.before_last
      rw [serve_concat]
      rcases playsOf_afterRequest_cases contest (empty.serve contest requests) request
          participation.name with
        ⟨own, recorded, policy, start, standing, granted⟩ | unchanged
      · have played :
            PlayedUntil request.now
              ((empty.serve contest requests).playsOf participation.name) :=
          playedUntil_of_chronological chronological.before_last
            fun earlier member earlierOwn => chronological.le_last own member earlierOwn
        have steady := chronological.steady request (by simp) own
        rw [recorded]
        subst steady
        exact granted.poolsKeep plays kept played
      · rw [unchanged]
        exact kept

end

section

variable
    {contest : Contest}
    {ledger : Ledger}
    {participation : Participation}
    {task submission : String}
    {now : Instant}

/-- A request is unacceptable when the contest answers with a standing that lets no play through. -/
theorem accept_eq_unacceptable_iff
    {standing : Standing} :
    (ledger.accept contest participation task submission now).1 =
        .error (.unacceptable standing) ↔
      ledger.standing contest participation task now = .ok standing ∧
        standing.canPlay = false := by
  have playable
      {other : Standing}
      (canPlay : other.canPlay = true) :
      ¬ (other = standing ∧ standing.canPlay = false) := by
    rintro ⟨rfl, refused⟩
    rw [canPlay] at refused
    contradiction
  rw [fst_accept]
  have verdict := ledger.verdict_review contest ⟨participation, task, submission, now⟩
  generalize ledger.review contest participation task submission now = result at verdict ⊢
  cases verdict with
  | @unanswered rejection failed =>
      have otherReason : rejection ≠ .unacceptable standing := by
        rintro rfl
        exact Contest.standing_ne_unacceptable failed
      simp [failed, otherReason]
  | unacceptable answered refused =>
      simp only [answered, Except.error.injEq, Rejection.unacceptable.injEq, Except.ok.injEq]
      exact ⟨fun same => ⟨same, same ▸ refused⟩, And.left⟩
  | alreadyPlayed answered canPlay played =>
      simp [answered, playable canPlay]
  | granted answered canPlay unplayed =>
      simp [answered, playable canPlay]

end

/-- Requests have a last instant. -/
theorem exists_now_le (requests : List Request) :
    ∃ bound, ∀ request ∈ requests, request.now ≤ bound := by
  induction requests with
  | nil =>
      exact ⟨.earliest, by simp⟩
  | cons request requests inductionHypothesis =>
      obtain ⟨bound, bounds⟩ := inductionHypothesis
      refine ⟨max request.now bound, ?_⟩
      intro other member
      rcases List.mem_cons.mp member with rfl | inRest
      · exact le_max_left _ _
      · exact le_trans (bounds other inRest) (le_max_right _ _)

/-- After requests in order of time all plays lie up to every instant that is not before the last. -/
theorem playedUntil_of_last_le
    {contest : Contest}
    {requests : List Request}
    {participation : Participation}
    {now : Instant}
    (chronological : Chronological requests participation)
    (notEarlier :
      ∀ last,
        ((empty.serve contest requests).playsOf participation.name).getLast? = some last →
        last.instant ≤ now) :
    PlayedUntil now ((empty.serve contest requests).playsOf participation.name) := by
  obtain ⟨bound, bounds⟩ := exists_now_le requests
  have played :=
    @playedUntil_of_chronological contest requests participation bound chronological
      fun request member _ => bounds request member
  refine ⟨played.plain, played.sorted, ?_⟩
  revert notEarlier
  generalize (empty.serve contest requests).playsOf participation.name = plays at played
  intro notEarlier play member
  cases plays using List.reverseRecOn with
  | nil =>
      contradiction
  | append_singleton earlier last =>
      have lastBefore := notEarlier last (by simp)
      rcases List.mem_append.mp member with before | isLast
      · exact le_trans
          ((List.pairwise_append.mp played.sorted).2.2 play before last (by simp)) lastBefore
      · rw [List.mem_singleton.mp isLast]
        exact lastBefore

end Ledger

/-- Until a play is recorded, a participant with backed plays may play from the retry on. -/
theorem Contest.canPlay_iff_retry
    {contest : Contest}
    {participation : Participation}
    {task : String}
    {plays : List Play}
    {now later : Instant}
    {standing after : Standing}
    (startPlain :
      ∀ start,
        contest.schedule.tokenStart? participation = some start →
        start.isLeap = false)
    (played : PlayedUntil now plays)
    (backed : contest.PoolsKeep Policy.Backed participation plays)
    (nowPlain : now.isLeap = false)
    (answered : contest.standing participation task plays now = .ok standing)
    (refused : standing.canPlay = false)
    (laterPlain : later.isLeap = false)
    (ordered : now ≤ later)
    (laterAnswered : contest.standing participation task plays later = .ok after) :
    after.canPlay = true ↔ ∃ retry, standing.retryAt? = some retry ∧ retry ≤ later := by
  obtain ⟨policy, known, unstarted | ⟨start, started, joint⟩⟩ :=
    Contest.standing_eq_ok_iff.mp answered
  · obtain ⟨policy, _, laterUnstarted | ⟨start, started, _⟩⟩ :=
      Contest.standing_eq_ok_iff.mp laterAnswered
    · rw [unstarted.2, laterUnstarted.2]
      simp [Standing.retryAt?, Standing.nothing, Standing.canPlay, TokenCount.any]
    · rw [unstarted.1] at started
      contradiction
  · obtain ⟨samePolicy, sameKnown, ⟨unstarted, -⟩ | ⟨sameStart, sameStarted, laterJoint⟩⟩ :=
      Contest.standing_eq_ok_iff.mp laterAnswered
    · rw [unstarted] at started
      contradiction
    · cases known.symm.trans sameKnown
      cases started.symm.trans sameStarted
      rw [Contest.pastPlays_eq_self played.sorted played.past] at joint
      rw [Contest.pastPlays_eq_self played.sorted
        (fun play member => le_trans (played.past play member) ordered)] at laterJoint
      obtain ⟨contestStanding, taskStanding, contestAnswered, taskAnswered, rfl⟩ :=
        jointStanding_eq_ok_iff.mp joint
      obtain ⟨contestAfter, taskAfter, contestLater, taskLater, rfl⟩ :=
        jointStanding_eq_ok_iff.mp laterJoint
      have forecast :=
        Forecast.meet
          (Policy.forecast_of_backed (startPlain start started) nowPlain played.instants_plain
            (backed.pool start started) contestAnswered)
          (Policy.forecast_of_backed (startPlain start started) nowPlain
            (played.onTask task).instants_plain (backed.tasks start started task policy known)
            taskAnswered)
      refine forecast.canPlay_iff_retry ?_ laterPlain ordered laterJoint refused
      rw [Standing.cooldownEnd_meet_eq_none_iff,
        Policy.cooldownEnd_eq_none_iff contestAnswered ordered contestLater,
        Policy.cooldownEnd_eq_none_iff taskAnswered ordered taskLater]
      exact Standing.cooldownEnd_meet_le_iff.symm

namespace Ledger

/--
A refusal tells when to ask again: until something is played, the request is
unacceptable before the retry and not from then on, and it always is when no
retry is told, which is when there is neither a token nor growth to come.
-/
theorem unacceptable_later_iff
    {contest : Contest}
    {requests : List Request}
    {participation : Participation}
    {task submission : String}
    {now : Instant}
    {standing : Standing}
    (startPlain :
      ∀ start,
        contest.schedule.tokenStart? participation = some start →
        start.isLeap = false)
    (chronological : Chronological requests participation)
    (nowPlain : now.isLeap = false)
    (notEarlier :
      ∀ last,
        ((empty.serve contest requests).playsOf participation.name).getLast? = some last →
        last.instant ≤ now)
    (refused :
      ((empty.serve contest requests).accept contest participation task submission now).1 =
        .error (.unacceptable standing)) :
    (standing.retryAt? = none ↔ standing.count = .finite 0 ∧ standing.nextGrowth = none) ∧
      ∀ later after,
        later.isLeap = false →
        now ≤ later →
        (empty.serve contest requests).standing contest participation task later = .ok after →
        ((∃ other,
            ((empty.serve contest requests).accept contest participation task submission
                later).1 =
              .error (.unacceptable other)) ↔
          ∀ retry, standing.retryAt? = some retry → later < retry) := by
  obtain ⟨answered, cannotPlay⟩ := accept_eq_unacceptable_iff.mp refused
  have played := playedUntil_of_last_le chronological notEarlier
  have backed :=
    @poolsKeep_of_chronological Policy.Backed Policy.Backed.nil Policy.Backed.play contest
      requests participation chronological
  refine ⟨Standing.retryAt?_eq_none_iff cannotPlay, ?_⟩
  intro later after laterPlain ordered laterAnswered
  have decides :=
    Contest.canPlay_iff_retry startPlain played backed nowPlain answered cannotPlay laterPlain
      ordered laterAnswered
  have refusedLater :
      (∃ other,
          ((empty.serve contest requests).accept contest participation task submission
              later).1 =
            .error (.unacceptable other)) ↔
        after.canPlay = false := by
    simp only [accept_eq_unacceptable_iff, laterAnswered, Except.ok.injEq]
    exact ⟨fun ⟨other, same, refused⟩ => same ▸ refused, fun refused => ⟨after, rfl, refused⟩⟩
  rw [refusedLater, ← Bool.not_eq_true, decides]
  simp only [not_exists, not_and, not_le]

/-- With one play at ten seconds, a request two seconds later has to wait for the cooldown. -/
def onePlay : List Request :=
  [⟨enrolled "ann", "sum", "first", .onDayZero 10⟩]

/-- The task pool has a token again after twenty seconds and ends its cooldown after forty. -/
theorem unacceptable_later_iff_onePlay :
    Chronological onePlay (enrolled "ann") ∧
      ((empty.serve twoTasks onePlay).accept twoTasks (enrolled "ann") "sum" "second"
            (.onDayZero 12)).1 =
        .error
          (.unacceptable
            { count := .finite 0
              nextGrowth := some (.onDayZero 20)
              cooldownEnd := some (.onDayZero 40) }) ∧
      ∀ later after,
        later.isLeap = false →
        .onDayZero 12 ≤ later →
        (empty.serve twoTasks onePlay).standing twoTasks (enrolled "ann") "sum" later =
          .ok after →
        ((∃ other,
            ((empty.serve twoTasks onePlay).accept twoTasks (enrolled "ann") "sum" "second"
                later).1 =
              .error (.unacceptable other)) ↔
          later < .onDayZero 40) := by
  have startPlain :
      ∀ start,
        twoTasks.schedule.tokenStart? (enrolled "ann") = some start →
        start.isLeap = false := by
    intro start started
    cases started
    decide
  have chronological : Chronological onePlay (enrolled "ann") :=
    ⟨by decide, by decide, by decide⟩
  have refused :
      ((empty.serve twoTasks onePlay).accept twoTasks (enrolled "ann") "sum" "second"
            (.onDayZero 12)).1 =
        .error
          (.unacceptable
            { count := .finite 0
              nextGrowth := some (.onDayZero 20)
              cooldownEnd := some (.onDayZero 40) }) := by
    decide +kernel
  have notEarlier :
      ∀ last,
        ((empty.serve twoTasks onePlay).playsOf (enrolled "ann").name).getLast? = some last →
        last.instant ≤ .onDayZero 12 := by
    have recorded :
        ((empty.serve twoTasks onePlay).playsOf (enrolled "ann").name).getLast? =
          some (Request.play ⟨enrolled "ann", "sum", "first", .onDayZero 10⟩) := by
      decide +kernel
    intro last isLast
    cases recorded.symm.trans isLast
    decide
  refine ⟨chronological, refused, ?_⟩
  intro later after laterPlain ordered answered
  rw [(unacceptable_later_iff startPlain chronological (by decide) notEarlier refused).2 later
    after laterPlain ordered answered]
  exact ⟨fun notYet => notYet _ rfl, fun early retry told => Option.some.inj told ▸ early⟩

end Ledger

end TokenBudget
