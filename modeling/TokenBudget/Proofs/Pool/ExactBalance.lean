import Mathlib.Data.List.Induction
import TokenBudget.Pool.Timeline
import TokenBudget.Proofs.Pool.Answer
import TokenBudget.Proofs.Pool.Periods

namespace TokenBudget

/-!
# The exact balance, play by play

The timeline of a pool up to an instant is its timeline up to the last play,
that play, and the boundaries after it.  Boundaries that follow each other can
be taken at once: `Policy.refilled` adds what they add and applies the cap in
the end.  Together the exact balance satisfies a recursion on the last play,
`Policy.exactBalance_concat`, in which no boundary occurs any more.
-/

namespace Clock

/-- Listed boundaries lie a period or more after the place where the list begins, and not after its end. -/
theorem mem_boundariesFrom
    {clock : Clock}
    {now boundary : Instant}
    {place : Int}
    (member : boundary ∈ clock.boundariesFrom now place) :
    boundary.isLeap = false ∧ place + clock.period ≤ boundary.timeline ∧ boundary ≤ now := by
  fun_induction clock.boundariesFrom now place with
  | case1 place found =>
      simp at member
  | case2 place first found reached inductionHypothesis =>
      obtain ⟨firstPlace, firstPlain⟩ := Instant.atTimeline?_eq_some found
      rcases List.mem_cons.mp member with rfl | inRest
      · exact ⟨firstPlain, by omega, reached⟩
      · obtain ⟨plain, later, notAfter⟩ := inductionHypothesis inRest
        exact ⟨plain, by omega, notAfter⟩
  | case3 place first found notReached =>
      simp at member

section

variable
    {clock : Clock}
    {now : Instant}
    (startPlain : clock.start.isLeap = false)
    (nowPlain : now.isLeap = false)

include startPlain nowPlain

/-- While a period ends no later than `now`, its boundary is next in the list. -/
theorem boundariesFrom_of_lt
    {index : Int}
    (started : 0 ≤ index)
    (notOver : index < clock.periods now) :
    ∃ boundary,
      Instant.atTimeline? (clock.boundaryPlace (index + 1)) = some boundary ∧
        clock.boundariesFrom now (clock.boundaryPlace index) =
          boundary :: clock.boundariesFrom now (clock.boundaryPlace (index + 1)) := by
  have reached :
      clock.boundaryPlace (index + 1) ≤ now.timeline :=
    (boundaryPlace_le_iff startPlain nowPlain _).mpr notOver
  have afterStart :
      clock.start.timeline ≤ clock.boundaryPlace (index + 1) := by
    rw [← boundaryPlace_zero]
    apply boundaryPlace_mono
    omega
  obtain ⟨boundary, found⟩ :=
    Instant.exists_atTimeline? startPlain nowPlain afterStart reached
  obtain ⟨place, plain⟩ := Instant.atTimeline?_eq_some found
  refine ⟨boundary, found, ?_⟩
  have notLater : boundary ≤ now := by
    rw [Instant.le_iff_timeline plain nowPlain, place]
    exact reached
  rw [boundariesFrom, ← boundaryPlace_succ]
  split
  · next missing =>
      rw [found] at missing
      contradiction
  · next other otherFound =>
      obtain rfl : boundary = other := by
        rw [found] at otherFound
        exact Option.some.inj otherFound
      rw [dif_pos notLater]

/-- When no further period ends by `now`, the list is over. -/
theorem boundariesFrom_of_le
    {index : Int}
    (ended : clock.periods now ≤ index) :
    clock.boundariesFrom now (clock.boundaryPlace index) = [] := by
  rw [boundariesFrom]
  split
  · rfl
  · next boundary found =>
      obtain ⟨place, plain⟩ := Instant.atTimeline?_eq_some found
      rw [dif_neg]
      rw [Instant.le_iff_timeline plain nowPlain, place, ← boundaryPlace_succ,
        boundaryPlace_le_iff startPlain nowPlain]
      omega

theorem length_boundariesFrom
    {index : Int}
    (started : 0 ≤ index)
    (count : Nat)
    (ended : clock.periods now = index + count) :
    (clock.boundariesFrom now (clock.boundaryPlace index)).length = count := by
  induction count generalizing index with
  | zero =>
      rw [boundariesFrom_of_le startPlain nowPlain (by omega), List.length_nil]
  | succ count inductionHypothesis =>
      obtain ⟨boundary, -, shape⟩ :=
        boundariesFrom_of_lt startPlain nowPlain started (by omega)
      rw [shape, List.length_cons, inductionHypothesis (by omega) (by omega)]

/-- The boundaries up to an instant are those up to an earlier one and those after it. -/
theorem boundariesFrom_split
    {middle : Instant}
    (middlePlain : middle.isLeap = false)
    (ordered : middle ≤ now)
    {index : Int}
    (started : 0 ≤ index)
    (count : Nat)
    (ended : clock.periods middle = index + count) :
    clock.boundariesFrom now (clock.boundaryPlace index) =
      clock.boundariesFrom middle (clock.boundaryPlace index) ++
        clock.boundariesFrom now (clock.boundaryPlace (clock.periods middle)) := by
  have increasing := periods_mono startPlain middlePlain nowPlain ordered
  induction count generalizing index with
  | zero =>
      obtain rfl : index = clock.periods middle := by omega
      rw [boundariesFrom_of_le startPlain middlePlain (Int.le_refl _), List.nil_append]
  | succ count inductionHypothesis =>
      obtain ⟨boundary, found, shape⟩ :=
        boundariesFrom_of_lt startPlain nowPlain started (by omega)
      obtain ⟨sameBoundary, sameFound, middleShape⟩ :=
        boundariesFrom_of_lt startPlain middlePlain started (by omega)
      obtain rfl : boundary = sameBoundary := by
        rw [found] at sameFound
        exact Option.some.inj sameFound
      rw [shape, middleShape, inductionHypothesis (by omega) (by omega), List.cons_append]

/--
The boundaries up to an instant are those up to an earlier one and, after it, as
many as periods end between the two.
-/
theorem boundariesUntil_split
    {middle : Instant}
    (middlePlain : middle.isLeap = false)
    (started : clock.start ≤ middle)
    (ordered : middle ≤ now) :
    ∃ later,
      clock.boundariesUntil now = clock.boundariesUntil middle ++ later ∧
        (later.length : Int) = clock.periods now - clock.periods middle ∧
        ∀ boundary ∈ later, middle < boundary := by
  have middleNonneg := periods_nonneg startPlain middlePlain started
  have increasing := periods_mono startPlain middlePlain nowPlain ordered
  refine ⟨clock.boundariesFrom now (clock.boundaryPlace (clock.periods middle)), ?_, ?_, ?_⟩
  · rw [boundariesUntil, boundariesUntil, ← boundaryPlace_zero]
    exact boundariesFrom_split startPlain nowPlain middlePlain ordered (Int.le_refl 0)
      (clock.periods middle).toNat (by omega)
  · rw [length_boundariesFrom startPlain nowPlain middleNonneg
      (clock.periods now - clock.periods middle).toNat (by omega)]
    omega
  · intro boundary member
    obtain ⟨plain, afterPlace, -⟩ := mem_boundariesFrom member
    have notReached :=
      (boundaryPlace_le_iff startPlain middlePlain (clock.periods middle + 1)).not
    rw [Instant.lt_iff_timeline middlePlain plain]
    rw [← boundaryPlace_succ] at afterPlace
    omega

theorem length_boundariesUntil
    (started : clock.start ≤ now) :
    ((clock.boundariesUntil now).length : Int) = clock.periods now := by
  have nonneg := periods_nonneg startPlain nowPlain started
  rw [boundariesUntil, ← boundaryPlace_zero,
    length_boundariesFrom startPlain nowPlain (Int.le_refl 0)
      (clock.periods now).toNat (by omega)]
  omega

end

end Clock

namespace PoolEvent

/-- Plays before every boundary come first. -/
theorem interleave_plays_first
    (boundaries : List Instant)
    {plays : List Instant}
    (before : ∀ played ∈ plays, ∀ boundary ∈ boundaries, played < boundary) :
    interleave boundaries plays =
      plays.map (fun _ => .play) ++ boundaries.map fun _ => .boundary := by
  induction plays with
  | nil =>
      cases boundaries <;> simp [interleave]
  | cons played plays inductionHypothesis =>
      cases boundaries with
      | nil =>
          simp [interleave]
      | cons reached boundaries =>
          have notReached : ¬ reached ≤ played :=
            not_le.mpr (before played (by simp) reached (by simp))
          rw [interleave, if_neg notReached,
            inductionHypothesis
              (fun later member => before later (List.mem_cons_of_mem _ member))]
          simp

/-- The last play splits the timeline: boundaries it does not precede, itself, the others. -/
theorem interleave_concat
    {reached notReached plays : List Instant}
    {played : Instant}
    (before : ∀ boundary ∈ reached, boundary ≤ played)
    (after : ∀ boundary ∈ notReached, played < boundary)
    (ordered : ∀ earlier ∈ plays, earlier ≤ played) :
    interleave (reached ++ notReached) (plays ++ [played]) =
      interleave reached plays ++ .play :: notReached.map fun _ => .boundary := by
  fun_induction interleave reached plays with
  | case1 plays =>
      rw [List.nil_append, interleave_plays_first]
      · simp
      · intro earlier member boundary later
        rcases List.mem_append.mp member with inPlays | isPlayed
        · exact lt_of_le_of_lt (ordered earlier inPlays) (after boundary later)
        · rw [List.mem_singleton.mp isPlayed]
          exact after boundary later
  | case2 boundaries nonempty =>
      clear nonempty
      induction boundaries with
      | nil =>
          rw [List.nil_append, interleave_plays_first]
          · simp
          · simpa using after
      | cons boundary boundaries inductionHypothesis =>
          have first : boundary ≤ played := before boundary (by simp)
          simp only [List.nil_append] at inductionHypothesis
          rw [List.cons_append, List.nil_append, interleave, if_pos first,
            inductionHypothesis
              (fun other member => before other (List.mem_cons_of_mem _ member))]
          simp
  | case3 boundary boundaries earlier plays first inductionHypothesis =>
      rw [List.cons_append, List.cons_append, interleave, if_pos first,
        ← List.cons_append,
        inductionHypothesis
          (fun other member => before other (List.mem_cons_of_mem _ member)) ordered,
        List.cons_append]
  | case4 boundary boundaries earlier plays notFirst inductionHypothesis =>
      rw [List.cons_append, List.cons_append, interleave, if_neg notFirst,
        ← List.cons_append,
        inductionHypothesis before
          (fun other member => ordered other (List.mem_cons_of_mem _ member)),
        List.cons_append]

end PoolEvent

theorem Clock.plain_ofPolicy
    {start : Instant}
    (startPlain : start.isLeap = false)
    (policy : Policy) :
    (Clock.ofPolicy start policy).start.isLeap = false := by
  rw [Clock.start_ofPolicy]
  exact startPlain

namespace Policy

/-- No more tokens than the cap allows. -/
def WithinCap
    (policy : Policy)
    (balance : Int) :
    Prop :=
  ∀ cap, policy.cap = some cap → balance ≤ cap.toNat

/-- The balance after so many boundaries, with the cap applied in the end. -/
def refilled
    (policy : Policy)
    (balance count : Int) :
    Int :=
  policy.capped (balance + count * policy.perPeriod.toNat)

section

variable (policy : Policy)

theorem withinCap_capped (balance : Int) :
    policy.WithinCap (policy.capped balance) := by
  intro cap capped
  simp only [Policy.capped, capped]
  exact Int.min_le_right _ _

variable {policy} in
theorem capped_of_withinCap
    {balance : Int}
    (within : policy.WithinCap balance) :
    policy.capped balance = balance := by
  unfold capped
  split
  · rfl
  · next cap capped =>
      exact Int.min_eq_left (within cap capped)

theorem capped_mono
    {smaller larger : Int}
    (ordered : smaller ≤ larger) :
    policy.capped smaller ≤ policy.capped larger := by
  unfold capped
  split
  · exact ordered
  · omega

/-- Applying the cap before tokens are added makes no difference after it is applied again. -/
theorem capped_capped_add
    (balance : Int)
    {added : Int}
    (nonneg : 0 ≤ added) :
    policy.capped (policy.capped balance + added) = policy.capped (balance + added) := by
  cases capped : policy.cap with
  | none =>
      simp only [Policy.capped, capped]
  | some cap =>
      simp only [Policy.capped, capped]
      omega

theorem withinCap_refilled (balance count : Int) :
    policy.WithinCap (policy.refilled balance count) :=
  policy.withinCap_capped _

@[simp]
theorem refilled_zero (balance : Int) :
    policy.refilled balance 0 = policy.capped balance := by
  simp [refilled]

theorem refilled_of_perPeriod_eq_zero
    (static : policy.perPeriod = 0)
    (balance count : Int) :
    policy.refilled balance count = policy.capped balance := by
  simp [refilled, static]

/-- Boundaries taken in two parts add as much as taken at once. -/
theorem refilled_refilled
    (balance first : Int)
    {second : Int}
    (nonneg : 0 ≤ second) :
    policy.refilled (policy.refilled balance first) second =
      policy.refilled balance (first + second) := by
  have addedNonneg : 0 ≤ second * policy.perPeriod.toNat :=
    Int.mul_nonneg nonneg (Int.natCast_nonneg _)
  rw [refilled, refilled, capped_capped_add _ _ addedNonneg, refilled, Int.add_mul, Int.add_assoc]

theorem refilled_mono
    {smaller larger fewer more : Int}
    (balances : smaller ≤ larger)
    (counts : fewer ≤ more) :
    policy.refilled smaller fewer ≤ policy.refilled larger more := by
  apply capped_mono
  exact Int.add_le_add balances
    (Int.mul_le_mul_of_nonneg_right counts (Int.natCast_nonneg _))

/-- The boundaries of a batch, one by one, add what `refilled` says. -/
theorem foldl_after_boundaries
    (balance : Int)
    (count : Nat) :
    (List.replicate count PoolEvent.boundary).foldl policy.after (policy.capped balance) =
      policy.refilled balance count := by
  induction count generalizing balance with
  | zero =>
      simp
  | succ count inductionHypothesis =>
      have oneBoundary :
          policy.after (policy.capped balance) .boundary =
            policy.capped (balance + policy.perPeriod.toNat) :=
        policy.capped_capped_add balance (Int.natCast_nonneg _)
      rw [List.replicate_succ, List.foldl_cons, oneBoundary, inductionHypothesis]
      simp only [refilled]
      congr 1
      rw [Int.natCast_succ, Int.add_mul, Int.one_mul]
      omega

theorem withinCap_foldl_after
    (events : List PoolEvent)
    {balance : Int}
    (within : policy.WithinCap balance) :
    policy.WithinCap (events.foldl policy.after balance) := by
  induction events generalizing balance with
  | nil =>
      exact within
  | cons event later inductionHypothesis =>
      apply inductionHypothesis
      cases event with
      | boundary =>
          exact policy.withinCap_capped _
      | play =>
          intro cap capped
          have notMore := within cap capped
          simp only [after]
          omega

theorem withinCap_exactBalance
    (initial : UInt32)
    (start : Instant)
    (history : List Instant)
    (now : Instant) :
    policy.WithinCap (policy.exactBalance initial start history now) :=
  policy.withinCap_foldl_after _ (policy.withinCap_capped _)

end

/-- A finite pool whose periods have no length generates nothing. -/
theorem perPeriod_eq_zero
    {policy : Policy}
    {initial : UInt32}
    (enabled : policy.initial = some initial)
    (finite : policy.isInfinite = false)
    (timeless : policy.period.toNanos = 0) :
    policy.perPeriod = 0 := by
  simpa [isInfinite, isEnabled, enabled, timeless] using finite

section

variable
    {policy : Policy}
    {initial : UInt32}
    {start now : Instant}
    (enabled : policy.initial = some initial)
    (finite : policy.isInfinite = false)
    (startPlain : start.isLeap = false)
    (nowPlain : now.isLeap = false)

include enabled finite startPlain nowPlain

/-- Before the first play the pool has its initial tokens and those of the boundaries. -/
theorem exactBalance_nil
    (started : start ≤ now) :
    policy.exactBalance initial start [] now =
      policy.refilled initial.toNat
        ((Clock.ofPolicy start policy).periods now -
          (Clock.ofPolicy start policy).periods start) := by
  by_cases timeless : policy.period.toNanos = 0
  · rw [refilled_of_perPeriod_eq_zero _ (perPeriod_eq_zero enabled finite timeless)]
    simp [exactBalance, events, timeless, PoolEvent.interleave]
  · have clockPlain := Clock.plain_ofPolicy startPlain policy
    have boundaryCount :=
      Clock.length_boundariesUntil clockPlain nowPlain (by simpa using started)
    have startPeriods : (Clock.ofPolicy start policy).periods start = 0 := by
      simpa using (Clock.ofPolicy start policy).periods_start
    rw [startPeriods, Int.sub_zero, ← boundaryCount, ← foldl_after_boundaries, exactBalance,
      events, if_neg timeless,
      PoolEvent.interleave_plays_first _ (by simp), List.map_nil, List.nil_append,
      List.map_const']

/--
The balance after a further play: one less than before it, and what the
boundaries since then have added.
-/
theorem exactBalance_concat
    {history : List Instant}
    {played : Instant}
    (playedPlain : played.isLeap = false)
    (orderly : Orderly start now (history ++ [played])) :
    policy.exactBalance initial start (history ++ [played]) now =
      policy.refilled (policy.exactBalance initial start history played - 1)
        ((Clock.ofPolicy start policy).periods now -
          (Clock.ofPolicy start policy).periods played) := by
  obtain ⟨started, reached⟩ := orderly.last_within
  have notLater : ∀ earlier ∈ history, earlier ≤ played :=
    fun earlier member => (orderly.before_last.within earlier member).2
  have within : policy.WithinCap (policy.exactBalance initial start history played - 1) := by
    intro cap capped
    have notMore := policy.withinCap_exactBalance initial start history played cap capped
    omega
  by_cases timeless : policy.period.toNanos = 0
  · rw [refilled_of_perPeriod_eq_zero _ (perPeriod_eq_zero enabled finite timeless),
      capped_of_withinCap within]
    simp [exactBalance, events, timeless, PoolEvent.interleave, after]
  · have clockPlain := Clock.plain_ofPolicy startPlain policy
    obtain ⟨later, split, laterCount, afterPlay⟩ :=
      Clock.boundariesUntil_split clockPlain nowPlain playedPlain
        (by simpa using started) reached
    have beforePlay :
        ∀ boundary ∈ (Clock.ofPolicy start policy).boundariesUntil played,
          boundary ≤ played :=
      fun _ member => (Clock.mem_boundariesFrom member).2.2
    rw [← laterCount, ← foldl_after_boundaries, capped_of_withinCap within]
    simp only [exactBalance, events, if_neg timeless]
    rw [split, PoolEvent.interleave_concat beforePlay afterPlay notLater,
      List.foldl_append, List.foldl_cons, List.map_const']
    rfl

/-- After the last play only boundaries change the balance. -/
theorem exactBalance_of_le
    {history : List Instant}
    {later : Instant}
    (laterPlain : later.isLeap = false)
    (playsPlain : ∀ played ∈ history, played.isLeap = false)
    (orderly : Orderly start now history)
    (ordered : now ≤ later) :
    policy.exactBalance initial start history later =
      policy.refilled (policy.exactBalance initial start history now)
        ((Clock.ofPolicy start policy).periods later -
          (Clock.ofPolicy start policy).periods now) := by
  have clockPlain := Clock.plain_ofPolicy startPlain policy
  have increasing := Clock.periods_mono clockPlain nowPlain laterPlain ordered
  cases history using List.reverseRecOn with
  | nil =>
      rw [exactBalance_nil enabled finite startPlain nowPlain orderly.started,
        exactBalance_nil enabled finite startPlain laterPlain
          (le_trans orderly.started ordered),
        refilled_refilled _ _ _ (by omega)]
      congr 1
      omega
  | append_singleton history played =>
      have playedPlain : played.isLeap = false := playsPlain played (by simp)
      rw [exactBalance_concat enabled finite startPlain nowPlain playedPlain orderly,
        exactBalance_concat enabled finite startPlain laterPlain playedPlain
          (orderly.until_later ordered),
        refilled_refilled _ _ _ (by omega)]
      congr 1
      omega

end

end Policy

end TokenBudget
