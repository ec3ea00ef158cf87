import TokenBudget.Proofs.Pool.Agreement

namespace TokenBudget

/-!
# Spending within the rules of a pool

`Policy.Observed` says that a history keeps the rules of a pool: its exact
balance never falls below zero, the lifetime is not exceeded, and plays lie a
cooldown apart.  A play at an instant at which the pool has a token and no
cooldown keeps the rules: `Policy.Observed.play`.

No limit on the length of the history is needed here.  Cutting sums to words
only takes tokens away from a balance that is not below zero, so a replayed
token is there exactly as well.
-/

/-- Something holds of every entry of a list and the entries before it. -/
def AtEach
    (holds : List Entry → Entry → Prop)
    (entries : List Entry) :
    Prop :=
  ∀ earlier entry later,
    entries = earlier ++ entry :: later →
    holds earlier entry

@[simp]
theorem atEach_nil
    (holds : List Entry → Entry → Prop) :
    AtEach holds [] := by
  simp [AtEach]

/-- What holds at each entry holds before the last entry and at it. -/
theorem atEach_concat
    {holds : List Entry → Entry → Prop}
    {entries : List Entry}
    {last : Entry} :
    AtEach holds (entries ++ [last]) ↔ AtEach holds entries ∧ holds entries last := by
  constructor
  · intro atEach
    refine ⟨?_, atEach entries last [] rfl⟩
    intro earlier entry later shape
    exact atEach earlier entry (later ++ [last]) (by simp [shape])
  · rintro ⟨atEach, atLast⟩ earlier entry later shape
    cases later using List.reverseRecOn with
    | nil =>
        obtain ⟨sameEntries, sameLast⟩ := List.append_inj' shape rfl
        cases sameLast
        rw [← sameEntries]
        exact atLast
    | append_singleton before other =>
        rw [← List.cons_append, ← List.append_assoc] at shape
        exact atEach earlier entry before (List.append_inj' shape rfl).1

theorem atEach_pair
    {holds : List Entry → Entry → Prop}
    {first second : Entry} :
    AtEach holds [first, second] ↔ holds [] first ∧ holds [first] second := by
  have beforeSecond : AtEach holds [first] ↔ AtEach holds [] ∧ holds [] first :=
    @atEach_concat _ holds [] first
  have all : AtEach holds [first, second] ↔ AtEach holds [first] ∧ holds [first] second :=
    @atEach_concat _ holds [first] second
  simp [all, beforeSecond]

namespace Policy

/-- A history that keeps the rules of a pool. -/
structure Observed
    (policy : Policy)
    (start : Instant)
    (history : List Instant) :
    Prop where
  /-- Nothing is played in a disabled pool. -/
  closed :
    policy.initial = none →
    history = []
  /-- The exact balance after each play is not below zero. -/
  solvent :
    ∀ initial,
      policy.initial = some initial →
      policy.isInfinite = false →
      AtEach
        (fun earlier played =>
          0 ≤ policy.exactBalance initial start (earlier ++ [played]) played)
        history
  /-- The lifetime is not exceeded. -/
  limited :
    policy.isInfinite = false →
    ∀ lifetime,
      policy.lifetime = some lifetime →
      history.length ≤ lifetime.toNat
  /-- Two plays are at least a cooldown apart. -/
  apart :
    history.Pairwise fun earlier later =>
      (policy.cooldown.toNanos : Int) ≤ earlier.elapsed later

theorem Observed.nil
    (policy : Policy)
    (start : Instant) :
    policy.Observed start [] where
  closed _ := rfl
  solvent := by simp
  limited := by simp
  apart := .nil

section

variable
    {policy : Policy}
    {initial : UInt32}
    {start now : Instant}
    {history : List Instant}

theorem exactBalance_play
    (enabled : policy.initial = some initial)
    (finite : policy.isInfinite = false)
    (startPlain : start.isLeap = false)
    (nowPlain : now.isLeap = false)
    (orderly : Orderly start now history) :
    policy.exactBalance initial start (history ++ [now]) now =
      policy.exactBalance initial start history now - 1 := by
  rw [exactBalance_concat enabled finite startPlain nowPlain nowPlain orderly.concat,
    Int.sub_self, refilled_zero]
  apply capped_of_withinCap
  intro cap capped
  have notMore := policy.withinCap_exactBalance initial start history now cap capped
  omega

/-- Boundaries added in one cut sum are no more than those of a balance that is not below zero. -/
theorem accrue_le_refilled
    {clock : Clock}
    {earlier later : Instant}
    {replayed exact : Int}
    (startPlain : clock.start.isLeap = false)
    (earlierPlain : earlier.isLeap = false)
    (laterPlain : later.isLeap = false)
    (ordered : earlier ≤ later)
    (notMore : replayed ≤ exact)
    (nonneg : 0 ≤ exact) :
    policy.accrue clock replayed earlier later ≤
      policy.refilled exact (clock.periods later - clock.periods earlier) := by
  have increasing := Clock.periods_mono startPlain earlierPlain laterPlain ordered
  have addedNonneg :
      0 ≤ (clock.periods later - clock.periods earlier) * (policy.perPeriod.toNat : Int) :=
    Int.mul_nonneg (by omega) (Int.natCast_nonneg _)
  rw [accrue_eq startPlain earlierPlain laterPlain ordered, refilled]
  apply capped_mono
  simp only [saturate, largestWord_64, smallestWord_64]
  omega

/-- In a history that keeps the rules the replayed balance is no more than the exact one. -/
theorem replay_le_exactBalance
    (enabled : policy.initial = some initial)
    (finite : policy.isInfinite = false)
    (startPlain : start.isLeap = false)
    (nowPlain : now.isLeap = false)
    (playsPlain : ∀ played ∈ history, played.isLeap = false)
    (orderly : Orderly start now history)
    (solvent :
      AtEach
        (fun earlier played =>
          0 ≤ policy.exactBalance initial start (earlier ++ [played]) played)
        history) :
    policy.replay (Clock.ofPolicy start policy) now initial.toNat start history ≤
      policy.exactBalance initial start history now := by
  have clockPlain := Clock.plain_ofPolicy startPlain policy
  induction history using List.reverseRecOn generalizing now with
  | nil =>
      rw [exactBalance_nil enabled finite startPlain nowPlain orderly.started, replay]
      exact accrue_le_refilled clockPlain startPlain nowPlain orderly.started (Int.le_refl _)
        (Int.natCast_nonneg _)
  | append_singleton history played inductionHypothesis =>
      have playedPlain : played.isLeap = false := playsPlain played (by simp)
      obtain ⟨solventBefore, afterPlay⟩ := atEach_concat.mp solvent
      have before :=
        inductionHypothesis playedPlain
          (fun earlier member => playsPlain earlier (by simp [member]))
          orderly.before_last solventBefore
      rw [exactBalance_play enabled finite startPlain playedPlain orderly.before_last]
        at afterPlay
      rw [exactBalance_concat enabled finite startPlain nowPlain playedPlain orderly,
        replay_concat]
      exact accrue_le_refilled clockPlain playedPlain nowPlain orderly.last_within.2
        (by omega) afterPlay

theorem whileRunning_eq_none_iff
    {ends? : Option Instant} :
    whileRunning now ends? = .ok none ↔ ∃ ends, ends? = some ends ∧ ends ≤ now := by
  cases ends? with
  | none =>
      simp [whileRunning]
  | some ends =>
      simp [whileRunning, not_lt]

/-- Once no cooldown runs, the last play is a cooldown ago. -/
theorem cooldown_le_of_cooldownEnd
    {last : Instant}
    (lastPlain : last.isLeap = false)
    (nowPlain : now.isLeap = false)
    (isLast : history.getLast? = some last)
    (cooled : policy.cooldownEnd history now = .ok none) :
    (policy.cooldown.toNanos : Int) ≤ last.elapsed now := by
  rw [cooldownEnd, isLast] at cooled
  obtain ⟨ends, moved, passed⟩ := whileRunning_eq_none_iff.mp cooled
  obtain ⟨place, endsPlain⟩ := Instant.timeline_of_shift? lastPlain moved
  have reached := (Instant.le_iff_timeline endsPlain nowPlain).mp passed
  rw [Instant.elapsed_of_not_leap lastPlain nowPlain]
  omega

/-- A play without a cooldown lies a cooldown after every play before it. -/
theorem apart_concat
    (nowPlain : now.isLeap = false)
    (playsPlain : ∀ played ∈ history, played.isLeap = false)
    (orderly : Orderly start now history)
    (cooled : policy.cooldownEnd history now = .ok none)
    (apart :
      history.Pairwise fun earlier later =>
        (policy.cooldown.toNanos : Int) ≤ earlier.elapsed later) :
    (history ++ [now]).Pairwise fun earlier later =>
      (policy.cooldown.toNanos : Int) ≤ earlier.elapsed later := by
  rw [List.pairwise_append]
  refine ⟨apart, List.pairwise_singleton _ _, ?_⟩
  intro earlier member later isNow
  rw [List.mem_singleton.mp isNow]
  cases history using List.reverseRecOn with
  | nil =>
      contradiction
  | append_singleton before last =>
      have earlierPlain := playsPlain earlier member
      have lastPlain := playsPlain last (by simp)
      have lastApart :=
        cooldown_le_of_cooldownEnd lastPlain nowPlain (by simp) cooled
      have inOrder : earlier ≤ last := by
        rcases List.mem_append.mp member with inBefore | isLast
        · exact (orderly.before_last.within earlier inBefore).2
        · exact le_of_eq (List.mem_singleton.mp isLast)
      have timelineOrder := (Instant.le_iff_timeline earlierPlain lastPlain).mp inOrder
      rw [Instant.elapsed_of_not_leap lastPlain nowPlain] at lastApart
      rw [Instant.elapsed_of_not_leap earlierPlain nowPlain]
      omega

/-- With a token in the replayed balance, a play leaves no exact balance below zero. -/
theorem solvent_concat
    (enabled : policy.initial = some initial)
    (finite : policy.isInfinite = false)
    (startPlain : start.isLeap = false)
    (nowPlain : now.isLeap = false)
    (playsPlain : ∀ played ∈ history, played.isLeap = false)
    (orderly : Orderly start now history)
    (solvent :
      AtEach
        (fun earlier played =>
          0 ≤ policy.exactBalance initial start (earlier ++ [played]) played)
        history)
    (token :
      1 ≤ policy.replay (Clock.ofPolicy start policy) now initial.toNat start history) :
    AtEach
      (fun earlier played =>
        0 ≤ policy.exactBalance initial start (earlier ++ [played]) played)
      (history ++ [now]) := by
  have replayed :=
    replay_le_exactBalance enabled finite startPlain nowPlain playsPlain orderly solvent
  refine atEach_concat.mpr ⟨solvent, ?_⟩
  rw [exactBalance_play enabled finite startPlain nowPlain orderly]
  omega

/-- A pool that lets a play through has not used up its lifetime. -/
theorem length_lt_lifetime
    {standing : Standing}
    {lifetime : UInt32}
    (answered : policy.standing start history now = .ok standing)
    (canPlay : standing.canPlay = true)
    (finite : policy.isInfinite = false)
    (limited : policy.lifetime = some lifetime) :
    history.length < lifetime.toNat := by
  cases standing_eq_ok_iff.mp answered with
  | disabled off =>
      contradiction
  | infinite enabled orderly cooling endless =>
      rw [finite] at endless
      contradiction
  | exhausted enabled orderly cooling finite usedUp =>
      contradiction
  | counted enabled orderly cooling finite left replayed growing =>
      simpa [isExhausted, limited] using left

/-- A play at an instant at which a pool lets one through keeps the rules of the pool. -/
theorem Observed.play
    {standing : Standing}
    (observed : policy.Observed start history)
    (startPlain : start.isLeap = false)
    (nowPlain : now.isLeap = false)
    (playsPlain : ∀ played ∈ history, played.isLeap = false)
    (answered : policy.standing start history now = .ok standing)
    (canPlay : standing.canPlay = true) :
    policy.Observed start (history ++ [now]) := by
  obtain ⟨token, cooled⟩ := Standing.canPlay_iff.mp canPlay
  cases standing_eq_ok_iff.mp answered with
  | disabled off =>
      contradiction
  | infinite enabled orderly cooling endless =>
      subst cooled
      exact {
        closed := by simp [enabled]
        solvent := by simp [endless]
        limited := by simp [endless]
        apart := apart_concat nowPlain playsPlain orderly cooling observed.apart }
  | exhausted enabled orderly cooling finite usedUp =>
      contradiction
  | counted enabled orderly cooling finite left replayed growing =>
      subst cooled replayed
      have spendable := TokenCount.any_ofBalance_iff.mp token
      rw [fst_withinLifetime] at spendable
      exact {
        closed := by simp [enabled]
        solvent := by
          intro initial sameInitial _
          cases enabled.symm.trans sameInitial
          exact solvent_concat enabled finite startPlain nowPlain playsPlain orderly
            (observed.solvent _ enabled finite)
            (le_trans spendable (policy.spendable_le _ _))
        limited := by
          intro _ lifetime limited
          rw [List.length_append, List.length_singleton]
          exact length_lt_lifetime answered canPlay finite limited
        apart := apart_concat nowPlain playsPlain orderly cooling observed.apart }

end

end Policy

end TokenBudget
