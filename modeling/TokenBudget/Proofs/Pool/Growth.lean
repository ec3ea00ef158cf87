import TokenBudget.Proofs.Pool.Agreement

namespace TokenBudget

/-!
# When the count of a pool grows

A pool can grow while it generates tokens, is below its cap, and has more plays
left than tokens: `Policy.CanGrow`.  Then the next boundary brings more tokens,
and otherwise no boundary does.  `Forecast` is what a standing
tells about all later instants, and `Policy.forecast_of_standing` says that the
standing of a pool tells it.
-/

/--
What a standing tells about later queries of the same question, as long as no
further play is made.
-/
structure Forecast
    {Refusal : Type}
    (ask : Instant → Except Refusal Standing)
    (now : Instant)
    (standing : Standing) :
    Prop where
  /-- The count does not fall. -/
  rises :
    ∀ {later after},
      later.isLeap = false →
      now ≤ later →
      ask later = .ok after →
      standing.count ≤ after.count
  /-- The count stays the same until it is said to grow. -/
  steady :
    ∀ {later after},
      later.isLeap = false →
      now ≤ later →
      (∀ growth, standing.nextGrowth = some growth → later < growth) →
      ask later = .ok after →
      after.count = standing.count
  /-- Growth is still to come. -/
  ahead :
    ∀ {growth},
      standing.nextGrowth = some growth →
      now < growth ∧ growth.isLeap = false
  /-- The count has grown when it is said to. -/
  grown :
    ∀ {growth later after},
      standing.nextGrowth = some growth →
      later.isLeap = false →
      growth ≤ later →
      ask later = .ok after →
      standing.count < .finite 4294967295 →
      standing.count < after.count

/-- A count that never changes, with no growth reported. -/
theorem Forecast.of_unchanging
    {Refusal : Type}
    {ask : Instant → Except Refusal Standing}
    {now : Instant}
    {standing : Standing}
    (unchanging :
      ∀ {later after},
        later.isLeap = false →
        now ≤ later →
        ask later = .ok after →
        after.count = standing.count)
    (noGrowth : standing.nextGrowth = none) :
    Forecast ask now standing where
  rises plain ordered answered :=
    le_of_eq (unchanging plain ordered answered).symm
  steady plain ordered _ answered :=
    unchanging plain ordered answered
  ahead growing := by
    rw [noGrowth] at growing
    contradiction
  grown growing := by
    rw [noGrowth] at growing
    contradiction

namespace Policy

/-- A further boundary adds tokens that can be spent. -/
def CanGrow
    (policy : Policy)
    (played : Nat)
    (balance : Int) :
    Prop :=
  0 < policy.perPeriod.toNat ∧
    (∀ cap, policy.cap = some cap → balance < cap.toNat) ∧
    ∀ lifetime, policy.lifetime = some lifetime → balance < lifetime.toNat - played

section

variable
    {policy : Policy}
    {balance count : Int}

theorem le_refilled
    (within : policy.WithinCap balance)
    (nonneg : 0 ≤ count) :
    balance ≤ policy.refilled balance count := by
  have zeroBoundaries : policy.refilled balance 0 = balance := by
    rw [refilled_zero, capped_of_withinCap within]
  have more := policy.refilled_mono (Int.le_refl balance) nonneg
  rwa [zeroBoundaries] at more

theorem spendable_mono
    (policy : Policy)
    (played : Nat)
    {smaller larger : Int}
    (ordered : smaller ≤ larger) :
    policy.spendable played smaller ≤ policy.spendable played larger := by
  unfold spendable
  split
  · exact ordered
  · omega

theorem CanGrow.spendable_eq
    {played : Nat}
    (canGrow : policy.CanGrow played balance) :
    policy.spendable played balance = balance := by
  unfold spendable
  split
  · rfl
  · next lifetime limited =>
      exact Int.min_eq_left (Int.le_of_lt (canGrow.2.2 lifetime limited))

/-- A boundary adds to what a pool that can grow has to spend. -/
theorem CanGrow.lt_spendable_refilled
    {played : Nat}
    (canGrow : policy.CanGrow played balance)
    (positive : 0 < count) :
    balance < policy.spendable played (policy.refilled balance count) := by
  obtain ⟨generates, belowCap, playsLeft⟩ := canGrow
  have added : 0 < count * (policy.perPeriod.toNat : Int) :=
    Int.mul_pos positive (by exact_mod_cast generates)
  have grown : balance < policy.refilled balance count := by
    unfold refilled capped
    split
    · omega
    · next cap capped =>
        have room := belowCap cap capped
        omega
  unfold spendable
  split
  · exact grown
  · next lifetime limited =>
      have left := playsLeft lifetime limited
      omega

/-- No number of boundaries adds to what a pool that cannot grow has to spend. -/
theorem spendable_refilled_of_not_canGrow
    {played : Nat}
    (within : policy.WithinCap balance)
    (cannotGrow : ¬ policy.CanGrow played balance)
    (nonneg : 0 ≤ count) :
    policy.spendable played (policy.refilled balance count) =
      policy.spendable played balance := by
  have notLess := le_refilled within nonneg
  by_cases generates : 0 < policy.perPeriod.toNat
  · by_cases belowCap : ∀ cap, policy.cap = some cap → balance < cap.toNat
    · have usedUp :
          ¬ ∀ lifetime, policy.lifetime = some lifetime → balance < lifetime.toNat - played :=
        fun playsLeft => cannotGrow ⟨generates, belowCap, playsLeft⟩
      simp only [not_forall] at usedUp
      obtain ⟨lifetime, limited, notLeft⟩ := usedUp
      simp only [spendable, limited]
      rw [Int.min_eq_right (by omega), Int.min_eq_right (by omega)]
    · simp only [not_forall] at belowCap
      obtain ⟨cap, capped, full⟩ := belowCap
      have notMore := policy.withinCap_refilled balance count cap capped
      have same : policy.refilled balance count = balance := by omega
      rw [same]
  · have static : policy.perPeriod.toNat = 0 := by omega
    have same : policy.refilled balance count = balance := by
      simp only [refilled, static]
      simpa using capped_of_withinCap within
    rw [same]

end

section

variable
    {policy : Policy}
    {clock : Clock}
    {now : Instant}
    {played : Nat}
    {replayed exact : Int}
    {nextGrowth : Option Instant}

theorem isSaturated_eq_false_iff
    (policy : Policy)
    (balance : Int) :
    policy.isSaturated balance = false ↔
      ∀ cap, policy.cap = some cap → balance < cap.toNat := by
  cases capped : policy.cap with
  | none =>
      simp [isSaturated, capped]
  | some cap =>
      simp [isSaturated, capped]

/-- Where replayed and exact balance agree, either can grow when the other can. -/
theorem canGrow_iff_of_agrees
    (few : played < 2 ^ 59)
    (agrees : Agrees played replayed exact) :
    policy.CanGrow played replayed ↔ policy.CanGrow played exact := by
  have sameCaps (cap : UInt32) : replayed < cap.toNat ↔ exact < cap.toNat := by
    have capSmall := cap.toNat_lt
    exact agrees.lt_iff (Nat.le_of_lt few) (by omega)
  have sameLifetimes (lifetime : UInt32) :
      replayed < lifetime.toNat - played ↔ exact < lifetime.toNat - played := by
    have lifetimeSmall := lifetime.toNat_lt
    exact agrees.lt_iff (Nat.le_of_lt few) (by omega)
  simp only [CanGrow, sameCaps, sameLifetimes]

/-- Before the lifetime is looked at, growth is the next boundary while there is room for tokens. -/
theorem nextGrowth_cases
    (growing : policy.nextGrowth clock now replayed = .ok nextGrowth) :
    (0 < policy.perPeriod.toNat ∧
        (∀ cap, policy.cap = some cap → replayed < cap.toNat) ∧
        ∃ growth,
          clock.nextBoundary? now = some growth ∧ nextGrowth = some growth) ∨
      (¬ (0 < policy.perPeriod.toNat ∧
            ∀ cap, policy.cap = some cap → replayed < cap.toNat) ∧
        nextGrowth = none) := by
  have generates : 0 < policy.perPeriod ↔ 0 < policy.perPeriod.toNat :=
    UInt32.lt_iff_toNat_lt
  simp only [← policy.isSaturated_eq_false_iff]
  by_cases room : 0 < policy.perPeriod.toNat ∧ policy.isSaturated replayed = false
  · left
    simp only [Policy.nextGrowth, generates, room.1, room.2] at growing
    cases found : clock.nextBoundary? now with
    | none =>
        simp [found] at growing
    | some boundary =>
        obtain rfl : some boundary = nextGrowth := by
          simpa [found] using growing
        exact ⟨room.1, room.2, boundary, rfl, rfl⟩
  · right
    have closed :
        (decide (0 < policy.perPeriod) && !policy.isSaturated replayed) = false := by
      simpa [generates] using room
    simp only [Policy.nextGrowth, closed] at growing
    exact ⟨room, by simpa using growing.symm⟩

theorem snd_withinLifetime_none :
    (policy.withinLifetime played replayed none).2 = none := by
  unfold withinLifetime
  split
  · rfl
  · dsimp only
    split <;> rfl

/-- Growth that finds plays left is reported. -/
theorem snd_withinLifetime_of_left
    (playsLeft :
      ∀ lifetime, policy.lifetime = some lifetime → replayed < lifetime.toNat - played) :
    (policy.withinLifetime played replayed nextGrowth).2 = nextGrowth := by
  unfold withinLifetime
  split
  · rfl
  · next lifetime limited =>
      have left := playsLeft lifetime limited
      dsimp only
      rw [if_neg (by omega)]

/-- Growth for which no plays are left is not reported. -/
theorem snd_withinLifetime_of_usedUp
    {lifetime : UInt32}
    (limited : policy.lifetime = some lifetime)
    (usedUp : (lifetime.toNat : Int) - played ≤ replayed) :
    (policy.withinLifetime played replayed nextGrowth).2 = none := by
  simp only [withinLifetime, limited, if_pos usedUp]

/-- The growth that a pool reports is its next boundary if it can grow, and none if it cannot. -/
theorem growth_cases
    (growing : policy.nextGrowth clock now replayed = .ok nextGrowth) :
    (policy.CanGrow played replayed ∧
        ∃ growth,
          clock.nextBoundary? now = some growth ∧
            (policy.withinLifetime played replayed nextGrowth).2 = some growth) ∨
      (¬ policy.CanGrow played replayed ∧
        (policy.withinLifetime played replayed nextGrowth).2 = none) := by
  rcases nextGrowth_cases growing with
    ⟨generates, belowCap, growth, found, rfl⟩ | ⟨noRoom, rfl⟩
  · by_cases playsLeft :
        ∀ lifetime, policy.lifetime = some lifetime → replayed < lifetime.toNat - played
    · exact .inl ⟨⟨generates, belowCap, playsLeft⟩, growth, found,
        snd_withinLifetime_of_left playsLeft⟩
    · have cannotGrow : ¬ policy.CanGrow played replayed :=
        fun canGrow => playsLeft canGrow.2.2
      simp only [not_forall] at playsLeft
      obtain ⟨lifetime, limited, usedUp⟩ := playsLeft
      exact .inr ⟨cannotGrow, snd_withinLifetime_of_usedUp limited (Int.not_lt.mp usedUp)⟩
  · exact .inr ⟨fun canGrow => noRoom ⟨canGrow.1, canGrow.2.1⟩, snd_withinLifetime_none⟩

end

/-- Counts that come from one balance: the one now, and later ones through boundaries alone. -/
structure Refills
    (policy : Policy)
    (clock : Clock)
    (played : Nat)
    (balance : Int)
    (ask : Instant → Except Fault Standing)
    (now : Instant)
    (standing : Standing) :
    Prop where
  nowCount :
    standing.count = .ofBalance (policy.spendable played balance)
  laterCount :
    ∀ {later after},
      later.isLeap = false →
      now ≤ later →
      ask later = .ok after →
      after.count =
        .ofBalance
          (policy.spendable played
            (policy.refilled balance (clock.periods later - clock.periods now)))

section

variable
    {policy : Policy}
    {clock : Clock}
    {played : Nat}
    {balance : Int}
    {ask : Instant → Except Fault Standing}
    {now : Instant}
    {standing : Standing}
    (refills : policy.Refills clock played balance ask now standing)
    (clockPlain : clock.start.isLeap = false)
    (nowPlain : now.isLeap = false)
    (within : policy.WithinCap balance)

include refills clockPlain nowPlain within

/-- A pool that can grow reports the boundary at which it does. -/
theorem Refills.forecast_of_canGrow
    {growth : Instant}
    (solvent : 0 ≤ balance)
    (canGrow : policy.CanGrow played balance)
    (found : clock.nextBoundary? now = some growth)
    (reported : standing.nextGrowth = some growth) :
    Forecast ask now standing := by
  constructor
  case rises =>
    intro later after laterPlain ordered answered
    have increasing := Clock.periods_mono clockPlain nowPlain laterPlain ordered
    rw [refills.nowCount, refills.laterCount laterPlain ordered answered]
    exact TokenCount.ofBalance_mono
      (policy.spendable_mono _ (le_refilled within (by omega)))
  case steady =>
    intro later after laterPlain ordered notYet answered
    have samePeriods :=
      Clock.periods_eq_of_lt_nextBoundary? clockPlain nowPlain found laterPlain ordered
        (notYet growth reported)
    rw [refills.nowCount, refills.laterCount laterPlain ordered answered, samePeriods,
      Int.sub_self, refilled_zero, capped_of_withinCap within]
  case ahead =>
    intro other otherReported
    obtain rfl := Option.some.inj (reported.symm.trans otherReported)
    exact ⟨Clock.lt_nextBoundary? clockPlain nowPlain found,
      (Clock.nextBoundary?_place clockPlain found).2⟩
  case grown =>
    intro other later after otherReported laterPlain reached answered below
    obtain rfl := Option.some.inj (reported.symm.trans otherReported)
    have ordered : now ≤ later :=
      le_trans (le_of_lt (Clock.lt_nextBoundary? clockPlain nowPlain found)) reached
    have morePeriods :=
      Clock.lt_periods_of_nextBoundary?_le clockPlain found laterPlain reached
    rw [refills.nowCount, canGrow.spendable_eq] at below
    rw [refills.nowCount, canGrow.spendable_eq,
      refills.laterCount laterPlain ordered answered]
    exact TokenCount.ofBalance_lt solvent
      (canGrow.lt_spendable_refilled (by omega)) below

/-- A pool that cannot grow keeps its count. -/
theorem Refills.forecast_of_not_canGrow
    (cannotGrow : ¬ policy.CanGrow played balance)
    (noGrowth : standing.nextGrowth = none) :
    Forecast ask now standing := by
  refine Forecast.of_unchanging ?_ noGrowth
  intro later after laterPlain ordered answered
  have increasing := Clock.periods_mono clockPlain nowPlain laterPlain ordered
  rw [refills.nowCount, refills.laterCount laterPlain ordered answered,
    spendable_refilled_of_not_canGrow within cannotGrow (by omega)]

end

/--
A standing tells its later counts when a balance that is not below zero explains
them and can grow when the replayed one can.
-/
theorem forecast_of_refills
    {policy : Policy}
    {start now : Instant}
    {history : List Instant}
    {standing : Standing}
    (startPlain : start.isLeap = false)
    (nowPlain : now.isLeap = false)
    (answered : policy.standing start history now = .ok standing)
    (explained :
      ∀ initial,
        policy.initial = some initial →
        Orderly start now history →
        policy.isInfinite = false →
        policy.isExhausted history.length = false →
        ∃ balance,
          policy.WithinCap balance ∧
            0 ≤ balance ∧
            policy.Refills (Clock.ofPolicy start policy) history.length balance
              (policy.standing start history) now standing ∧
            (policy.CanGrow history.length
                (policy.replay (Clock.ofPolicy start policy) now initial.toNat start
                  history) ↔
              policy.CanGrow history.length balance)) :
    Forecast (policy.standing start history) now standing := by
  have clockPlain := Clock.plain_ofPolicy startPlain policy
  cases fixed : policy.fixedCount? history.length with
  | some count =>
      obtain ⟨counts, noGrowth⟩ := count_of_fixedCount? fixed answered
      refine Forecast.of_unchanging ?_ noGrowth
      intro later after _ _ laterAnswered
      rw [counts, (count_of_fixedCount? fixed laterAnswered).1]
  | none =>
      obtain ⟨-, notEndless, notUsedUp⟩ := fixedCount?_eq_none_iff.mp fixed
      cases standing_eq_ok_iff.mp answered with
      | disabled off =>
          simp [fixedCount?, isEnabled, off] at fixed
      | infinite _ _ _ endless =>
          rw [notEndless] at endless
          contradiction
      | exhausted _ _ _ _ usedUp =>
          rw [notUsedUp] at usedUp
          contradiction
      | @counted initial _ nextGrowth replayedBalance enabled orderly _ finite left replayed
          growing =>
          obtain ⟨balance, within, solvent, refills, sameGrowth⟩ :=
            explained initial enabled orderly finite left
          rw [replayed] at sameGrowth
          rcases growth_cases growing with
            ⟨canGrow, growth, found, reported⟩ | ⟨cannotGrow, reported⟩
          · exact refills.forecast_of_canGrow clockPlain nowPlain within solvent
              (sameGrowth.mp canGrow) found reported
          · exact refills.forecast_of_not_canGrow clockPlain nowPlain within
              (sameGrowth.not.mp cannotGrow) reported

/-- While a pool counts its tokens, it has not spent more than it had. -/
def SolventAt
    (policy : Policy)
    (start : Instant)
    (history : List Instant)
    (now : Instant) :
    Prop :=
  ∀ initial,
    policy.initial = some initial →
    policy.isInfinite = false →
    policy.isExhausted history.length = false →
    0 ≤ policy.exactBalance initial start history now

section

variable
    {policy : Policy}
    {start now : Instant}
    {history : List Instant}
    {standing : Standing}

variable
    (startPlain : start.isLeap = false)
    (nowPlain : now.isLeap = false)
    (playsPlain : ∀ played ∈ history, played.isLeap = false)
    (few : history.length < 2 ^ 59)

include startPlain playsPlain few

include nowPlain

/-- The counts of a pool that counts its tokens come from its exact balance. -/
theorem refills_of_counted
    {initial : UInt32}
    (enabled : policy.initial = some initial)
    (orderly : Orderly start now history)
    (finite : policy.isInfinite = false)
    (left : policy.isExhausted history.length = false)
    (answered : policy.standing start history now = .ok standing) :
    policy.Refills (Clock.ofPolicy start policy) history.length
      (policy.exactBalance initial start history now) (policy.standing start history) now
      standing where
  nowCount := by
    rw [count_eq_exactCount startPlain nowPlain playsPlain few answered]
    simp only [exactCount, enabled, finite, left]
    rfl
  laterCount := by
    intro later after laterPlain ordered laterAnswered
    rw [count_eq_exactCount startPlain laterPlain playsPlain few laterAnswered,
      ← exactBalance_of_le enabled finite startPlain nowPlain laterPlain playsPlain orderly
        ordered]
    simp only [exactCount, enabled, finite, left]
    rfl

/-- The standing of a solvent pool tells its later counts. -/
theorem forecast_of_standing
    (solvent : policy.SolventAt start history now)
    (answered : policy.standing start history now = .ok standing) :
    Forecast (policy.standing start history) now standing := by
  apply forecast_of_refills startPlain nowPlain answered
  intro initial enabled orderly finite left
  refine ⟨policy.exactBalance initial start history now,
    policy.withinCap_exactBalance initial start history now,
    solvent initial enabled finite left,
    refills_of_counted startPlain nowPlain playsPlain few enabled orderly finite left answered,
    ?_⟩
  exact canGrow_iff_of_agrees few
    (agrees_replay enabled finite startPlain nowPlain playsPlain orderly (Nat.le_of_lt few))

end

end Policy

end TokenBudget
