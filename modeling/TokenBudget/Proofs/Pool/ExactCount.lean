import TokenBudget.Proofs.Pool.Agreement

namespace TokenBudget

/-!
# The count of a finite pool

Outside leap seconds a finite pool counts the tokens of its exact balance, as
far as its lifetime and a 32-bit word allow: `Policy.count_eq_exactBalance`.
Taking boundaries in batches, capping only at plays and at the query, and
cutting sums to words cannot be seen from outside.

A play inside a leap second can be placed wrongly among the boundaries, since
elapsed time counts it into the second that follows.
-/

namespace Policy

/-- A pool that still has plays left counts its exact balance. -/
theorem count_eq_exactBalance
    {policy : Policy}
    {initial : UInt32}
    {start now : Instant}
    {history : List Instant}
    {standing : Standing}
    (enabled : policy.initial = some initial)
    (finite : policy.isInfinite = false)
    (startPlain : start.isLeap = false)
    (nowPlain : now.isLeap = false)
    (playsPlain : ∀ played ∈ history, played.isLeap = false)
    (few : history.length < 2 ^ 59)
    (left : ∀ lifetime, policy.lifetime = some lifetime → history.length < lifetime.toNat)
    (answered : policy.standing start history now = .ok standing) :
    ∃ count : UInt32,
      standing.count = .finite count ∧
        (count.toNat : Int) =
          max 0
            (min
              (policy.spendable history.length
                (policy.exactBalance initial start history now))
              4294967295) := by
  have notUsedUp : policy.isExhausted history.length = false := by
    simp only [isExhausted]
    split
    · rfl
    · next lifetime limited =>
        exact decide_eq_false (Nat.not_le.mpr (left lifetime limited))
  rw [count_eq_exactCount startPlain nowPlain playsPlain few answered]
  simp only [exactCount, enabled, finite, notUsedUp]
  exact TokenCount.ofBalance_eq_finite _

/-- A pool of at most three tokens that gains five every ten seconds and allows four plays. -/
def cappedPool : Policy :=
  { disabled with
    initial := some 1
    cap := some 3
    lifetime := some 4
    period := .ofSeconds 10
    perPeriod := 5 }

/-- After a play at 25 seconds the capped pool is full again at 30 seconds. -/
theorem count_eq_exactBalance_cappedPool :
    cappedPool.standing (.onDayZero 0) [.onDayZero 25] (.onDayZero 30) =
        .ok { count := .finite 3, nextGrowth := none, cooldownEnd := none } ∧
      ∃ count : UInt32,
        TokenCount.finite 3 = .finite count ∧
          (count.toNat : Int) =
            max 0
              (min
                (cappedPool.spendable 1
                  (cappedPool.exactBalance 1 (.onDayZero 0) [.onDayZero 25] (.onDayZero 30)))
                4294967295) := by
  have answered :
      cappedPool.standing (.onDayZero 0) [.onDayZero 25] (.onDayZero 30) =
        .ok { count := .finite 3, nextGrowth := none, cooldownEnd := none } := by
    decide
  have left :
      ∀ lifetime, cappedPool.lifetime = some lifetime →
        [Instant.onDayZero 25].length < lifetime.toNat := by
    intro lifetime limited
    cases limited
    decide
  exact ⟨answered,
    count_eq_exactBalance rfl (by decide) (by decide) (by decide) (by decide) (by decide)
      left answered⟩

/-- A pool of one token with a period of a minute and a fifth of a second. -/
def minutePool : Policy :=
  { disabled with
    initial := some 1
    cap := some 1
    period := { seconds := 60, nanos := 200000000, nanos_lt := by decide }
    perPeriod := 1 }

/--
A play in the leap second after 59 seconds precedes the boundary at 60.2 seconds,
which brings the token back; the pool takes the boundary first and counts none.
-/
theorem count_ne_exactBalance_of_leap_play :
    minutePool.initial = some 1 ∧
      minutePool.isInfinite = false ∧
      (Instant.onDayZero 0).isLeap = false ∧
      (Instant.onDayZero 61).isLeap = false ∧
      Orderly (.onDayZero 0) (.onDayZero 61) [.inLeapSecond] ∧
      minutePool.lifetime = none ∧
      (minutePool.standing (.onDayZero 0) [.inLeapSecond] (.onDayZero 61)).map
          Standing.count =
        .ok (.finite 0) ∧
      minutePool.exactBalance 1 (.onDayZero 0) [.inLeapSecond] (.onDayZero 61) = 1 := by
  refine ⟨rfl, by decide, by decide, by decide, ?_, rfl, by decide, by decide +kernel⟩
  exact timelineFault?_eq_none_iff.mp (by decide)

end Policy

end TokenBudget
