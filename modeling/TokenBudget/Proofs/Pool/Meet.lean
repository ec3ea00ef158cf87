import Mathlib.Order.Bounds.Basic
import Mathlib.Order.WithBot
import TokenBudget.Proofs.Pool.JointGrowth

namespace TokenBudget

/-!
# Standings taken together

A standing with so many tokens says when its count rises above that number: never,
if no growth is to come.  Above a smaller number it lies from the first.  Two pools
together are above a number once both are, so the later of two instants decides:
`Standing.above_meet`.  With the smaller count and the later cooldown this makes
`Standing.meet` commutative and associative, and the other laws of `Standing.meet_laws`
follow in the same way.
-/

namespace Standing

/-- An instant, or a place after all instants where there is none. -/
def orNever : Option Instant → WithTop Instant
  | none => ⊤
  | some instant => instant

/-- An instant, or a place before all instants where there is none. -/
def orBefore : Option Instant → WithBot Instant
  | none => ⊥
  | some instant => instant

theorem orNever_injective {first second : Option Instant}
    (same : orNever first = orNever second) :
    first = second := by
  cases first <;> cases second <;> simp_all [orNever]

theorem orBefore_injective {first second : Option Instant}
    (same : orBefore first = orBefore second) :
    first = second := by
  cases first <;> cases second <;> simp_all [orBefore]

theorem later_eq_max (first second : Instant) :
    first.later second = max first second := by
  rcases first.later_cases second with ⟨ordered, isLater⟩ | ⟨ordered, isLater⟩
  · rw [isLater, max_eq_right ordered]
  · rw [isLater, max_eq_left (le_of_lt ordered)]

/-- Both of two instants have come when the later has. -/
theorem orNever_bothBy (first second : Option Instant) :
    orNever (bothBy first second) = max (orNever first) (orNever second) := by
  cases first with
  | none =>
      simp [bothBy, orNever]
  | some first =>
      cases second with
      | none => simp [bothBy, orNever]
      | some second => simp [bothBy, orNever, later_eq_max]

theorem orBefore_laterOf (first second : Option Instant) :
    orBefore (laterOf first second) = max (orBefore first) (orBefore second) := by
  cases first with
  | none =>
      cases second <;> simp [laterOf, orBefore]
  | some first =>
      cases second with
      | none => simp [laterOf, orBefore]
      | some second => simp [laterOf, orBefore, later_eq_max]

/--
When a count that is no less than a level rises above it: from the first if it is
above, and otherwise when it next grows.
-/
def above
    (standing : Standing)
    (level : UInt32) :
    WithBot (WithTop Instant) :=
  if .finite level < standing.count then ⊥ else orNever standing.nextGrowth

variable
    {first second third : Standing}
    {level : UInt32}

theorem above_of_lt
    (beyond : .finite level < first.count) :
    first.above level = ⊥ :=
  if_pos beyond

theorem above_of_eq
    (atLevel : first.count = .finite level) :
    first.above level = orNever first.nextGrowth :=
  if_neg (by rw [atLevel]; exact lt_irrefl _)

/-- Two pools together rise above a level when the later of them does. -/
theorem above_meet
    (notBelow : .finite level ≤ (first.meet second).count) :
    (first.meet second).above level = max (first.above level) (second.above level) := by
  rw [count_meet, le_min_iff] at notBelow
  obtain ⟨notBelowFirst, notBelowSecond⟩ := notBelow
  rcases nextGrowth_meet_cases first second with
    ⟨fewer, growth⟩ | ⟨fewer, growth⟩ | ⟨same, growth⟩ | ⟨firstEndless, secondEndless, -⟩
  · have count : (first.meet second).count = first.count := min_eq_left (le_of_lt fewer)
    have beyond := above_of_lt (lt_of_le_of_lt notBelowFirst fewer)
    rw [beyond, max_bot_right, above, above, count, growth]
  · have count : (first.meet second).count = second.count := min_eq_right (le_of_lt fewer)
    have beyond := above_of_lt (lt_of_le_of_lt notBelowSecond fewer)
    rw [beyond, max_bot_left, above, above, count, growth]
  · have count : (first.meet second).count = second.count := min_eq_right (le_of_eq same.symm)
    rw [above, above, above, count, same, growth]
    split
    · exact (max_self _).symm
    · rw [orNever_bothBy, WithBot.coe_max]
  · have count : (first.meet second).count = .infinite := by
      rw [count_meet, firstEndless, secondEndless, min_self]
    have beyond := TokenCount.finite_lt_infinite level
    rw [above_of_lt (count ▸ beyond), above_of_lt (firstEndless ▸ beyond),
      above_of_lt (secondEndless ▸ beyond), max_self]

/-- Pools without end do not grow. -/
theorem nextGrowth_meet_of_infinite
    (endless : (first.meet second).count = .infinite) :
    (first.meet second).nextGrowth = none := by
  have firstEndless : first.count = .infinite :=
    le_antisymm (TokenCount.le_infinite _) (endless ▸ min_le_left _ _)
  have secondEndless : second.count = .infinite :=
    le_antisymm (TokenCount.le_infinite _) (endless ▸ min_le_right _ _)
  simp only [meet, firstEndless, secondEndless]

/-- A standing is known by its count, when it rises above this count, and its cooldown. -/
theorem eq_of_above
    (count : first.count = second.count)
    (growth : ∀ level, first.count = .finite level → first.above level = second.above level)
    (endless : first.count = .infinite → first.nextGrowth = second.nextGrowth)
    (cooldown : orBefore first.cooldownEnd = orBefore second.cooldownEnd) :
    first = second := by
  have sameGrowth : first.nextGrowth = second.nextGrowth := by
    cases counted : first.count with
    | infinite => exact endless counted
    | finite level =>
        have rises := growth level counted
        rw [above_of_eq counted, above_of_eq (count ▸ counted)] at rises
        exact orNever_injective (WithBot.coe_injective rises)
  have sameCooldown := orBefore_injective cooldown
  cases first
  cases second
  simp_all

theorem meet_comm (first second : Standing) :
    first.meet second = second.meet first := by
  have sameCount : (first.meet second).count = (second.meet first).count :=
    min_comm first.count second.count
  apply eq_of_above sameCount
  · intro level atLevel
    rw [above_meet (le_of_eq atLevel.symm), above_meet (sameCount ▸ le_of_eq atLevel.symm),
      max_comm]
  · intro endless
    rw [nextGrowth_meet_of_infinite endless, nextGrowth_meet_of_infinite (sameCount ▸ endless)]
  · simp only [meet, orBefore_laterOf]
    exact max_comm _ _

theorem meet_assoc (first second third : Standing) :
    (first.meet second).meet third = first.meet (second.meet third) := by
  have sameCount :
      ((first.meet second).meet third).count = (first.meet (second.meet third)).count :=
    min_assoc first.count second.count third.count
  apply eq_of_above sameCount
  · intro level atLevel
    have notBelow : .finite level ≤ ((first.meet second).meet third).count :=
      le_of_eq atLevel.symm
    have notBelowLeft : .finite level ≤ (first.meet second).count :=
      le_trans notBelow (min_le_left _ _)
    have notBelowRight : .finite level ≤ (second.meet third).count :=
      le_trans (sameCount ▸ notBelow) (min_le_right _ _)
    calc ((first.meet second).meet third).above level
        = max (max (first.above level) (second.above level)) (third.above level) := by
          rw [above_meet notBelow, above_meet notBelowLeft]
      _ = max (first.above level) (max (second.above level) (third.above level)) :=
          max_assoc _ _ _
      _ = (first.meet (second.meet third)).above level := by
          rw [above_meet (sameCount ▸ notBelow), above_meet notBelowRight]
  · intro endless
    rw [nextGrowth_meet_of_infinite endless, nextGrowth_meet_of_infinite (sameCount ▸ endless)]
  · simp only [meet, orBefore_laterOf]
    exact max_assoc _ _ _

/-- A standing that is finite, or reports no growth, is its own meet. -/
theorem meet_self
    (settled : first.count ≠ .infinite ∨ first.nextGrowth = none) :
    first.meet first = first := by
  have sameCount : (first.meet first).count = first.count := min_self first.count
  apply eq_of_above sameCount
  · intro level atLevel
    rw [above_meet (le_of_eq atLevel.symm), max_self]
  · intro endless
    have noGrowth : first.nextGrowth = none :=
      settled.resolve_left (not_not.mpr (sameCount ▸ endless))
    rw [nextGrowth_meet_of_infinite endless, noGrowth]
  · simp only [meet, orBefore_laterOf]
    exact max_self _

/-- A pool that has more tokens than the other adds only its cooldown. -/
theorem meet_of_ahead
    (ahead : second.count < first.count) :
    first.meet second =
      { second with cooldownEnd := laterOf first.cooldownEnd second.cooldownEnd } := by
  have sameCount : (first.meet second).count = second.count :=
    min_eq_right (le_of_lt ahead)
  refine eq_of_above sameCount ?_ ?_ rfl
  · intro level atLevel
    have beyond : .finite level < first.count := by
      rwa [← atLevel, sameCount]
    rw [above_meet (le_of_eq atLevel.symm), above_of_lt beyond, max_bot_left]
    rfl
  · intro impossible
    rw [← sameCount, impossible] at ahead
    exact absurd (TokenCount.le_infinite _) (not_le.mpr ahead)

/-- A pool without end acts as one that is a token ahead of the other and never grows. -/
theorem infinite_meet_eq_ahead
    {count : UInt32}
    (endless : first.count = .infinite)
    (counted : second.count = .finite count)
    (room : count.toNat < 4294967295) :
    first.meet second =
      { first with count := .finite (count + 1), nextGrowth := none }.meet second := by
  have oneMore : TokenCount.finite count < .finite (count + 1) := by
    rw [TokenCount.finite_lt_finite, UInt32.toNat_add, UInt32.toNat_one]
    omega
  rw [meet_of_ahead (by rw [endless, counted]; exact TokenCount.finite_lt_infinite count),
    meet_of_ahead (by rw [counted]; exact oneMore)]

/-- Next to a finite standing one without end and without a cooldown changes nothing. -/
theorem infinite_meet
    (endless : first.count = .infinite)
    (ready : first.cooldownEnd = none)
    (finite : second.count ≠ .infinite) :
    first.meet second = second := by
  have ahead : second.count < first.count := by
    rw [endless]
    exact lt_of_le_of_ne (TokenCount.le_infinite _) finite
  rw [meet_of_ahead ahead, ready]
  cases second with
  | mk count growth cooldown => cases cooldown <;> rfl

/--
Two standings together are their meet: the smaller count, the later cooldown, and a
token to play when both have one and no cooldown runs in either.  Neither the order
nor the grouping of standings matters; one that is finite or reports no growth is not
changed by itself, and a finite one not by one without end and without a cooldown.
-/
theorem meet_laws :
    (∀ first second : Standing,
        IsLeast {first.count, second.count} (first.meet second).count ∧
          IsGreatest {orBefore first.cooldownEnd, orBefore second.cooldownEnd}
            (orBefore (first.meet second).cooldownEnd) ∧
          ((first.meet second).canPlay = true ↔
            (first.count ≠ .finite 0 ∧ first.cooldownEnd = none) ∧
              second.count ≠ .finite 0 ∧ second.cooldownEnd = none) ∧
          first.meet second = second.meet first) ∧
      (∀ first second third : Standing,
        (first.meet second).meet third = first.meet (second.meet third)) ∧
      (∀ standing : Standing,
        standing.count ≠ .infinite ∨ standing.nextGrowth = none →
        standing.meet standing = standing) ∧
      ∀ endless standing : Standing,
        endless.count = .infinite →
        endless.cooldownEnd = none →
        standing.count ≠ .infinite →
        endless.meet standing = standing ∧ standing.meet endless = standing := by
  refine ⟨?_, meet_assoc, fun _ => meet_self, ?_⟩
  · intro first second
    refine ⟨isLeast_pair, ?_, ?_, meet_comm first second⟩
    · simp only [meet, orBefore_laterOf]
      exact isGreatest_pair
    · rw [canPlay_meet_iff, canPlay_iff, canPlay_iff, TokenCount.any_iff_ne_zero,
        TokenCount.any_iff_ne_zero]
  · intro endless standing isEndless ready finite
    have unchanged := infinite_meet isEndless ready finite
    exact ⟨unchanged, meet_comm standing endless ▸ unchanged⟩

/-- Tokens without end that are said to grow. -/
def endlessGrowing : Standing where
  count := .infinite
  nextGrowth := some (.onDayZero 10)
  cooldownEnd := none

/-- Three tokens with a growth and a cooldown to come. -/
def threeCooling : Standing where
  count := .finite 3
  nextGrowth := some (.onDayZero 20)
  cooldownEnd := some (.onDayZero 40)

/-- Neither themselves nor tokens without end change three tokens; the latter lose their growth. -/
theorem meet_laws_threeCooling :
    threeCooling.meet threeCooling = threeCooling ∧
      endlessGrowing.meet threeCooling = threeCooling ∧
      threeCooling.meet endlessGrowing = threeCooling ∧
      endlessGrowing.meet endlessGrowing ≠ endlessGrowing := by
  obtain ⟨-, -, ownMeet, unit⟩ := meet_laws
  have unchanged := unit endlessGrowing threeCooling rfl rfl (by decide)
  exact ⟨ownMeet threeCooling (.inl (by decide)), unchanged.1, unchanged.2, by decide⟩

end Standing

end TokenBudget
