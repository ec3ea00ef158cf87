import Mathlib.Order.MinMax
import TokenBudget.Pool.Replay

namespace TokenBudget

/-!
# The order of token counts

Counts are in a linear order in which `smaller` is the minimum and the infinite
count is the greatest.  The count of a balance grows with the balance, strictly
between zero and the largest count.  A token is there when the count is above
zero, so two standings taken together let a play through only if both do.
-/

namespace TokenCount

@[simp]
theorem finite_le_finite
    {first second : UInt32} :
    TokenCount.finite first ≤ .finite second ↔ first.toNat ≤ second.toNat :=
  Iff.rfl

@[simp]
theorem le_infinite (count : TokenCount) :
    count ≤ .infinite := by
  cases count <;> trivial

@[simp]
theorem not_infinite_le_finite (count : UInt32) :
    ¬ TokenCount.infinite ≤ .finite count :=
  id

instance decideLe : (first second : TokenCount) → Decidable (first ≤ second)
  | _, .infinite => isTrue (le_infinite _)
  | .infinite, .finite count => isFalse (not_infinite_le_finite count)
  | .finite first, .finite second => inferInstanceAs (Decidable (first ≤ second))

instance : LinearOrder TokenCount where
  le_refl count := by
    cases count <;> simp
  le_trans first second third before after := by
    cases first <;> cases second <;> cases third <;> simp_all
    exact Nat.le_trans before after
  le_antisymm first second before after := by
    cases first <;> cases second <;> simp_all
    exact UInt32.toNat_inj.mp (Nat.le_antisymm before after)
  le_total first second := by
    cases first <;> cases second <;> simp
    exact Nat.le_total _ _
  toDecidableLE := decideLe
  min := smaller
  min_def first second := by
    cases first <;> cases second <;> simp [smaller]
    next first second =>
      by_cases ordered : first.toNat ≤ second.toNat
      · have firstSmaller : min first second = first := if_pos ordered
        rw [firstSmaller, if_pos ordered]
      · have secondSmaller : min first second = second := if_neg ordered
        rw [secondSmaller, if_neg ordered]

@[simp]
theorem finite_lt_infinite (count : UInt32) :
    TokenCount.finite count < .infinite := by
  rw [← not_le]
  exact not_infinite_le_finite count

@[simp]
theorem finite_lt_finite
    {first second : UInt32} :
    TokenCount.finite first < .finite second ↔ first.toNat < second.toNat := by
  rw [← not_le, finite_le_finite, Nat.not_le]

/-- The count of a balance is cut at zero and at the largest 32-bit word. -/
theorem ofBalance_eq_finite (balance : Int) :
    ∃ count : UInt32,
      ofBalance balance = .finite count ∧
        (count.toNat : Int) = max 0 (min balance 4294967295) := by
  refine ⟨_, rfl, ?_⟩
  rw [UInt32.toNat_ofNat_of_lt'] <;> simp only [UInt32.size] <;> omega

theorem ofBalance_mono
    {smaller larger : Int}
    (ordered : smaller ≤ larger) :
    ofBalance smaller ≤ ofBalance larger := by
  obtain ⟨smallerCount, smallerShape, smallerValue⟩ := ofBalance_eq_finite smaller
  obtain ⟨largerCount, largerShape, largerValue⟩ := ofBalance_eq_finite larger
  rw [smallerShape, largerShape, finite_le_finite]
  omega

/-- From zero to the largest count, a larger balance has a larger count. -/
theorem ofBalance_lt
    {smaller larger : Int}
    (nonneg : 0 ≤ smaller)
    (ordered : smaller < larger)
    (below : ofBalance smaller < .finite 4294967295) :
    ofBalance smaller < ofBalance larger := by
  obtain ⟨smallerCount, smallerShape, smallerValue⟩ := ofBalance_eq_finite smaller
  obtain ⟨largerCount, largerShape, largerValue⟩ := ofBalance_eq_finite larger
  have mostValue : (4294967295 : UInt32).toNat = 4294967295 := rfl
  rw [smallerShape, finite_lt_finite] at below
  rw [smallerShape, largerShape, finite_lt_finite]
  omega

/-- A token is there when the count is above zero. -/
theorem any_iff
    {count : TokenCount} :
    count.any = true ↔ .finite 0 < count := by
  cases count with
  | infinite =>
      simp [any]
  | finite count =>
      simp [any, Nat.pos_iff_ne_zero, ← UInt32.toNat_inj]

theorem any_iff_ne_zero
    {count : TokenCount} :
    count.any = true ↔ count ≠ .finite 0 := by
  cases count <;> simp [any]

/-- A token is in the smaller of two counts when it is in both. -/
theorem any_smaller_iff
    {first second : TokenCount} :
    (first.smaller second).any = true ↔ first.any = true ∧ second.any = true := by
  rw [any_iff, any_iff, any_iff]
  exact lt_min_iff

/-- A balance makes a token when it is one at least. -/
theorem any_ofBalance_iff
    {balance : Int} :
    (ofBalance balance).any = true ↔ 1 ≤ balance := by
  obtain ⟨count, shape, value⟩ := ofBalance_eq_finite balance
  rw [any_iff, shape, finite_lt_finite, UInt32.toNat_zero]
  omega

end TokenCount

namespace Standing

/-- A token may be spent when there is one and no cooldown runs. -/
theorem canPlay_iff
    {standing : Standing} :
    standing.canPlay = true ↔ standing.count.any = true ∧ standing.cooldownEnd = none := by
  simp [canPlay]

/-- No cooldown runs in both pools together when none runs in either. -/
theorem cooldownEnd_meet_eq_none_iff
    {contest task : Standing} :
    (contest.meet task).cooldownEnd = none ↔
      contest.cooldownEnd = none ∧ task.cooldownEnd = none := by
  simp only [meet]
  cases contest.cooldownEnd <;> cases task.cooldownEnd <;> simp [laterOf]

/-- Both pools together let a play through when each of them does. -/
theorem canPlay_meet_iff
    {contest task : Standing} :
    (contest.meet task).canPlay = true ↔ contest.canPlay = true ∧ task.canPlay = true := by
  rw [canPlay_iff, canPlay_iff, canPlay_iff, cooldownEnd_meet_eq_none_iff]
  simp only [meet, TokenCount.any_smaller_iff]
  exact and_and_and_comm

end Standing

end TokenBudget
