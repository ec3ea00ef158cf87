import TokenBudget.Proofs.Pool.ExtraPlay
import TokenBudget.Proofs.Pool.Faults

namespace TokenBudget

/-!
# The price of a play

Between a play and a query at its instant there is no boundary, so a pool that had
a token for the play has then one token less: `Policy.oneSpent_count`.  It still
answers, unless it would have to name an instant out of range:
`Policy.fault_after_play`.  Nothing is asked of the plays before, which may lie in
leap seconds or have left the balance below zero.
-/

namespace TokenCount

/-- Both counts have no end, or the second is one less; the largest count may hide this. -/
def OneSpent (before after : TokenCount) : Prop :=
  before = .infinite ∧ after = .infinite ∨
    ∃ countBefore countAfter : UInt32,
      before = .finite countBefore ∧
        after = .finite countAfter ∧
        (countAfter.toNat + 1 = countBefore.toNat ∨
          countBefore.toNat = 4294967295 ∧ countAfter.toNat = 4294967295)

theorem oneSpent_ofBalance
    {balance : Int}
    (token : 1 ≤ balance) :
    OneSpent (ofBalance balance) (ofBalance (balance - 1)) := by
  obtain ⟨countBefore, shapeBefore, valueBefore⟩ := ofBalance_eq_finite balance
  obtain ⟨countAfter, shapeAfter, valueAfter⟩ := ofBalance_eq_finite (balance - 1)
  exact .inr ⟨countBefore, countAfter, shapeBefore, shapeAfter, by omega⟩

/-- When each of two counts loses one, so does the smaller. -/
theorem OneSpent.smaller
    {contest contestAfter task taskAfter : TokenCount}
    (contestSpent : OneSpent contest contestAfter)
    (taskSpent : OneSpent task taskAfter) :
    OneSpent (contest.smaller task) (contestAfter.smaller taskAfter) := by
  rcases contestSpent with ⟨rfl, rfl⟩ | ⟨contestCount, contestLeft, rfl, rfl, contestOne⟩
  · exact taskSpent
  · rcases taskSpent with ⟨rfl, rfl⟩ | ⟨taskCount, taskLeft, rfl, rfl, taskOne⟩
    · exact .inr ⟨contestCount, contestLeft, rfl, rfl, contestOne⟩
    · refine .inr ⟨min contestCount taskCount, min contestLeft taskLeft, rfl, rfl, ?_⟩
      have contestSmall := contestCount.toNat_lt
      have taskSmall := taskCount.toNat_lt
      rw [toNat_min, toNat_min]
      omega

theorem OneSpent.infinite
    {after : TokenCount}
    (spent : OneSpent .infinite after) :
    after = .infinite := by
  rcases spent with ⟨-, endless⟩ | ⟨_, _, impossible, -⟩
  · exact endless
  · contradiction

/-- Below the largest count the token that was spent is seen. -/
theorem OneSpent.finite
    {count : UInt32}
    {after : TokenCount}
    (spent : OneSpent (.finite count) after)
    (notMost : count.toNat < 4294967295) :
    ∃ left : UInt32, after = .finite left ∧ left.toNat + 1 = count.toNat := by
  rcases spent with ⟨impossible, -⟩ | ⟨sameCount, left, same, rfl, oneLess | most⟩
  · contradiction
  · cases same
    exact ⟨left, rfl, oneLess⟩
  · cases same
    omega

end TokenCount

namespace Policy

section

variable
    {policy : Policy}
    {clock : Clock}
    {balance : Int}

/-- In no time a balance within its bounds stays as it is. -/
theorem accrue_self
    (within : policy.WithinCap balance)
    (fits : FitsWord 64 balance)
    (instant : Instant) :
    policy.accrue clock balance instant instant = balance := by
  have noBoundary : clock.boundaries instant instant = 0 := by
    simp only [Clock.boundaries, Int.sub_self]
    exact if_pos (by decide)
  have nothingAdded : saturate 0 = 0 := saturate_of_fits (by decide)
  rw [accrue, noBoundary, Int.zero_mul, nothingAdded, Int.add_zero, saturate_of_fits fits,
    capped_of_withinCap within]

theorem accrue_le_largestWord
    (earlier later : Instant) :
    policy.accrue clock balance earlier later ≤ largestWord 64 := by
  rw [accrue]
  generalize balance + saturate (clock.boundaries earlier later * policy.perPeriod.toNat) = sum
  simp only [saturate, largestWord_64, smallestWord_64, capped]
  split <;> omega

variable
    {initial : Int}
    {start now : Instant}
    {history : List Instant}

/-- A play that the balance has a token for takes this token and nothing else. -/
theorem replay_play
    (token : 1 ≤ policy.replay clock now initial start history) :
    policy.replay clock now initial start (history ++ [now]) =
      policy.replay clock now initial start history - 1 := by
  obtain ⟨since, -, remaining, accrues⟩ :=
    policy.exists_accrue_since clock initial start history
  have within : policy.WithinCap (policy.replay clock now initial start history) := by
    rw [accrues]
    exact policy.withinCap_capped _
  have notAbove : policy.replay clock now initial start history ≤ largestWord 64 := by
    rw [accrues]
    exact accrue_le_largestWord since now
  rw [replay_concat]
  apply accrue_self
  · intro cap capped
    have notMore := within cap capped
    omega
  · simp only [FitsWord, largestWord_64, smallestWord_64] at *
    omega

end

section

variable
    {policy : Policy}
    {start now : Instant}
    {history : List Instant}
    {before : Standing}
    (answered : policy.standing start history now = .ok before)
    (token : before.count.any = true)

/-- The play that costs the token also takes one play from the lifetime. -/
theorem spendable_succ
    (policy : Policy)
    (played : Nat)
    (balance : Int) :
    policy.spendable (played + 1) (balance - 1) = policy.spendable played balance - 1 := by
  simp only [spendable]
  split <;> omega

include answered token

/-- A pool that had a token for a play has one token less after it. -/
theorem oneSpent_count
    {after : Standing}
    (answeredAfter : policy.standing start (history ++ [now]) now = .ok after) :
    TokenCount.OneSpent before.count after.count := by
  have oneMore : (history ++ [now]).length = history.length + 1 := by
    simp
  cases standing_eq_ok_iff.mp answered with
  | disabled off =>
      contradiction
  | exhausted _ _ _ _ _ =>
      contradiction
  | infinite enabled _ _ endless =>
      cases standing_eq_ok_iff.mp answeredAfter with
      | disabled off => simp [enabled] at off
      | infinite _ _ _ _ => exact .inl ⟨rfl, rfl⟩
      | exhausted _ _ _ finite _ => simp [endless] at finite
      | counted _ _ _ finite _ _ _ => simp [endless] at finite
  | @counted initial _ _ balance enabled _ _ finite left replayed _ =>
      rw [fst_withinLifetime] at token ⊢
      have spendable := TokenCount.any_ofBalance_iff.mp token
      cases standing_eq_ok_iff.mp answeredAfter with
      | disabled off => simp [enabled] at off
      | infinite _ _ _ endless => simp [finite] at endless
      | exhausted _ _ _ _ usedUp =>
          -- The play is the last of the lifetime, which had one play to spend.
          rw [oneMore] at usedUp
          have lastOne : policy.spendable history.length balance = 1 :=
            le_antisymm (spendable_le_one_of_last left usedUp balance) spendable
          rw [lastOne]
          exact TokenCount.oneSpent_ofBalance (Int.le_refl 1)
      | counted sameEnabled _ _ _ _ replayedAfter _ =>
          cases enabled.symm.trans sameEnabled
          have balanceAfter := replay_play (replayed ▸ le_trans spendable (policy.spendable_le _ _))
          rw [fst_withinLifetime, ← replayedAfter, balanceAfter, replayed, oneMore, spendable_succ]
          exact TokenCount.oneSpent_ofBalance spendable

end

/-- After a play at its instant a pool is at fault only for want of an instant. -/
theorem fault_after_play
    {policy : Policy}
    {start now : Instant}
    {history : List Instant}
    {fault : Fault}
    (orderly : Orderly start now history)
    (failed : policy.standing start (history ++ [now]) now = .error fault) :
    fault = .outOfRange := by
  have orderlyAfter := orderly.concat
  rcases fault_of_within orderlyAfter.sorted orderlyAfter.within failed with ⟨early, -⟩ | isRange
  · exact absurd orderly.started (not_le.mpr early)
  · exact isRange

end Policy

section

variable
    {contest task : Policy}
    {start now : Instant}
    {contestHistory taskHistory : List Instant}
    {before : Standing}
    (answered :
      jointStanding contest task start contestHistory taskHistory now = .ok before)
    (canPlay : before.canPlay = true)

include answered canPlay

/-- A play that counts in both pools costs the joint count one token, not two. -/
theorem oneSpent_jointStanding
    {after : Standing}
    (answeredAfter :
      jointStanding contest task start (contestHistory ++ [now]) (taskHistory ++ [now]) now =
        .ok after) :
    TokenCount.OneSpent before.count after.count := by
  obtain ⟨contestBefore, taskBefore, contestAnswered, taskAnswered, rfl⟩ :=
    jointStanding_eq_ok_iff.mp answered
  obtain ⟨contestAfter, taskAfter, contestAnsweredAfter, taskAnsweredAfter, rfl⟩ :=
    jointStanding_eq_ok_iff.mp answeredAfter
  obtain ⟨contestCanPlay, taskCanPlay⟩ := Standing.canPlay_meet_iff.mp canPlay
  obtain ⟨contestToken, -⟩ := Standing.canPlay_iff.mp contestCanPlay
  obtain ⟨taskToken, -⟩ := Standing.canPlay_iff.mp taskCanPlay
  have contestSpent := Policy.oneSpent_count contestAnswered contestToken contestAnsweredAfter
  have taskSpent := Policy.oneSpent_count taskAnswered taskToken taskAnsweredAfter
  exact contestSpent.smaller taskSpent

theorem fault_after_joint_play
    {fault : Fault}
    (failed :
      jointStanding contest task start (contestHistory ++ [now]) (taskHistory ++ [now]) now =
        .error fault) :
    fault = .outOfRange := by
  obtain ⟨contestBefore, taskBefore, contestAnswered, taskAnswered, rfl⟩ :=
    jointStanding_eq_ok_iff.mp answered
  obtain ⟨contestCanPlay, taskCanPlay⟩ := Standing.canPlay_meet_iff.mp canPlay
  rcases jointStanding_eq_error_iff.mp failed with contestFailed | ⟨-, taskFailed⟩
  · exact Policy.fault_after_play (Policy.orderly_of_canPlay contestAnswered contestCanPlay)
      contestFailed
  · exact Policy.fault_after_play (Policy.orderly_of_canPlay taskAnswered taskCanPlay)
      taskFailed

end

end TokenBudget
