import TokenBudget.Proofs.Pool.Answer
import TokenBudget.Proofs.Pool.Counts
import TokenBudget.Proofs.Pool.Periods

namespace TokenBudget

/-!
# Pools that only have a lifetime

`Policy.lifetimeOnly` is the plainest pool with a lifetime: it holds all its
tokens at the start, generates none and has no cooldown.  It lets a play through
whenever fewer plays than its lifetime are in the history, which makes it the
pool that shows what a lifetime alone keeps out.
-/

namespace Policy

/-- So many tokens from the start, all of which may be spent, and no further ones. -/
def lifetimeOnly (lifetime : UInt32) : Policy :=
  { disabled with
    initial := some lifetime
    lifetime := some lifetime }

section

variable
    {policy : Policy}
    {now : Instant}
    {history : List Instant}

/-- In a pool that generates nothing and has no cap, only plays change the balance. -/
theorem replay_of_static
    {clock : Clock}
    {previous : Instant}
    {balance : Int}
    (static : policy.perPeriod = 0)
    (uncapped : policy.cap = none)
    (enough : history.length ≤ balance)
    (small : balance ≤ largestWord 64) :
    policy.replay clock now balance previous history = balance - history.length := by
  have accrueOf :
      ∀ earlier later {held : Int},
        0 ≤ held →
        held ≤ largestWord 64 →
        policy.accrue clock held earlier later = held := by
    intro earlier later held nonneg fits
    simp only [accrue, capped, uncapped, static, UInt32.toNat_zero, Int.natCast_zero,
      Int.mul_zero]
    rw [saturate_of_nonneg (Int.le_refl 0), Int.min_eq_left (by decide), Int.add_zero, saturate_of_nonneg nonneg,
      Int.min_eq_left fits]
  induction history generalizing balance previous with
  | nil =>
      rw [replay, accrueOf previous now (by simpa using enough) small]
      simp
  | cons played later inductionHypothesis =>
      rw [List.length_cons] at enough ⊢
      rw [replay, accrueOf previous played (by omega) small,
        inductionHypothesis (by omega) (by omega)]
      omega

/-- Without a cooldown none runs after plays that are over. -/
theorem cooldownEnd_of_zero
    (free : policy.cooldown = .zero)
    (past : ∀ played ∈ history, played ≤ now) :
    policy.cooldownEnd history now = .ok none := by
  unfold cooldownEnd
  split
  · rfl
  · next last isLast =>
      have noTime : ((Duration.zero.toNanos : Nat) : Int) = 0 := by
        decide
      rw [free, noTime, Instant.shift?_zero]
      simp [whileRunning, past last (List.mem_of_getLast? isLast)]

end

/-- A pool that only has a lifetime lets plays through until it is used up. -/
theorem canPlay_lifetimeOnly
    {lifetime : UInt32}
    {start now : Instant}
    {history : List Instant}
    (orderly : Orderly start now history)
    (left : history.length < lifetime.toNat) :
    ∃ standing,
      (lifetimeOnly lifetime).standing start history now = .ok standing ∧
        standing.canPlay = true := by
  have lifetimeSmall := lifetime.toNat_lt
  have cooled : (lifetimeOnly lifetime).cooldownEnd history now = .ok none :=
    cooldownEnd_of_zero rfl (fun played member => (orderly.within played member).2)
  have notUsedUp : (lifetimeOnly lifetime).isExhausted history.length = false := by
    simpa [isExhausted, lifetimeOnly] using left
  have replayed :
      (lifetimeOnly lifetime).replay (Clock.ofPolicy start (lifetimeOnly lifetime)) now
          lifetime.toNat start history =
        lifetime.toNat - history.length :=
    replay_of_static rfl rfl (by omega) (by rw [largestWord_64]; omega)
  have noGrowth :
      (lifetimeOnly lifetime).nextGrowth (Clock.ofPolicy start (lifetimeOnly lifetime)) now
          (lifetime.toNat - history.length) =
        .ok none :=
    rfl
  refine ⟨_, standing_eq_ok_iff.mpr
    (.counted rfl orderly cooled rfl notUsedUp replayed noGrowth), ?_⟩
  refine Standing.canPlay_iff.mpr ⟨TokenCount.any_ofBalance_iff.mpr ?_, rfl⟩
  simp only [withinLifetime, lifetimeOnly, Int.le_refl, if_true]
  omega

end Policy

end TokenBudget
