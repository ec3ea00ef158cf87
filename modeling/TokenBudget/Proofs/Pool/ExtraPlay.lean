import TokenBudget.Proofs.Pool.Agreement

namespace TokenBudget

/-!
# One play more or less

What a pool does to its balance, it does to a balance with one token less in the
same way up to that token: boundaries, the cap, plays, the lifetime and the limits
of a count keep two balances in order and at most one apart.  So one more play
anywhere in a history costs at most one token and never gains one:
`Policy.withinOne_exactCount`.
-/

/-- A balance with one play more is the same or one less. -/
def AtMostOneLess (larger smaller : Int) : Prop :=
  smaller ≤ larger ∧ larger ≤ smaller + 1

namespace TokenCount

/-- Both counts have no end, or the second is the same number as the first or one less. -/
def WithinOne (without more : TokenCount) : Prop :=
  without = .infinite ∧ more = .infinite ∨
    ∃ countWithout countMore : UInt32,
      without = .finite countWithout ∧
        more = .finite countMore ∧
        countMore.toNat ≤ countWithout.toNat ∧
        countWithout.toNat ≤ countMore.toNat + 1

theorem WithinOne.refl (count : TokenCount) :
    WithinOne count count := by
  cases count with
  | infinite =>
      exact .inl ⟨rfl, rfl⟩
  | finite count =>
      exact .inr ⟨count, count, rfl, rfl, Nat.le_refl _, Nat.le_succ _⟩

theorem withinOne_ofBalance
    {larger smaller : Int}
    (close : AtMostOneLess larger smaller) :
    WithinOne (ofBalance larger) (ofBalance smaller) := by
  obtain ⟨largerCount, largerShape, largerValue⟩ := ofBalance_eq_finite larger
  obtain ⟨smallerCount, smallerShape, smallerValue⟩ := ofBalance_eq_finite smaller
  obtain ⟨notMore, atMostOne⟩ := close
  exact .inr ⟨largerCount, smallerCount, largerShape, smallerShape, by omega, by omega⟩

/-- Where at most one token can be spent, none is within one. -/
theorem withinOne_ofBalance_zero
    {balance : Int}
    (few : balance ≤ 1) :
    WithinOne (ofBalance balance) (.finite 0) := by
  obtain ⟨count, shape, value⟩ := ofBalance_eq_finite balance
  refine .inr ⟨count, 0, shape, rfl, Nat.zero_le _, ?_⟩
  rw [UInt32.toNat_zero]
  omega

theorem toNat_min (first second : UInt32) :
    (min first second).toNat = min first.toNat second.toNat := by
  by_cases ordered : first ≤ second
  · rw [show min first second = first from if_pos ordered,
      Nat.min_eq_left (UInt32.le_iff_toNat_le.mp ordered)]
  · rw [show min first second = second from if_neg ordered,
      Nat.min_eq_right (Nat.le_of_not_le (UInt32.le_iff_toNat_le.not.mp ordered))]

/-- The smaller of two counts stays within one when both counts do. -/
theorem WithinOne.smaller
    {contest contestMore task taskMore : TokenCount}
    (contestClose : WithinOne contest contestMore)
    (taskClose : WithinOne task taskMore) :
    WithinOne (contest.smaller task) (contestMore.smaller taskMore) := by
  rcases contestClose with ⟨rfl, rfl⟩ | ⟨contestCount, contestCountMore, rfl, rfl, contestBounds⟩
  · exact taskClose
  · rcases taskClose with ⟨rfl, rfl⟩ | ⟨taskCount, taskCountMore, rfl, rfl, taskBounds⟩
    · exact .inr ⟨contestCount, contestCountMore, rfl, rfl, contestBounds⟩
    · refine .inr ⟨min contestCount taskCount, min contestCountMore taskCountMore, rfl, rfl, ?_⟩
      rw [toNat_min, toNat_min]
      omega

end TokenCount

namespace Policy

section

variable
    {policy : Policy}
    {played : Nat}

/-- A lifetime that is used up stays so. -/
theorem isExhausted_succ
    (usedUp : policy.isExhausted played = true) :
    policy.isExhausted (played + 1) = true := by
  unfold isExhausted at usedUp ⊢
  split at usedUp
  · contradiction
  · simp only [decide_eq_true_eq] at usedUp ⊢
    omega

/-- Before the last play of a lifetime at most one token can be spent. -/
theorem spendable_le_one_of_last
    (left : policy.isExhausted played = false)
    (last : policy.isExhausted (played + 1) = true)
    (balance : Int) :
    policy.spendable played balance ≤ 1 := by
  cases limited : policy.lifetime with
  | none =>
      simp [isExhausted, limited] at last
  | some lifetime =>
      simp only [isExhausted, limited, decide_eq_true_eq, decide_eq_false_iff_not] at left last
      simp only [spendable, limited]
      omega

end

section

variable
    {policy : Policy}
    {larger smaller : Int}
    (close : AtMostOneLess larger smaller)

include close

theorem atMostOneLess_refilled (count : Int) :
    AtMostOneLess (policy.refilled larger count) (policy.refilled smaller count) := by
  obtain ⟨notMore, atMostOne⟩ := close
  simp only [AtMostOneLess, refilled, capped]
  generalize count * (policy.perPeriod.toNat : Int) = added
  split <;> omega

/-- The play that costs the token also takes one play from the lifetime. -/
theorem atMostOneLess_spendable (played : Nat) :
    AtMostOneLess (policy.spendable played larger) (policy.spendable (played + 1) smaller) := by
  obtain ⟨notMore, atMostOne⟩ := close
  simp only [AtMostOneLess, spendable]
  split <;> omega

end

section

variable
    {policy : Policy}
    {initial : UInt32}
    {start now played : Instant}
    {earlier later : List Instant}
    (startPlain : start.isLeap = false)
    (nowPlain : now.isLeap = false)
    (playsPlain : ∀ other ∈ earlier ++ played :: later, other.isLeap = false)

include startPlain nowPlain playsPlain

/-- A further play anywhere in a history leaves the exact balance the same or takes one token. -/
theorem atMostOneLess_exactBalance
    (enabled : policy.initial = some initial)
    (finite : policy.isInfinite = false)
    (orderly : Orderly start now (earlier ++ played :: later)) :
    AtMostOneLess
      (policy.exactBalance initial start (earlier ++ later) now)
      (policy.exactBalance initial start (earlier ++ played :: later) now) := by
  have playedPlain : played.isLeap = false := playsPlain played (by simp)
  induction later using List.reverseRecOn generalizing now with
  | nil =>
      have orderlyBefore := orderly.before_last
      rw [List.append_nil,
        exactBalance_concat enabled finite startPlain nowPlain playedPlain orderly,
        exactBalance_of_le enabled finite startPlain playedPlain nowPlain
          (fun other member => playsPlain other (by simp [member])) orderlyBefore
          orderly.last_within.2]
      apply atMostOneLess_refilled
      simp only [AtMostOneLess]
      omega
  | append_singleton later last inductionHypothesis =>
      have lastPlain : last.isLeap = false := playsPlain last (by simp)
      have orderlyWithout : Orderly start now (earlier ++ later ++ [last]) := by
        rw [List.append_assoc]
        exact orderly.part ((List.sublist_cons_self _ _).append_left _)
      rw [← List.cons_append, ← List.append_assoc] at orderly ⊢
      rw [← List.append_assoc]
      have before :=
        inductionHypothesis lastPlain
          (fun other member => playsPlain other (by
            rw [← List.cons_append, ← List.append_assoc]
            exact List.mem_append_left _ member))
          orderly.before_last
      rw [exactBalance_concat enabled finite startPlain nowPlain lastPlain orderly,
        exactBalance_concat enabled finite startPlain nowPlain lastPlain orderlyWithout]
      apply atMostOneLess_refilled
      simp only [AtMostOneLess] at before ⊢
      omega

/-- A further play anywhere in a history costs a pool at most one token and gains it none. -/
theorem withinOne_exactCount
    (orderly :
      ∀ initial,
        policy.initial = some initial →
        Orderly start now (earlier ++ played :: later)) :
    TokenCount.WithinOne
      (policy.exactCount start (earlier ++ later) now)
      (policy.exactCount start (earlier ++ played :: later) now) := by
  have oneMore : (earlier ++ played :: later).length = (earlier ++ later).length + 1 := by
    simp only [List.length_append, List.length_cons]
    omega
  cases enabled : policy.initial with
  | none =>
      simp only [exactCount, enabled]
      exact .refl _
  | some initial =>
      cases finite : policy.isInfinite with
      | true =>
          simp only [exactCount, enabled, finite, if_true]
          exact .refl _
      | false =>
          have close :=
            atMostOneLess_exactBalance startPlain nowPlain playsPlain enabled finite
              (orderly initial enabled)
          cases usedUp : policy.isExhausted (earlier ++ later).length with
          | true =>
              simp only [exactCount, enabled, finite, oneMore, usedUp, isExhausted_succ usedUp,
                Bool.false_eq_true, if_false, if_true]
              exact .refl _
          | false =>
              cases usedUpNow : policy.isExhausted ((earlier ++ later).length + 1) with
              | true =>
                  simp only [exactCount, enabled, finite, oneMore, usedUp, usedUpNow,
                    Bool.false_eq_true, if_false, if_true]
                  exact TokenCount.withinOne_ofBalance_zero
                    (spendable_le_one_of_last usedUp usedUpNow _)
              | false =>
                  simp only [exactCount, enabled, finite, oneMore, usedUp, usedUpNow,
                    Bool.false_eq_true, if_false]
                  exact TokenCount.withinOne_ofBalance (atMostOneLess_spendable close _)

/-- A further play anywhere in a history leaves the count of a pool within one. -/
theorem withinOne_count
    {without more : Standing}
    (few : (earlier ++ later).length < 2 ^ 59)
    (answeredWithout : policy.standing start (earlier ++ later) now = .ok without)
    (answeredMore : policy.standing start (earlier ++ played :: later) now = .ok more) :
    TokenCount.WithinOne without.count more.count := by
  have fewMore : (earlier ++ played :: later).length ≤ 2 ^ 59 := by
    simp only [List.length_append, List.length_cons] at few ⊢
    omega
  have withoutPlain : ∀ other ∈ earlier ++ later, other.isLeap = false := by
    intro other member
    apply playsPlain other
    rcases List.mem_append.mp member with before | after
    · exact List.mem_append_left _ before
    · exact List.mem_append_right _ (List.mem_cons_of_mem _ after)
  rw [count_eq_exactCount startPlain nowPlain withoutPlain few answeredWithout,
    count_eq_exactCount_of_le startPlain nowPlain playsPlain fewMore answeredMore]
  exact withinOne_exactCount startPlain nowPlain playsPlain
    fun _ enabled => orderly_of_standing enabled answeredMore

end

end Policy

end TokenBudget
