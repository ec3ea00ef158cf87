import TokenBudget.Instant.Shift
import TokenBudget.Policy

namespace TokenBudget

/-!
# Generation clocks

A pool adds tokens at period boundaries: the instants one, two, three and more
periods after its start.  The clock counts the boundaries between two instants
and finds the next one.

Counts are kept to a signed 64-bit word, distances from the start to a signed
128-bit word.
-/

/-- The largest value of a signed word of so many bits. -/
def largestWord (bits : Nat) : Int :=
  Int.pow 2 (bits - 1) - 1

/-- The smallest value of a signed word of so many bits. -/
def smallestWord (bits : Nat) : Int :=
  -Int.pow 2 (bits - 1)

/-- The value fits a signed word of so many bits. -/
def FitsWord
    (bits : Nat)
    (value : Int) :
    Prop :=
  smallestWord bits ≤ value ∧ value ≤ largestWord bits

instance (bits : Nat) (value : Int) : Decidable (FitsWord bits value) := by
  unfold FitsWord
  infer_instance

/-- The nearest value that fits a signed 64-bit word. -/
def saturate (value : Int) : Int :=
  max (smallestWord 64) (min value (largestWord 64))

/-- A value that fits is its own nearest. -/
theorem saturate_of_fits
    {value : Int}
    (fits : FitsWord 64 value) :
    saturate value = value := by
  obtain ⟨notBelow, notAbove⟩ := fits
  rw [saturate, Int.min_eq_left notAbove, Int.max_eq_right notBelow]

/-- The start of a pool and the length of its periods in nanoseconds. -/
structure Clock where
  start : Instant
  period : Nat
  period_pos : 0 < period
  deriving Repr, DecidableEq

namespace Clock

/--
The clock of a policy.  A finite pool with periods of no length generates no
tokens; a period of one second then stands in.
-/
def ofPolicy
    (start : Instant)
    (policy : Policy) :
    Clock :=
  if positive : 0 < policy.period.toNanos then
    { start, period := policy.period.toNanos, period_pos := positive }
  else
    { start, period := nanosPerSecond, period_pos := nanosPerSecond_pos }

/-- Whole periods from the start to an instant. -/
def periods
    (clock : Clock)
    (instant : Instant) :
    Int :=
  clock.start.elapsed instant / clock.period

/-- Boundaries after the first instant, up to and with the second. -/
def boundaries
    (clock : Clock)
    (earlier later : Instant) :
    Int :=
  let crossed := clock.periods later - clock.periods earlier
  if FitsWord 64 crossed then crossed else largestWord 64

/-- The first boundary after an instant, if it is in range. -/
def nextBoundary?
    (clock : Clock)
    (instant : Instant) :
    Option Instant :=
  let distance := (clock.periods instant + 1) * clock.period
  if FitsWord 128 distance then
    clock.start.shift? distance
  else
    none

end Clock

end TokenBudget
