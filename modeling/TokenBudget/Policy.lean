import TokenBudget.Instant.Basic

namespace TokenBudget

/-!
# Token policies

The rules of one pool of tokens: how many it holds at the start, how many may be
held at once and spent over its lifetime, how far two plays must lie apart, and
how many tokens the end of every period adds.

A pool without an initial count is disabled.  A pool that generates tokens in
periods of no length never runs out.
-/

/-- A length of time in seconds and nanoseconds. -/
structure Duration where
  seconds : UInt64
  nanos : Nat
  nanos_lt : nanos < nanosPerSecond
  deriving Repr, DecidableEq

namespace Duration

/-- No time at all. -/
def zero : Duration where
  seconds := 0
  nanos := 0
  nanos_lt := by decide

/-- Whole seconds. -/
def ofSeconds (seconds : UInt64) : Duration where
  seconds := seconds
  nanos := 0
  nanos_lt := by decide

/-- The length in nanoseconds. -/
def toNanos (duration : Duration) : Nat :=
  duration.seconds.toNat * nanosPerSecond + duration.nanos

instance : Inhabited Duration where
  default := zero

end Duration

/-- The rules of one pool, contest-wide or of one task. -/
structure Policy where
  /-- Tokens held at the start; none disables the pool. -/
  initial : Option UInt32
  /-- The most tokens held at once. -/
  cap : Option UInt32
  /-- The most tokens ever spent. -/
  lifetime : Option UInt32
  /-- The least time between two plays. -/
  cooldown : Duration
  /-- The length of a generation period, counted from the start of the pool. -/
  period : Duration
  /-- Tokens added at the end of every period. -/
  perPeriod : UInt32
  deriving Repr, DecidableEq

namespace Policy

/-- A pool without tokens. -/
def disabled : Policy where
  initial := none
  cap := none
  lifetime := none
  cooldown := .zero
  period := .zero
  perPeriod := 0

/-- A pool that refills in no time. -/
def infinite : Policy :=
  { disabled with
    initial := some 0
    perPeriod := 1 }

/-- The pool hands out tokens at all. -/
def isEnabled (policy : Policy) : Bool :=
  policy.initial.isSome

/-- The pool never runs out. -/
def isInfinite (policy : Policy) : Bool :=
  policy.isEnabled && 0 < policy.perPeriod && policy.period.toNanos == 0

@[simp]
theorem isEnabled_disabled :
    disabled.isEnabled = false :=
  rfl

@[simp]
theorem isInfinite_infinite :
    infinite.isInfinite = true := by
  decide

end Policy

end TokenBudget
