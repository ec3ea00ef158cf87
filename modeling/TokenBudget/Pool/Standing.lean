import TokenBudget.Instant.Basic

namespace TokenBudget

/-!
# Standings

What can be said of tokens at an instant: how many there are, when there will be
more, and until when a cooldown runs.  One pool has a standing, and so have the
contest pool and a task pool taken together: `Standing.meet` is the smaller
count and the later cooldown.
-/

/-- A number of tokens, or tokens without end. -/
inductive TokenCount where
  | finite (count : UInt32)
  | infinite
  deriving Repr, DecidableEq

namespace TokenCount

/-- At least one token is there. -/
def any : TokenCount → Bool
  | .finite count => count != 0
  | .infinite => true

/-- The number in digits, or the word for no end. -/
def toText : TokenCount → String
  | .finite count => toString count.toNat
  | .infinite => "infinite"

/-- Finite counts are ordered as numbers, and an infinite one is above them. -/
def atMost : TokenCount → TokenCount → Prop
  | _, .infinite => True
  | .infinite, .finite _ => False
  | .finite first, .finite second => first ≤ second

instance : LE TokenCount where
  le := atMost

/-- The smaller of two counts. -/
def smaller : TokenCount → TokenCount → TokenCount
  | .infinite, count => count
  | count, .infinite => count
  | .finite first, .finite second => .finite (min first second)

end TokenCount

/-- Tokens at an instant, cooldown aside, with what is to come. -/
structure Standing where
  count : TokenCount
  /-- When the count next grows, if it ever will. -/
  nextGrowth : Option Instant
  /-- When the cooldown ends, while one runs. -/
  cooldownEnd : Option Instant
  deriving Repr, DecidableEq

namespace Standing

/-- No token, and none to come. -/
def nothing : Standing where
  count := .finite 0
  nextGrowth := none
  cooldownEnd := none

/-- A token may be spent now. -/
def canPlay (standing : Standing) : Bool :=
  standing.count.any && standing.cooldownEnd.isNone

/-- The later of two instants; none counts as the earliest. -/
def laterOf : Option Instant → Option Instant → Option Instant
  | some first, some second => some (first.later second)
  | first, none => first
  | none, second => second

/-- The later of two instants; none counts as never. -/
def bothBy : Option Instant → Option Instant → Option Instant
  | some first, some second => some (first.later second)
  | _, _ => none

/--
Both standings at once: the smaller count, with the growth of the side that
holds it back, and the later cooldown.  Sides with the same finite count must
both grow; infinite sides do not.
-/
def meet
    (contest : Standing)
    (task : Standing) :
    Standing where
  count :=
    contest.count.smaller task.count
  nextGrowth :=
    match contest.count, task.count with
    | .infinite, .infinite => none
    | .infinite, .finite _ => task.nextGrowth
    | .finite _, .infinite => contest.nextGrowth
    | .finite first, .finite second =>
        if first < second then
          contest.nextGrowth
        else if second < first then
          task.nextGrowth
        else
          bothBy contest.nextGrowth task.nextGrowth
  cooldownEnd :=
    laterOf contest.cooldownEnd task.cooldownEnd

end Standing

end TokenBudget
