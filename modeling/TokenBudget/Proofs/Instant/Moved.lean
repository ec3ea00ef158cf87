import Mathlib.Data.List.Forall2
import TokenBudget.Proofs.Instant.Reach

namespace TokenBudget

/-!
# Moved instants

Outside leap seconds a shift moves all instants alike: it keeps their order, the
time elapsed between them, and where further shifts lead.  `Instant.MovedBy` is
the relation between an instant and the one that lies a distance after it, or
before it if the distance is negative.
-/

namespace Instant

/-- An instant outside leap seconds is moved by a distance. -/
structure MovedBy
    (distance : Int)
    (instant moved : Instant) :
    Prop where
  plain : instant.isLeap = false
  shifted : instant.shift? distance = some moved

namespace MovedBy

variable
    {distance : Int}
    {first second movedFirst movedSecond : Instant}

theorem movedPlain (moves : MovedBy distance first movedFirst) :
    movedFirst.isLeap = false :=
  (timeline_of_shift? moves.plain moves.shifted).2

theorem timeline_eq (moves : MovedBy distance first movedFirst) :
    movedFirst.timeline = first.timeline + distance :=
  (timeline_of_shift? moves.plain moves.shifted).1

/-- Outside leap seconds an instant is moved when its place on the timeline is. -/
theorem of_timeline
    (plain : first.isLeap = false)
    (movedPlain : movedFirst.isLeap = false)
    (place : movedFirst.timeline = first.timeline + distance) :
    MovedBy distance first movedFirst where
  plain := plain
  shifted := by
    have within := first.settledPlace_within
    have movedWithin := movedFirst.settledPlace_within
    rw [settledPlace_of_not_leap plain] at within
    rw [settledPlace_of_not_leap movedPlain] at movedWithin
    have narrow := lastPlace_lt_longestShift
    have short : distance.natAbs ≤ longestShift := by
      omega
    rw [shift?_of_not_leap plain short, ← place, atTimeline?_timeline movedPlain]

/-- Of two instants outside leap seconds, each is the other moved by the time elapsed. -/
theorem of_elapsed
    (plain : first.isLeap = false)
    (secondPlain : second.isLeap = false) :
    MovedBy (first.elapsed second) first second := by
  apply of_timeline plain secondPlain
  rw [elapsed_of_not_leap plain secondPlain]
  omega

variable
    (firstMoves : MovedBy distance first movedFirst)
    (secondMoves : MovedBy distance second movedSecond)

include firstMoves secondMoves

theorem le_iff :
    first ≤ second ↔ movedFirst ≤ movedSecond := by
  rw [le_iff_timeline firstMoves.plain secondMoves.plain,
    le_iff_timeline firstMoves.movedPlain secondMoves.movedPlain,
    firstMoves.timeline_eq, secondMoves.timeline_eq]
  omega

theorem lt_iff :
    first < second ↔ movedFirst < movedSecond := by
  rw [← not_le, ← not_le, secondMoves.le_iff firstMoves]

theorem elapsed_eq :
    movedFirst.elapsed movedSecond = first.elapsed second := by
  rw [elapsed_of_not_leap firstMoves.movedPlain secondMoves.movedPlain,
    elapsed_of_not_leap firstMoves.plain secondMoves.plain,
    firstMoves.timeline_eq, secondMoves.timeline_eq]
  omega

/-- The later of two instants is moved when both are. -/
theorem later :
    MovedBy distance (first.later second) (movedFirst.later movedSecond) := by
  simp only [Instant.later, firstMoves.le_iff secondMoves]
  split
  · exact secondMoves
  · exact firstMoves

omit secondMoves in
/-- Where two shifts by the same time lead, the ends are moved as the beginnings are. -/
theorem of_shift?
    {nanos : Int}
    (firstShifted : first.shift? nanos = some second)
    (movedShifted : movedFirst.shift? nanos = some movedSecond) :
    MovedBy distance second movedSecond := by
  obtain ⟨place, plain⟩ := timeline_of_shift? firstMoves.plain firstShifted
  obtain ⟨movedPlace, movedPlain⟩ := timeline_of_shift? firstMoves.movedPlain movedShifted
  apply of_timeline plain movedPlain
  rw [place, movedPlace, firstMoves.timeline_eq]
  omega

end MovedBy

/-- Instants that are moved from instants in order are in order. -/
theorem pairwise_le_of_moved
    {distance : Int}
    {instants moved : List Instant}
    (moves : List.Forall₂ (MovedBy distance) instants moved)
    (sorted : instants.Pairwise (· ≤ ·)) :
    moved.Pairwise (· ≤ ·) := by
  rw [List.pairwise_iff_getElem] at sorted ⊢
  intro earlier later earlierIn laterIn ordered
  have sameLength := moves.length_eq
  have earlierMoves := moves.get (by omega) earlierIn
  have laterMoves := moves.get (by omega) laterIn
  exact (earlierMoves.le_iff laterMoves).mp (sorted earlier later _ _ ordered)

end Instant

end TokenBudget
