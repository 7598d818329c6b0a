/-
  Scrawl.Room — how deep things may be nested.

  Whatever is nested takes up levels.  A part of a run is given some room, goes down as many levels
  as it needs, and hands what is left on to the parts inside it; where the room does not suffice,
  the run ends with a fault.
-/

import Scrawl.Fault

namespace Scrawl

/-- How many levels things may still be nested. -/
inductive Room where
  /-- So many. -/
  | levels (n : Nat)
  /-- As many as it takes. -/
  | unlimited
  deriving Repr, DecidableEq

namespace Room

/-- Whether there is room for so many levels. -/
def holds (room : Room) (count : Nat) : Bool :=
  match room with
  | .levels n => count ≤ n
  | .unlimited => true

/-- The room left so many levels further down. -/
def below (room : Room) (count : Nat) : Room :=
  match room with
  | .levels n => .levels (n - count)
  | .unlimited => .unlimited

/-- Goes so many levels down, if there is room for them. -/
def descend (room : Room) (count : Nat) : Except Fault Room :=
  if room.holds count then .ok (room.below count) else .error .tooDeep

end Room

end Scrawl
