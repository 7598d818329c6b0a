/-
  Scrawl.Proofs.Room — going down levels.

  Whether there is room for so many levels is all that matters when parts of a run go down, at once or
  one after another.
-/

import Scrawl.Room

namespace Scrawl.Room

variable {room : Room}

theorem holds_add (room : Room) (m n : Nat) :
    room.holds (m + n) = (room.holds m && (room.below m).holds n) := by
  cases room with
  | unlimited => rfl
  | levels l =>
    show decide (m + n ≤ l) = (decide (m ≤ l) && decide (n ≤ l - m))
    rw [← Bool.decide_and]
    congr 1
    exact propext (by omega)

theorem holds_of_le {m n : Nat} (h : room.holds n = true) (hle : m ≤ n) : room.holds m = true := by
  cases room with
  | unlimited => rfl
  | levels count => exact decide_eq_true (Nat.le_trans hle (of_decide_eq_true h))

/-- Where there is room for so many levels, there is room for some of them below the others. -/
theorem holds_below {l m n : Nat} (h : room.holds l = true) (hle : m + n ≤ l) :
    (room.below m).holds n = true := by
  have hboth := holds_of_le h hle
  rw [holds_add, Bool.and_eq_true] at hboth
  exact hboth.2

theorem descend_of_holds {count : Nat} (h : room.holds count = true) :
    room.descend count = .ok (room.below count) :=
  if_pos h

theorem descend_of_not_holds {count : Nat} (h : room.holds count = false) :
    room.descend count = .error .tooDeep :=
  if_neg (Bool.eq_false_iff.1 h)

theorem below_below (room : Room) (m n : Nat) : (room.below m).below n = room.below (m + n) := by
  cases room with
  | unlimited => rfl
  | levels count => exact congrArg Room.levels (Nat.sub_sub count m n)

/-- Going down a part of the levels for which there is room, and then another one. -/
theorem descend_below {l m n : Nat} (h : room.holds l = true) (hle : m + n ≤ l) :
    (room.below m).descend n = .ok (room.below (m + n)) := by
  rw [descend_of_holds (holds_below h hle), below_below]

end Scrawl.Room
