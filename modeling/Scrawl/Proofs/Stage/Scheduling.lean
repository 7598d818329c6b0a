/-
  Scrawl.Proofs.Stage.Scheduling — scheduled redraws, measured by starts.

  By how much the redraws scheduled for a window exceed its starts (`surplus`) does not depend on what
  is drawn, nor on what becomes of the tables.
-/

import Scrawl.Stage.Basic

namespace Scrawl.Stage

/-- By how much the redraws scheduled for a window exceed its starts. -/
def Window.surplus (w : Window) : Int := w.pending - w.started

/-- The surplus of the window with a number; a window that has not been made has none. -/
def surplus (s : Stage) (n : Nat) : Int := (s.windows[n]?.map Window.surplus).getD 0

theorem surplus_of_window {s : Stage} {n : Nat} {window : Window} (h : s.windows[n]? = some window) :
    s.surplus n = window.surplus := by
  unfold surplus
  rw [h]
  rfl

@[simp] theorem surplus_empty (cues : List Cue) (n : Nat) : (Stage.empty cues).surplus n = 0 := by
  simp [surplus, Stage.empty]

@[simp] theorem surplus_setTable (s : Stage) (load : Nat) (t : Table) :
    (s.setTable load t).surplus = s.surplus := by
  unfold setTable
  split <;> rfl

@[simp] theorem surplus_note (s : Stage) (load : Nat) (d : Deed) :
    (s.note load d).surplus = s.surplus :=
  s.surplus_setTable load _

/-- A change of one window changes the surplus there by the same amount, if there is such a window. -/
theorem surplus_changeWindow (s : Stage) (n : Nat) {change : Window → Window} {more : Int}
    (h : ∀ w, (change w).surplus = w.surplus + more) (m : Nat) :
    (s.changeWindow n change).surplus m
      = s.surplus m + if n = m ∧ m < s.windows.size then more else 0 := by
  show ((s.windows.modify n change)[m]?.map Window.surplus).getD 0 = _
  rw [Array.getElem?_modify]
  unfold surplus
  by_cases hm : m < s.windows.size
  · rw [Array.getElem?_eq_getElem hm]
    by_cases hn : n = m
    · simp [hn, hm, h]
    · simp [hn]
  · rw [Array.getElem?_eq_none (Nat.le_of_not_lt hm)]
    simp [hm]

/-- A change of one window that leaves its surplus alone. -/
theorem surplus_changeWindow_same (s : Stage) (n : Nat) {change : Window → Window}
    (h : ∀ w, (change w).surplus = w.surplus) : (s.changeWindow n change).surplus = s.surplus := by
  funext m
  rw [s.surplus_changeWindow n fun w => (h w).trans (Int.add_zero _).symm]
  split <;> exact Int.add_zero _

/-- Once all redraws that are scheduled for a window are taken, its surplus is smaller by as many. -/
theorem surplus_taken (s : Stage) {m : Nat} {window : Window} (h : s.windows[m]? = some window)
    (n : Nat) :
    (s.changeWindow m fun w => { w with pending := 0 }).surplus n
      = s.surplus n - if m = n then window.pending else 0 := by
  show ((s.windows.modify m _)[n]?.map Window.surplus).getD 0 = _
  rw [Array.getElem?_modify]
  unfold surplus
  by_cases hn : m = n
  · subst hn
    rw [if_pos rfl, if_pos rfl, h]
    simp only [Option.map_some, Option.getD_some, Window.surplus]
    omega
  · rw [if_neg hn, if_neg hn]
    exact (Int.sub_zero _).symm

/-- A new window for which as many redraws are scheduled as it was started. -/
theorem surplus_push (s : Stage) {made : Window} (h : made.surplus = 0) :
    Stage.surplus { s with windows := s.windows.push made } = s.surplus := by
  funext m
  show ((s.windows.push made)[m]?.map Window.surplus).getD 0 = (s.windows[m]?.map Window.surplus).getD 0
  rw [Array.getElem?_push]
  split
  · next hm =>
    rw [hm, Array.getElem?_eq_none (Nat.le_refl _)]
    exact h
  · rfl

end Scrawl.Stage
