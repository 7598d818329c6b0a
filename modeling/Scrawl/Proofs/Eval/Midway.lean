/-
  Scrawl.Proofs.Eval.Midway — worlds in the middle of a run.

  What holds of every world that evaluation passes through holds also where evaluation is broken off
  (`Invariant.evalUntil_lockstep`).  So the laws of scopes hold at every moment of what a host does, also
  while a program is running (`Midway.lawful`).
-/

import Scrawl.Proofs.Eval.Histories
import Scrawl.Proofs.Eval.Moments
import Scrawl.Proofs.Eval.Shaping

namespace Scrawl

open Comparison (Anything)

namespace Simulation

variable (s : Simulation) {stop : World → Bool} (hstop : ∀ {w w'}, s.world w w' → stop w' = stop w)
include hstop

theorem stopWhen_lockstep {k : Forest} : s.Lockstep k Anything (stopWhen stop) (stopWhen stop) := by
  refine .get fun w w' hw _ => ?_
  rw [hstop hw]
  split
  · exact .throw (s.fault_refl _)
  · exact .pure fun _ _ => trivial

/-- Evaluation that may be broken off, in related worlds at once, goes in lockstep, too. -/
theorem evalUntil_lockstep (hcover : Cover fun _ : Unit => s) (depth : Nat) :
    s.Evaluates (evalUntil stop s.rules depth) (evalUntil stop s.rules' depth) := by
  induction depth with
  | zero => exact fun _ _ _ _ _ _ _ => .throw (s.fault_refl _)
  | succ depth ih =>
    intro k room e n n' he hn
    have hlayer := s.evalLayer_lockstep ih (hcover.tells (fun _ => ih) ()) k room e n n' he hn
    refine hlayer.bind fun j _ d d' hd => .andThen (s.stopWhen_lockstep hstop) fun l hl => ?_
    exact .pure fun m hm => ⟨s.datum_mono (le_trans hl hm) hd.1, hd.2⟩

end Simulation

/-- Evaluation that may be broken off keeps worlds in order. -/
theorem Invariant.evalUntil_lockstep (i : Invariant) (hcover : Cover fun _ : Unit => i)
    (stop : World → Bool) (depth : Nat) :
    i.simulation.Evaluates (evalUntil stop i.rules depth) (evalUntil stop i.rules' depth) :=
  i.simulation.evalUntil_lockstep (fun hw => congrArg stop hw.1.symm) hcover depth

/-- A moment of what a host does: between two things that it does, or while a program runs or something
    happens to a window. -/
inductive Midway (start : World) : World → Prop
  /-- Nothing is being done. -/
  | between {w : World} (h : History start w) : Midway start w
  /-- An activity has come to the first node that leaves a certain kind of world. -/
  | during {w : World} (h : History start w) {a : Activity} (ha : a.Possible w.forest)
      (stop : World → Bool) (rounds depth : Nat) {libraries : Libraries}
      (hlibraries : libraries.Inert) (room : Room) :
      Midway start
        ((a.perform (evalUntil stop { rounds, restores := true, libraries } depth) room).after w)

/-- An activity keeps worlds housed, broken off or not. -/
theorem Activity.housed_until {w : World} (hw : w.Housed) {a : Activity} (ha : a.Possible w.forest)
    (stop : World → Bool) (rules : Rules) (hrefuses : ∀ action, rules.refuses action = none)
    (hlibraries : rules.libraries.Inert) (depth : Nat) (room : Room) :
    ((a.perform (evalUntil stop rules depth) room).after w).Housed ∧
      Evolves w ((a.perform (evalUntil stop rules depth) room).after w) := by
  let i := housingInvariant w hrefuses hlibraries
  have hcover : Invariant.Cover fun _ : Unit => i := Invariant.cover_self _ id
  have hevals := i.evalUntil_lockstep hcover stop depth
  refine housed_after rules (A := Anything) ?_ hw
  cases a with
  | run e text =>
    refine .bind (i.simulation.runText_lockstep hevals ha room fun _ _ => ⟨rfl, trivial⟩)
      fun _ _ _ _ _ => ?_
    exact .pure fun _ _ => trivial
  | play window cue =>
    have htells := Simulation.Cover.tells hcover (fun _ => hevals) ()
    exact i.simulation.play_lockstep (Rules.draws_of_refuses hrefuses) htells room window cue

/-- **The laws of scopes hold at every moment**, in worlds that a host brings about from nothing. -/
theorem Midway.lawful {scopeText : String} {files : FileTree} {cues : List Stage.Cue} {w : World}
    (h : Midway (World.empty scopeText files cues) w) : w.Housed ∧ w.Standing := by
  cases h with
  | between h => exact h.lawful
  | during h ha stop rounds depth hlibraries room =>
    obtain ⟨hhoused, hstanding⟩ := h.lawful
    obtain ⟨hhoused', hevolves⟩ := Activity.housed_until hhoused ha stop
      { rounds, restores := true, libraries := _ } (fun _ => rfl) hlibraries depth room
    exact ⟨hhoused', hevolves.standing hstanding⟩

end Scrawl
