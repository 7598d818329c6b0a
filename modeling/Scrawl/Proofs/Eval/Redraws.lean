/-
  Scrawl.Proofs.Eval.Redraws — how many redraws are scheduled for a window.

  Two things schedule a redraw: starting a window, and a redraw itself.  A frame takes all that are
  scheduled for its window and does each of them, so that it gives back no more than it has taken.
  Everything else leaves them alone, or runs the program again.  So nothing adds to the surplus of
  scheduled redraws over starts (`scheduling`), and at no moment are more redraws scheduled for a window
  than it was started (`redraws_within_starts`).
-/

import Scrawl.Proofs.Eval.Windows

namespace Scrawl

/-! ## §1. What runs add -/

/-- A run adds at most so much to the surplus of a window. -/
def Run.Adds {α : Type} (n more : Nat) (x : Run α) : Prop :=
  ∀ w, (x.after w).stage.surplus n ≤ w.stage.surplus n + more

namespace Run.Adds

variable {α β : Type} {n : Nat}

theorem reads {x : Run α} (h : x.Reads) : Adds n 0 x := by
  intro w
  rw [h.after]
  omega

/-- A run may look at the world first. -/
theorem of_reads {x : Run α} (hx : x.Reads) {f : α → Run β} {more : Nat} {w : World}
    (h : ∀ a, x w = .ok a w → ((f a).after w).stage.surplus n ≤ w.stage.surplus n + more) :
    ((x >>= f).after w).stage.surplus n ≤ w.stage.surplus n + more := by
  rcases hx w with ⟨a, ha⟩ | ⟨fault, hfault⟩
  · rw [Run.after_bind_of_ok ha]
    exact h a ha
  · rw [Run.after_bind_of_error hfault]
    omega

theorem modifies {change : World → World} (h : ∀ w, (change w).stage.surplus = w.stage.surplus) :
    Adds n 0 (modify change : Run Unit) := by
  intro w
  show (change w).stage.surplus n ≤ _
  rw [h]
  omega

/-- What the parts of a run add comes together. -/
theorem bind {x : Run α} {f : α → Run β} {more more' : Nat} (hx : Adds n more x)
    (hf : ∀ a, Adds n more' (f a)) : Adds n (more + more') (x >>= f) := by
  intro w
  have hfirst := hx w
  unfold Run.after at hfirst
  cases h : x w with
  | ok a v =>
    have hrest := hf a v
    rw [h] at hfirst
    rw [Run.after_bind_of_ok h]
    dsimp only at hfirst
    omega
  | error f v =>
    rw [h] at hfirst
    rw [Run.after_bind_of_error h]
    dsimp only at hfirst
    omega

/-- The first part of a run may add nothing. -/
theorem next {x : Run α} {f : α → Run β} {more : Nat} (hx : Adds n 0 x)
    (hf : ∀ a, Adds n more (f a)) : Adds n more (x >>= f) := by
  rw [← Nat.zero_add more]
  exact hx.bind hf

/-- A run that adds something, so many times. -/
theorem replicate {f : α → Run Unit} {a : α} {more : Nat} (h : Adds n more (f a)) (count : Nat) :
    Adds n (count * more) ((List.replicate count a).forM f) := by
  induction count with
  | zero =>
    rw [Nat.zero_mul]
    exact .reads (.pure ())
  | succ count ih =>
    rw [Nat.succ_mul, Nat.add_comm]
    exact h.bind fun _ => ih

end Run.Adds

open Run (Adds)

namespace Stage

/-! ## §2. Scheduling -/

theorem call_adds (n : Nat) (c : Call) : Adds n 0 (call c) := by
  unfold call
  split
  · exact .modifies fun _ => rfl
  · exact .reads (.throw _)

/-- A redraw is scheduled for one window, if there is one. -/
theorem surplus_schedule (m n : Nat) (w : World) :
    ((schedule m).after w).stage.surplus n
      = w.stage.surplus n + if m = n ∧ n < w.stage.windows.size then 1 else 0 := by
  have hone : ∀ window : Window,
      Window.surplus { window with pending := window.pending + 1 } = window.surplus + 1 := by
    intro window
    unfold Window.surplus
    dsimp only
    omega
  exact (w.stage.log (.schedule m)).surplus_changeWindow m hone n

theorem schedule_adds (n m : Nat) : Adds n (if m = n then 1 else 0) (schedule m) := by
  intro w
  rw [surplus_schedule]
  split <;> split <;> omega

/-- A window that is started has one start more for the redraw that is scheduled then. -/
theorem begins_adds (n m : Nat) :
    Adds n 0 (do update (·.changeWindow m fun w => { w with started := w.started + 1 })
                 schedule m) := by
  have hone : ∀ window : Window,
      Window.surplus { window with started := window.started + 1 } = window.surplus + -1 := by
    intro window
    unfold Window.surplus
    dsimp only
    omega
  intro w
  refine (surplus_schedule m n { w with stage := w.stage.changeWindow m _ }).trans_le ?_
  show (w.stage.changeWindow m _).surplus n
    + (if m = n ∧ n < (w.stage.windows.modify m _).size then 1 else 0) ≤ _
  rw [w.stage.surplus_changeWindow m hone n, Array.size_modify]
  split <;> omega

/-! ## §3. Frames -/

theorem window_eq_ok {m : Nat} {w : World} {window : Window} (h : Stage.window m w = .ok window w) :
    w.stage.windows[m]? = some window := by
  unfold Stage.window at h
  rw [Run.bind_of_ok (show (MonadState.get : Run World) w = .ok w w from rfl)] at h
  cases hfound : w.stage.windows[m]? with
  | none =>
    rw [hfound] at h
    cases h
  | some found =>
    rw [hfound] at h
    cases h
    rfl

theorem window_eq {m : Nat} {w : World} {window : Window} (h : w.stage.windows[m]? = some window) :
    Stage.window m w = .ok window w := by
  unfold Stage.window
  rw [Run.bind_of_ok (show (MonadState.get : Run World) w = .ok w w from rfl), h]
  rfl

/-- A frame takes every redraw that is scheduled for its window and does it once. -/
theorem frame_eq {room room' : Room} (hroom : room.descend 1 = .ok room') {w : World} {m : Nat}
    {window : Window} (hwindow : w.stage.windows[m]? = some window) (inner : Evaluator) :
    frame inner room m w = (List.replicate window.pending m).forM (redraw inner room')
      { w with stage := w.stage.changeWindow m fun w => { w with pending := 0 } } := by
  unfold frame
  rw [hroom]
  exact (Run.bind_of_ok rfl _).trans ((Run.bind_of_ok (window_eq hwindow) _).trans
    (Run.bind_of_ok rfl _))

section Frames

variable {inner : Evaluator} {n : Nat} (hinner : ∀ room e node, Adds n 0 (inner room e node))
include hinner

theorem redraw_adds (room : Room) (m : Nat) :
    Adds n (if m = n then 1 else 0) (redraw inner room m) :=
  .next (.reads (window_reads m)) fun _ => .next (call_adds n _) fun _ =>
    .next (call_adds n _) fun _ =>
      .next (.next (hinner room _ _) fun _ => .reads (.pure _)) fun _ => schedule_adds n m

/-- **A frame schedules no more redraws than it does.** -/
theorem frame_adds (room : Room) (m : Nat) : Adds n 0 (frame inner room m) := by
  intro w
  refine Adds.of_reads (.lift _) fun room' _ => ?_
  refine Adds.of_reads (window_reads m) fun window hwindow => ?_
  rw [Run.after_bind_of_ok (show update _ w = .ok () _ from rfl)]
  -- the surplus is smaller by the redraws that are taken, and each of them may add one
  have htaken := w.stage.surplus_taken (window_eq_ok hwindow) n
  have hdone := Run.Adds.replicate (redraw_adds hinner room' m) window.pending
    { w with stage := w.stage.changeWindow m fun w => { w with pending := 0 } }
  refine hdone.trans ?_
  dsimp only
  rw [htaken]
  split <;> omega

end Frames

/-- A drawing function that does not run the program again, noted if it returns. -/
theorem noted_adds {load : Nat} {op : Drawing} {args : List Value} {x : Run Value}
    (h : ∀ w, Moves load op args w.stage (x w)) (n : Nat) :
    Adds n 0 (do let result ← x; update (·.note load { op, args, result })
                 return Datum.plain result) := by
  refine .next (fun w => ?_) fun result =>
    .next (.modifies fun w => w.stage.surplus_note load _) fun _ => .reads (.pure _)
  unfold Run.after
  have hmoves := h w
  generalize x w = outcome at hmoves
  cases hmoves with
  | ok _ hsurplus => exact (congrFun hsurplus n).trans_le (by omega)
  | error _ hsurplus => exact (congrFun hsurplus n).trans_le (by omega)

end Stage

/-! ## §4. Whole runs -/

/-- **The program never adds to a surplus.** -/
def scheduling : Congruence where
  Rel _ y := ∀ n, Adds n 0 y
  reads h n := .reads h
  bind h hfg n := .bind (h n) fun a => hfg a n
  aside h n w := by
    obtain ⟨-, cues, calls, hstage⟩ := h w
    have hsurplus : _ = w.stage.surplus := (congrArg Stage.surplus hstage).trans rfl
    exact (congrFun hsurplus n).trans_le (by omega)
  script m cues n := .modifies fun w => w.stage.surplus_changeWindow_same m fun _ => rfl
  begins m n := Stage.begins_adds n m
  frame h room m n := Stage.frame_adds (fun room e node => h room e node n) room m
  draws inner room e load _ hop args n := Stage.noted_adds (Drawing.moves inner room e load hop args) n
  ended load args result n := .modifies fun w => w.stage.surplus_note load _
  reloads n := .modifies fun _ => rfl

/-- At every moment the surplus is at most what it was. -/
theorem Course.surplus_le {start w : World} (h : Course start w) (n : Nat) :
    w.stage.surplus n ≤ start.stage.surplus n := by
  induction h with
  | refl => exact Int.le_refl _
  | tail _ hproceeds ih =>
    obtain ⟨task, stop, rules, depth, hlibraries, rfl⟩ := hproceeds
    have hadmits : scheduling.Admits rules.libraries := by
      intro text n u
      rw [hlibraries text u]
      omega
    have hevals : scheduling.Related (evalUntil stop rules depth) (evalUntil stop rules depth) :=
      scheduling.evalUntil (fun n => .reads (stopWhen_reads stop)) hadmits depth
    have htask := Congruence.task hevals hadmits (fun _ _ => .modifies fun _ => rfl) task
    exact (htask n _).trans (by omega)

/-- **No more redraws are scheduled for a window than it was started.**  Begin with nothing on the stage,
    have anything done, and look at any moment: also while a program or a main loop is running, inside of
    functions that windows call, and after calls that have failed.  A frame does each redraw that is
    scheduled, once, so it redraws a window at most as often as the window was started.  Other libraries
    leave the stage alone. -/
theorem redraws_within_starts {start w : World} {cues : List Stage.Cue}
    (hstart : start.stage = .empty cues) (h : Course start w) {n : Nat} {window : Stage.Window}
    (hwindow : w.stage.windows[n]? = some window) :
    window.pending ≤ window.started ∧
      ∀ {room room' : Room}, room.descend 1 = .ok room' → ∀ inner : Evaluator,
        Stage.frame inner room n w = (List.replicate window.pending n).forM (Stage.redraw inner room')
          { w with stage := w.stage.changeWindow n fun w => { w with pending := 0 } } := by
  refine ⟨?_, fun hroom inner => Stage.frame_eq hroom hwindow inner⟩
  have hsurplus := h.surplus_le n
  rw [hstart, Stage.surplus_empty, Stage.surplus_of_window hwindow] at hsurplus
  unfold Stage.Window.surplus at hsurplus
  omega

/-- A program that opens a window and gives it a drawing function, and then goes on. -/
def drawnBy (body rest : List Value) : Task :=
  .statements .unlimited 0 <| .list <|
    [setNode "w" (namedCall "g2d_create" [.string "d", .string "9", .string "9", .string "one"]),
      setNode "d" (functionNode [] body)] ++ rest

/-- Starts the window. -/
def startCall : Value := namedCall "g2d_start" [.symbolNode (.text "w")]

/-- A window that is started, and started again by its own drawing function. -/
def restartedInside : World :=
  (drawnBy [startCall] [startCall]).until (fun _ => false) .standard 30 drawingWorld

/-- A window that is started again while it is redrawn. -/
theorem restarted_within_starts : ∃ window, restartedInside.stage.windows[0]? = some window ∧
    window.started = 2 ∧ window.pending ≤ window.started := by
  have hcourse : Course drawingWorld restartedInside :=
    .single ⟨_, _, _, _, Libraries.idle_inert.leave _, rfl⟩
  have hstarted : restartedInside.stage.windows[0]?.map (·.started) = some 2 := by decide +kernel
  obtain ⟨window, hwindow, htwo⟩ := Option.map_eq_some_iff.1 hstarted
  exact ⟨window, hwindow, htwo, (redraws_within_starts rfl hcourse hwindow).1⟩

/-- Whether a call clears a canvas, which every redraw does once. -/
def Stage.Call.isClear : Call → Bool
  | .clear _ => true
  | _ => false

/-- A window that is started, and started again when its main loop has ended. -/
def startedTwice : World :=
  (drawnBy [] [startCall, startCall]).until (fun _ => false) .standard 30 drawingWorld

/-- **Starting a window twice gives it two chains of redraws**: two are scheduled, and a frame redraws it
    twice. -/
theorem two_chains : Course drawingWorld startedTwice ∧
    startedTwice.stage.windows[0]?.map (·.pending) = some 2 ∧
    ((Stage.frame (eval .standard 30) .unlimited 0).after
        { startedTwice with stage := { startedTwice.stage with calls := #[] } }).stage.calls.countP
      Stage.Call.isClear = 2 :=
  ⟨.single ⟨_, _, _, _, Libraries.idle_inert.leave _, rfl⟩, by decide +kernel, by decide +kernel⟩

end Scrawl
