/-
  Scrawl.Proofs.Eval.StageMoves — drawing functions move the stage.

  A drawing function that does not run the program again makes a plan and carries it out, which makes
  one move on the stage: the one that belongs to it, if it returns.  It schedules nothing
  (`Drawing.moves`).
-/

import Scrawl.Proofs.Eval.Plans
import Scrawl.Proofs.Stage.Scheduling

namespace Scrawl

namespace Stage

/-! ## §1. Moves -/

/-- The outcome of a drawing function on a stage is a move, together with the record of the call if it
    returns, and no redraw has been scheduled. -/
inductive Moves (load : Nat) (op : Drawing) (args : List Value) (s : Stage) :
    EStateM.Result Fault World Value → Prop
  /-- It returns. -/
  | ok {v : Value} {w : World} (h : Move s.lasting (w.stage.lasting.note load ⟨op, args, v⟩))
      (hsurplus : w.stage.surplus = s.surplus) : Moves load op args s (.ok v w)
  /-- It fails. -/
  | error {f : Fault} {w : World} (h : Move s.lasting w.stage.lasting)
      (hsurplus : w.stage.surplus = s.surplus) : Moves load op args s (.error f w)

section Moves

variable {load : Nat} {op : Drawing} {args : List Value} {w : World}

/-- A single call of the toolkit makes nothing that lasts. -/
theorem moves_call (h : op ≠ .create ∧ op ≠ .loadSprite) (c : Call) :
    Moves load op args w.stage ((do call c; return .blank : Run Value) w) := by
  unfold call
  split
  · exact .ok (.quiet load h) rfl
  · exact .error .aside rfl

theorem Alters.surplus {change : Window → Window} (h : Alters op change) (w : Window) :
    (change w).surplus = w.surplus := by
  cases h <;> rfl

/-- A function changes the window that its first argument stands for. -/
theorem moves_alter {change : Window → Window} (h : Alters op change) {id : Value}
    (rest : List Value) {n : Nat} (hn : windowArg load id w = .ok n w) :
    Moves load op (id :: rest) w.stage
      ((do update (·.changeWindow n change); return .blank : Run Value) w) := by
  obtain ⟨i, hplace, hi⟩ := place_of_listedArg hn
  refine .ok ?_ (w.stage.surplus_changeWindow_same n h.surplus)
  show Move _ ((w.stage.changeWindow n change).lasting.note load _)
  rw [w.stage.lasting_changeWindow n h.lasting]
  exact Move.alter (s := w.stage.lasting) load h rest hplace hi _

/-- A call that can be written is logged. -/
theorem call_of_writable {c : Call} (h : c.isWritable = true) (w : World) :
    call c w = .ok () { w with stage := w.stage.log c } := by
  unfold call
  rw [if_pos h]
  rfl

/-- Calls of the toolkit are logged, up to the first that cannot be made. -/
theorem calls_log (cs : List Call) (w : World) : ∃ calls,
    (cs.forM call : Run Unit) w = .ok () { w with stage := { w.stage with calls } } ∨
      ∃ f, (cs.forM call : Run Unit) w = .error f { w with stage := { w.stage with calls } } := by
  induction cs generalizing w with
  | nil => exact ⟨w.stage.calls, .inl rfl⟩
  | cons c cs ih =>
    have hcons : (List.forM (c :: cs) call : Run Unit) = call c >>= fun _ => List.forM cs call := rfl
    by_cases hc : c.isWritable = true
    · have hcall := call_of_writable hc w
      -- the calls left are logged behind this one
      obtain ⟨calls, hcalls⟩ := ih { w with stage := w.stage.log c }
      refine ⟨calls, ?_⟩
      rw [hcons, Run.bind_of_ok hcall]
      exact hcalls
    · have hcall : call c w = .error .numberTooLong w := by
        unfold call
        rw [if_neg hc]
        rfl
      refine ⟨w.stage.calls, .inr ⟨.numberTooLong, ?_⟩⟩
      rw [hcons, Run.bind_of_error hcall]

/-- Calls that can be made are all logged. -/
theorem calls_logged {cs : List Call} (h : ∀ c ∈ cs, c.isWritable = true) (w : World) :
    (cs.forM call : Run Unit) w
      = .ok () { w with stage := { w.stage with calls := w.stage.calls ++ cs.toArray } } := by
  induction cs generalizing w with
  | nil =>
    rw [Array.append_empty]
    rfl
  | cons c cs ih =>
    have hcall := call_of_writable (h c List.mem_cons_self) w
    have hcalls : (w.stage.calls.push c) ++ cs.toArray = w.stage.calls ++ (c :: cs).toArray := by
      simp
    rw [← hcalls]
    exact (Run.bind_of_ok hcall _).trans (ih (fun c hc => h c (List.mem_cons_of_mem _ hc)) _)

/-- Changing the window that was made last. -/
theorem changeWindow_last (s : Stage) (made : Window) (change : Window → Window) :
    Stage.changeWindow { s with windows := s.windows.push made } s.windows.size change
      = { s with windows := s.windows.push (change made) } := by
  have hwindows : (s.windows.push made).modify s.windows.size change
      = s.windows.push (change made) := by
    apply Array.ext_getElem?
    intro m
    rw [Array.getElem?_modify, Array.getElem?_push, Array.getElem?_push]
    by_cases hm : m = s.windows.size
    · rw [if_pos hm.symm, if_pos hm, if_pos hm]
      rfl
    · rw [if_neg (Ne.symm hm), if_neg hm, if_neg hm]
  show ({ s with windows := (s.windows.push made).modify s.windows.size change } : Stage) = _
  rw [hwindows]

theorem lasting_push (s : Stage) (made : Window) :
    Stage.lasting { s with windows := s.windows.push made }
      = { s.lasting with windows := s.lasting.windows.push made.lasting } := by
  show ({ s.lasting with windows := (s.windows.push made).map Window.lasting } : Stage) = _
  rw [Array.map_push]
  rfl

theorem lasting_withWindow (s : Stage) (load : Nat) (made : Window) :
    (s.withWindow load made).lasting = s.lasting.withWindow load made.lasting := by
  unfold withWindow
  rw [lasting_setTable, size_lasting, lasting_push]
  rfl

theorem lasting_withSprite (s : Stage) (load : Nat) :
    (s.withSprite load).lasting = s.lasting.withSprite load := by
  unfold withSprite
  rw [lasting_setTable]
  rfl

/-- A window as it is when it is begun. -/
def begun (s : Stage) (e : ScopeId) (draw : Value) : Window :=
  { draw, home := e, background := .text "black", onKey := none, onClick := none,
    complete := false, started := 0, pending := 0, script := s.cues }

/-- Opening a window begins one and then makes the calls for it. -/
theorem openWindow_eq (load : Nat) (e : ScopeId) (draw : Value) (width height : Int) (title : String)
    (w : World) :
    openWindow load e draw width height title w
      = ((openingCalls w.stage.windows.size title width height).forM call >>= fun _ =>
          modifyGet fun u =>
            let s := u.stage.changeWindow w.stage.windows.size fun made => { made with complete := true }
            ((s.table load).windows.length, { u with
              stage := s.setTable load
                { s.table load with windows := (s.table load).windows ++ [w.stage.windows.size] } }) :
          Run Nat)
        { w with stage := { w.stage with windows := w.stage.windows.push (w.stage.begun e draw) } } := by
  unfold openWindow
  rw [Run.bind_of_ok (show (MonadState.get : Run World) w = .ok w w from rfl)]
  exact Run.bind_of_ok rfl _

/-- It makes a window if all these calls can be made. -/
theorem openWindow_of_calls {load : Nat} {e : ScopeId} {draw : Value} {width height : Int}
    {title : String} {w : World} {calls : Array Call}
    (h : (List.forM (openingCalls w.stage.windows.size title width height) call : Run Unit)
        { w with stage := { w.stage with windows := w.stage.windows.push (w.stage.begun e draw) } }
      = .ok () { w with stage :=
          { w.stage with calls, windows := w.stage.windows.push (w.stage.begun e draw) } }) :
    openWindow load e draw width height title w
      = .ok (w.stage.table load).windows.length { w with
          stage := Stage.withWindow { w.stage with calls } load
            { w.stage.begun e draw with complete := true } } := by
  -- the window that is completed is the one that was begun last
  have hmade := changeWindow_last { w.stage with calls } (w.stage.begun e draw)
    fun made => { made with complete := true }
  dsimp only at hmade
  rw [openWindow_eq, Run.bind_of_ok h]
  refine (congrArg (fun s : Stage => EStateM.Result.ok (s.table load).windows.length { w with
    stage := s.setTable load { s.table load with
      windows := (s.table load).windows ++ [w.stage.windows.size] } }) hmade).trans ?_
  rfl

/-- Opening a window either makes one or begins one that is never completed. -/
theorem openWindow_cases (load : Nat) (e : ScopeId) (draw : Value) (width height : Int)
    (title : String) (w : World) : ∃ calls,
    openWindow load e draw width height title w
        = .ok (w.stage.table load).windows.length { w with
            stage := Stage.withWindow { w.stage with calls } load
              { w.stage.begun e draw with complete := true } } ∨
      ∃ f, openWindow load e draw width height title w
        = .error f { w with
            stage := { w.stage with calls, windows := w.stage.windows.push (w.stage.begun e draw) } } := by
  obtain ⟨calls, hcalls | ⟨f, hcalls⟩⟩ := calls_log
    (openingCalls w.stage.windows.size title width height)
    { w with stage := { w.stage with windows := w.stage.windows.push (w.stage.begun e draw) } }
  · exact ⟨calls, .inl (openWindow_of_calls hcalls)⟩
  · refine ⟨calls, .inr ⟨f, ?_⟩⟩
    rw [openWindow_eq]
    exact Run.bind_of_error hcalls _

/-- A call that opens a window moves the stage: a new window has a place in the table, or the call has
    failed and none has. -/
theorem moves_openWindow (e : ScopeId) (draw : Value) (width height : Int) (title : String) :
    Moves load .create args w.stage
      ((do let id ← openWindow load e draw width height title
           return .number (.int id) : Run Value) w) := by
  obtain ⟨calls, hopen | ⟨f, hopen⟩⟩ := openWindow_cases load e draw width height title w
  · rw [Run.bind_of_ok hopen]
    refine .ok ?_ ((surplus_setTable _ load _).trans (surplus_push _ rfl))
    show Move _ (Stage.note (Stage.lasting (Stage.withWindow { w.stage with calls } load _)) load _)
    rw [lasting_withWindow]
    exact .create load args _
  · rw [Run.bind_of_error hopen]
    refine .error ?_ (surplus_push _ rfl)
    show Move _ (Stage.lasting { w.stage with windows := w.stage.windows.push _ })
    rw [lasting_push]
    exact .botch rfl

theorem moves_loadImage (path : String) :
    Moves load .loadSprite args w.stage
      ((do let id ← loadImage load path; return .number (.int id) : Run Value) w) := by
  refine .ok ?_ (surplus_setTable _ load _)
  show Move _ (((w.stage.log (.loadImage path)).withSprite load).lasting.note load _)
  rw [lasting_withSprite]
  exact .loadSprite load args

end Moves

end Stage

open Stage

/-! ## §2. One call, one move -/

/-- **A drawing function that does not run the program again makes one move.** -/
theorem Drawing.moves (inner : Evaluator) (room : Room) (e : ScopeId) (load : Nat) {op : Drawing}
    (hop : op ≠ .start) (args : List Value) (w : World) :
    Moves load op args w.stage (op.run inner room e load args w) := by
  rw [Drawing.run_eq inner room e load hop]
  have hplanned := Drawing.planned load op args w
  refine (Drawing.plan_reads load op args).bind_outcome (fun _ => .error .aside rfl) fun plan hplan => ?_
  rw [hplan] at hplanned
  cases hplanned with
  | suits hsuits =>
    cases hsuits with
    | opens _ draw width height title => exact moves_openWindow e draw width height title
    | loads _ path => exact moves_loadImage path
    | alters halters hn rest => exact moves_alter halters rest hn
    | asks hmaking _ _ _ => exact moves_call hmaking _

end Scrawl
