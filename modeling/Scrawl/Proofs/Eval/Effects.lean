/-
  Scrawl.Proofs.Eval.Effects — drawing functions do everything or nothing.

  Whatever a call of a drawing function can fail at, apart from the toolkit, comes before everything that
  it does: the checks that every call goes through (`callNative_outcome`), and then all of its arguments.
  So a call that fails leaves the world exactly as it was, and a call that returns has made one window or
  one sprite, or has changed one field of the window that its first argument stands for, or has made one
  call of the toolkit on that window (`drawing_all_or_nothing`).
-/

import Scrawl.Eval.Node
import Scrawl.Proofs.Eval.Windows

namespace Scrawl

open Stage

/-! ## §1. What comes before -/

/-- Only a function of the language is taken for one, and for itself. -/
theorem inspect_eq_ok {room : Room} {native fn : Native} (h : inspect room (.native native) = .ok fn) :
    fn = native := by
  unfold inspect at h
  split at h
  · cases h
  · split at h
    · cases h
    · exact (Except.ok.inj h).symm

section Calls

variable {rules : Rules} {inner : Evaluator} {e : ScopeId} {native : Native} {w : World}
  {P : EStateM.Result Fault World Datum → Prop} (hfails : ∀ f, P (.error f w))
include hfails

/-- What holds of every failure, and of what a function does with as many arguments as it takes, holds of
    a function that is given any arguments. -/
theorem Native.apply_outcome {room : Room} {args : List Value}
    (h : P (native.run rules inner room e args w)) : P (native.apply rules inner room e args w) := by
  unfold Native.apply
  split
  · exact hfails _
  · split
    · exact hfails _
    · exact h

/-- It holds of a call by a program then, whatever is checked before. -/
theorem callNative_outcome (room : Room) (callee : Value) {ds : List Datum}
    (h : ∀ inside, P (native.run rules inner inside e (ds.map (·.value)) w)) :
    P (callNative rules inner room e callee (.nativeValue native) ds w) := by
  unfold callNative
  refine Run.Reads.bind_outcome (.lift _) hfails fun target htarget => ?_
  obtain ⟨hitem, -⟩ := Run.ofExcept_eq_ok htarget
  obtain rfl : Value.native native = target := Except.ok.inj hitem
  refine Run.Reads.bind_outcome (.lift _) hfails fun fn hfn => ?_
  obtain rfl := inspect_eq_ok (Run.ofExcept_eq_ok hfn).1
  refine (checkArity_reads callee _ _ true).bind_outcome hfails fun _ _ => ?_
  refine (rules.permit_reads _).bind_outcome hfails fun _ _ => ?_
  refine Run.Reads.bind_outcome (.lift _) hfails fun inside _ => ?_
  exact Native.apply_outcome hfails (h inside)

end Calls

/-! ## §2. What is done -/

/-- What a drawing function has made of the stage when it returns, and what it gives back. -/
inductive Done (load : Nat) (e : ScopeId) (w : World) : Drawing → List Value → Value → Stage → Prop
  /-- One window has been made, by the calls for it. -/
  | window (args : List Value) (draw : Value) (width height : Int) (title : String) :
      Done load e w .create args (.number (.int (w.stage.table load).windows.length))
        (Stage.withWindow
          { w.stage with
            calls := w.stage.calls ++ (openingCalls w.stage.windows.size title width height).toArray }
          load { w.stage.begun e draw with complete := true })
  /-- One sprite has been made, by the call that loads its image. -/
  | sprite (args : List Value) (path : String) :
      Done load e w .loadSprite args (.number (.int (w.stage.table load).sprites.length))
        ((w.stage.log (.loadImage path)).withSprite load)
  /-- One field has changed of the window that the first argument stands for. -/
  | field {op : Drawing} {change : Window → Window} (hop : Alters op change) {id : Value} {n : Nat}
      (hn : windowArg load id w = .ok n w) (rest : List Value) :
      Done load e w op (id :: rest) .blank (w.stage.changeWindow n change)
  /-- One call has been made on it. -/
  | call {op : Drawing} {id : Value} {n : Nat} (hn : windowArg load id w = .ok n w) (rest : List Value)
      {c : Call} (hc : c.window? = some n) : Done load e w op (id :: rest) .blank (w.stage.log c)

/-- A call of a drawing function does everything or nothing. -/
inductive AllOrNothing (load : Nat) (e : ScopeId) (w : World) (op : Drawing) (args : List Value) :
    EStateM.Result Fault World Datum → Prop
  /-- It fails, and the world is as it was. -/
  | nothing (f : Fault) : AllOrNothing load e w op args (.error f w)
  /-- It returns, and on the stage one thing has been done, which is on record. -/
  | all {v : Value} {s : Stage} (h : Done load e w op args v s) :
      AllOrNothing load e w op args (.ok (.plain v) { w with stage := s.note load ⟨op, args, v⟩ })

section Plans

variable {load : Nat} {e : ScopeId} {w : World} {op : Drawing} {args : List Value}

/-- **A plan that suits a function is carried out**, if the toolkit makes its calls. -/
theorem Stage.Plan.Suits.done {plan : Plan} (h : plan.Suits load w op args)
    (htoolkit : ∀ c ∈ plan.calls w.stage.windows.size, c.isWritable = true) (e : ScopeId) :
    ∃ v s, plan.carryOut load e w = .ok v { w with stage := s } ∧ Done load e w op args v s := by
  cases h with
  | opens _ draw width height title =>
    have hcalls := calls_logged htoolkit
      { w with stage := { w.stage with windows := w.stage.windows.push (w.stage.begun e draw) } }
    exact ⟨_, _, Run.bind_of_ok (openWindow_of_calls hcalls) _, .window args draw width height title⟩
  | loads _ path => exact ⟨_, _, rfl, .sprite args path⟩
  | alters halters hn rest => exact ⟨_, _, rfl, .field halters hn rest⟩
  | asks _ hn rest hc =>
    have hwritable := htoolkit _ List.mem_cons_self
    exact ⟨_, _, Run.bind_of_ok (call_of_writable hwritable w) _, .call hn rest hc⟩

/-- So a drawing function that is given as many arguments as it takes does everything or nothing. -/
theorem drawing_run (hop : op ≠ .start)
    (htoolkit : ∀ plan, op.plan load args w = .ok plan w →
      ∀ c ∈ plan.calls w.stage.windows.size, c.isWritable = true)
    (rules : Rules) (inner : Evaluator) (room : Room) (e : ScopeId) :
    AllOrNothing load e w op args ((Native.drawing load op).run rules inner room e args w) := by
  show AllOrNothing load e w op args ((do
    let result ← op.run inner room e load args
    Stage.update (·.note load { op, args, result })
    return .plain result : Run Datum) w)
  have hplanned := Drawing.planned load op args w
  rw [Drawing.run_eq inner room e load hop, bind_assoc]
  refine (Drawing.plan_reads load op args).bind_outcome .nothing fun plan hplan => ?_
  rw [hplan] at hplanned
  cases hplanned with
  | suits hsuits =>
    obtain ⟨v, s, hcarried, hdone⟩ := hsuits.done (htoolkit plan hplan) e
    rw [Run.bind_of_ok hcarried]
    exact .all hdone

end Plans

/-! ## §3. Calls from programs -/

/-- **Drawing functions do everything or nothing**, in every world, whatever they are given and however
    often: a call other than one that starts a window, if the toolkit makes the calls that it comes to,
    fails with the world exactly as it was, or returns and has done one thing.  It has made one window or
    one sprite, or changed one field of the window that its first argument stands for without any call of
    the toolkit, or made one call of the toolkit on that window. -/
theorem drawing_all_or_nothing {op : Drawing} (hop : op ≠ .start) (load : Nat) (w : World)
    (ds : List Datum)
    (htoolkit : ∀ plan, op.plan load (ds.map (·.value)) w = .ok plan w →
      ∀ c ∈ plan.calls w.stage.windows.size, c.isWritable = true)
    (rules : Rules) (inner : Evaluator) (room : Room) (e : ScopeId) (callee : Value) :
    AllOrNothing load e w op (ds.map (·.value))
      (callNative rules inner room e callee (.nativeValue (.drawing load op)) ds w) :=
  callNative_outcome .nothing room callee fun inside => drawing_run hop htoolkit rules inner inside e

/-- What a window can be opened with. -/
def openingArgs : List Datum :=
  [.plain (.string "d"), .plain (.number (.int 9)), .plain (.number (.int 9)), .plain (.string "one")]

/-- Opening a window with that does everything. -/
theorem opening_all_or_nothing :
    Run.fault? (callNative .standard (eval .standard 3) .unlimited 0 .nothing
        (.nativeValue (.drawing 0 .create)) openingArgs) drawingWorld = none ∧
      AllOrNothing 0 0 drawingWorld .create (openingArgs.map (·.value))
        (callNative .standard (eval .standard 3) .unlimited 0 .nothing
          (.nativeValue (.drawing 0 .create)) openingArgs drawingWorld) := by
  have hplan : Drawing.plan 0 .create (openingArgs.map (·.value)) drawingWorld
      = .ok (.opens (.text "d") 9 9 "one") drawingWorld := rfl
  have hnine : Decimal.isWritable 9 = true := by decide +kernel
  have hwritable : ∀ n, ∀ c ∈ openingCalls n "one" 9 9, c.isWritable = true := by
    intro n
    simp [openingCalls, listened, Call.isWritable, hnine]
  refine ⟨by decide +kernel, drawing_all_or_nothing (by decide) 0 drawingWorld openingArgs ?_ _ _ _ _ _⟩
  intro plan hplan'
  cases hplan.symm.trans hplan'
  exact hwritable _

end Scrawl
