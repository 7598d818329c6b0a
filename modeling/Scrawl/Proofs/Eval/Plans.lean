/-
  Scrawl.Proofs.Eval.Plans — what drawing functions set out to do.

  A drawing function that does not run the program again looks at all of its arguments before it does
  anything, which leaves the world alone (`Run.Reads`).  So it comes down to a plan (`Drawing.plan`) that
  is then carried out (`Drawing.run_eq`).  A plan is about one thing: a new window, a new sprite, the
  window that the first argument stands for, or one call on it (`Drawing.planned`).
-/

import Scrawl.Eval.Drawing
import Scrawl.Proofs.Run
import Scrawl.Proofs.Stage.Growth

namespace Scrawl

namespace Stage

/-! ## §1. Arguments -/

theorem intArg_reads (v : Value) : (intArg v).Reads := .bind (.lift _) fun _ => .lift _

theorem textArg_reads (v : Value) : (textArg v).Reads := .bind (.lift _) fun _ => plainText_reads _

theorem listedArg_reads (items : Table → List Nat) (load : Nat) (v : Value) :
    (listedArg items load v).Reads :=
  .bind (intArg_reads v) fun _ => .bind .get fun _ => .lift _

theorem windowArg_reads (load : Nat) (v : Value) : (windowArg load v).Reads :=
  listedArg_reads _ load v

theorem spriteArg_reads (load : Nat) (v : Value) : (spriteArg load v).Reads :=
  listedArg_reads _ load v

theorem pointArgs_reads (x1 y1 x2 y2 : Value) : (pointArgs x1 y1 x2 y2).Reads :=
  .bind (intArg_reads x1) fun _ => .bind (intArg_reads y1) fun _ =>
    .bind (intArg_reads x2) fun _ => .bind (intArg_reads y2) fun _ => .pure _

theorem boxArgs_reads (x y w h : Value) : (boxArgs x y w h).Reads :=
  .bind (intArg_reads x) fun _ => .bind (intArg_reads y) fun _ =>
    .bind (intArg_reads w) fun _ => .bind (intArg_reads h) fun _ => .pure _

section Places

variable {items : Table → List Nat} {load : Nat} {id : Value} {w w' : World} {n : Nat}

/-- The number in an argument that can be counted by is that of its payload. -/
theorem intArg_eq_ok {i : Int} (h : intArg id w = .ok i w') :
    w' = w ∧ ∃ p, id.payload = .ok p ∧ p.toInt = .ok i := by
  obtain ⟨p, hpayload, hint⟩ := Run.lift_bind_eq_ok h
  obtain ⟨hnumber, rfl⟩ : p.toInt = .ok i ∧ w' = w := Run.ofExcept_eq_ok hint
  exact ⟨rfl, p, hpayload, hnumber⟩

/-- What an argument stands for is found by the number in it. -/
theorem listedArg_eq_ok (h : listedArg items load id w = .ok n w') :
    ∃ p i, id.payload = .ok p ∧ p.toInt = .ok i ∧
      indexed (items (w.stage.table load)) i = .ok n := by
  obtain ⟨i, v, hi, hrest⟩ := Run.bind_eq_ok h
  obtain ⟨rfl, p, hpayload, hnumber⟩ := intArg_eq_ok hi
  obtain ⟨_, _, hget, hlifted⟩ := Run.bind_eq_ok hrest
  cases hget
  exact ⟨p, i, hpayload, hnumber, (Run.ofExcept_eq_ok hlifted).1⟩

/-- What an argument stands for has a place in the table. -/
theorem place_of_listedArg (h : listedArg items load id w = .ok n w) :
    ∃ i, place (items (w.stage.table load)).length id = .ok i ∧
      (items (w.stage.table load))[i]? = some n := by
  obtain ⟨p, i, hpayload, hnumber, hindexed⟩ := listedArg_eq_ok h
  obtain ⟨k, hk, hn⟩ := indexed_eq_ok hindexed
  refine ⟨k, ?_, hn⟩
  unfold place
  rw [hpayload]
  show (p.toInt >>= fun i => indexed (List.range _) i) = _
  rw [hnumber]
  exact hk

theorem mem_of_listedArg (h : listedArg items load id w = .ok n w) :
    n ∈ items (w.stage.table load) := by
  obtain ⟨i, -, hi⟩ := place_of_listedArg h
  exact List.mem_of_getElem? hi

/-- Nothing listed, nothing that an argument stands for. -/
theorem listedArg_eq_error (h : items (w.stage.table load) = []) (id : Value) :
    ∃ f, listedArg items load id w = .error f w := by
  rcases listedArg_reads items load id w with ⟨n, hn⟩ | hfails
  · have hmem := mem_of_listedArg hn
    rw [h] at hmem
    exact absurd hmem List.not_mem_nil
  · exact hfails

end Places

/-! ## §2. Plans -/

/-- What a drawing function sets out to do once it has looked at its arguments. -/
inductive Plan where
  /-- Opens a window. -/
  | opens (draw : Value) (width height : Int) (title : String)
  /-- Loads an image. -/
  | loads (path : String)
  /-- Changes a window. -/
  | alters (n : Nat) (change : Window → Window)
  /-- Makes a call of the toolkit. -/
  | asks (c : Call)

/-- Carries a plan out, in a given scope. -/
def Plan.carryOut (load : Nat) (e : ScopeId) : Plan → Run Value
  | .opens draw width height title => do
    let id ← openWindow load e draw width height title
    return .number (.int id)
  | .loads path => do
    let id ← loadImage load path
    return .number (.int id)
  | .alters n change => do
    update (·.changeWindow n change)
    return .blank
  | .asks c => do
    call c
    return .blank

/-- The calls of the toolkit that a plan comes to, while there are so many windows. -/
def Plan.calls (count : Nat) : Plan → List Call
  | .opens _ width height title => openingCalls count title width height
  | .loads path => [.loadImage path]
  | .alters _ _ => []
  | .asks c => [c]

end Stage

open Stage

/-- What a drawing function other than the one that starts a window sets out to do. -/
def Drawing.plan (load : Nat) (op : Drawing) (args : List Value) : Run Plan := do
  match op, args with
  | .create, [callback, w, h, caption] =>
    let draw ← callback.payload
    let width ← intArg w
    let height ← intArg h
    return .opens draw width height (← textArg caption)
  | .background, [id, color] =>
    let n ← windowArg load id
    let color ← color.payload
    return .alters n fun w => { w with background := color }
  | .rect, [id, x, y, w, h, color] =>
    let n ← windowArg load id
    let corners ← boxArgs x y w h
    return .asks (.rectangle n corners (.text (← textArg color)))
  | .line, [id, x1, y1, x2, y2, color] =>
    let n ← windowArg load id
    let corners ← pointArgs x1 y1 x2 y2
    return .asks (.line n corners (.text (← textArg color)))
  | .ellipse, [id, x, y, w, h, color] =>
    let n ← windowArg load id
    let corners ← boxArgs x y w h
    return .asks (.oval n corners (.text (← textArg color)))
  | .loadSprite, [path] =>
    return .loads (← textArg path)
  | .sprite, [id, x, y, spr] =>
    let n ← windowArg load id
    let x ← intArg x
    let y ← intArg y
    return .asks (.image n x y (← spriteArg load spr))
  | .title, [id, caption] =>
    let n ← windowArg load id
    return .asks (.setTitle n (← textArg caption))
  | .onKey, [id, callback] =>
    let n ← windowArg load id
    let name ← textArg callback
    return .alters n fun w => { w with onKey := some name }
  | .onClick, [id, callback] =>
    let n ← windowArg load id
    let name ← textArg callback
    return .alters n fun w => { w with onClick := some name }
  | _, _ => throw .notNative

/-- **A drawing function makes a plan and carries it out.** -/
theorem Drawing.run_eq (inner : Evaluator) (room : Room) (e : ScopeId) (load : Nat) {op : Drawing}
    (hop : op ≠ .start) (args : List Value) :
    op.run inner room e load args = (op.plan load args >>= fun plan => plan.carryOut load e) := by
  unfold Drawing.run
  split
  case h_2 => exact absurd rfl hop
  all_goals simp only [Drawing.plan, Plan.carryOut, bind_assoc, pure_bind]
  -- what is called with other arguments does nothing at all
  rfl

/-! ## §3. What plans are about -/

/-- The window that a call of the toolkit is made on. -/
def Stage.Call.window? : Call → Option Nat
  | .window n _ | .setTitle n _ | .fixSize n | .canvas n _ _ | .pack n | .bind n _ _ | .schedule n
  | .mainLoop n | .clear n | .rectangle n _ _ | .line n _ _ | .oval n _ _ | .image n _ _ _ => some n
  | .loadImage _ => none

/-- The plans that a drawing function can have. -/
inductive Stage.Plan.Suits (load : Nat) (w : World) : Drawing → List Value → Plan → Prop
  /-- To open a window. -/
  | opens (args : List Value) (draw : Value) (width height : Int) (title : String) :
      Suits load w .create args (.opens draw width height title)
  /-- To load an image. -/
  | loads (args : List Value) (path : String) : Suits load w .loadSprite args (.loads path)
  /-- To change the window that the first argument stands for. -/
  | alters {op : Drawing} {change : Window → Window} (hop : Alters op change) {id : Value} {n : Nat}
      (hn : windowArg load id w = .ok n w) (rest : List Value) :
      Suits load w op (id :: rest) (.alters n change)
  /-- To make a call on it. -/
  | asks {op : Drawing} (hop : op ≠ .create ∧ op ≠ .loadSprite) {id : Value} {n : Nat}
      (hn : windowArg load id w = .ok n w) (rest : List Value) {c : Call} (hc : c.window? = some n) :
      Suits load w op (id :: rest) (.asks c)

/-- How looking at the arguments of a drawing function ends, with the world as it was. -/
inductive Planned (load : Nat) (w : World) (op : Drawing) (args : List Value) :
    EStateM.Result Fault World Plan → Prop
  /-- It fails. -/
  | fails (f : Fault) : Planned load w op args (.error f w)
  /-- There is a plan. -/
  | suits {plan : Plan} (h : plan.Suits load w op args) : Planned load w op args (.ok plan w)

section Planned

variable {load : Nat} {op : Drawing} {args : List Value} {w : World}

/-- A function may look at the world first. -/
theorem planned_of_reads {α : Type} {x : Run α} (hx : x.Reads) {f : α → Run Plan}
    (h : ∀ a, x w = .ok a w → Planned load w op args (f a w)) :
    Planned load w op args ((x >>= f) w) :=
  hx.bind_outcome .fails h

/-- **A drawing function has a plan that suits it, or none.** -/
theorem Drawing.planned (load : Nat) (op : Drawing) (args : List Value) (w : World) :
    Planned load w op args (op.plan load args w) := by
  unfold Drawing.plan
  split
  · next callback width height caption =>
    -- create
    refine planned_of_reads (.lift _) fun draw _ => ?_
    refine planned_of_reads (intArg_reads width) fun width _ => ?_
    refine planned_of_reads (intArg_reads height) fun height _ => ?_
    refine planned_of_reads (textArg_reads caption) fun title _ => ?_
    exact .suits (.opens _ draw width height title)
  · next id color =>
    -- background
    refine planned_of_reads (windowArg_reads load id) fun n hn => ?_
    refine planned_of_reads (.lift _) fun color' _ => ?_
    exact .suits (.alters (.background color') hn [color])
  · next id x y w h color =>
    -- rect
    refine planned_of_reads (windowArg_reads load id) fun n hn => ?_
    refine planned_of_reads (boxArgs_reads x y w h) fun corners _ => ?_
    refine planned_of_reads (textArg_reads color) fun color' _ => ?_
    exact .suits (.asks (by decide) hn _ rfl)
  · next id x1 y1 x2 y2 color =>
    -- line
    refine planned_of_reads (windowArg_reads load id) fun n hn => ?_
    refine planned_of_reads (pointArgs_reads x1 y1 x2 y2) fun corners _ => ?_
    refine planned_of_reads (textArg_reads color) fun color' _ => ?_
    exact .suits (.asks (by decide) hn _ rfl)
  · next id x y w h color =>
    -- ellipse
    refine planned_of_reads (windowArg_reads load id) fun n hn => ?_
    refine planned_of_reads (boxArgs_reads x y w h) fun corners _ => ?_
    refine planned_of_reads (textArg_reads color) fun color' _ => ?_
    exact .suits (.asks (by decide) hn _ rfl)
  · next path =>
    -- loadSprite
    refine planned_of_reads (textArg_reads path) fun path' _ => ?_
    exact .suits (.loads _ path')
  · next id x y spr =>
    -- sprite
    refine planned_of_reads (windowArg_reads load id) fun n hn => ?_
    refine planned_of_reads (intArg_reads x) fun x' _ => ?_
    refine planned_of_reads (intArg_reads y) fun y' _ => ?_
    refine planned_of_reads (spriteArg_reads load spr) fun picture _ => ?_
    exact .suits (.asks (by decide) hn _ rfl)
  · next id caption =>
    -- title
    refine planned_of_reads (windowArg_reads load id) fun n hn => ?_
    refine planned_of_reads (textArg_reads caption) fun title _ => ?_
    exact .suits (.asks (by decide) hn _ rfl)
  · next id callback =>
    -- onKey
    refine planned_of_reads (windowArg_reads load id) fun n hn => ?_
    refine planned_of_reads (textArg_reads callback) fun name _ => ?_
    exact .suits (.alters (.onKey name) hn [callback])
  · next id callback =>
    -- onClick
    refine planned_of_reads (windowArg_reads load id) fun n hn => ?_
    refine planned_of_reads (textArg_reads callback) fun name _ => ?_
    exact .suits (.alters (.onClick name) hn [callback])
  · exact .fails _

/-- Making a plan leaves the world alone. -/
theorem Drawing.plan_reads (load : Nat) (op : Drawing) (args : List Value) :
    (op.plan load args).Reads := by
  intro w
  have hplanned := Drawing.planned load op args w
  generalize op.plan load args w = outcome at hplanned
  cases hplanned with
  | fails f => exact .inr ⟨f, rfl⟩
  | suits _ => exact .inl ⟨_, rfl⟩

end Planned

end Scrawl
