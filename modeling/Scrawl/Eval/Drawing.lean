/-
  Scrawl.Eval.Drawing — the functions of the drawing library.

  Drawing functions take the payloads of their arguments as they are, without evaluating them
  again.  A window's own functions are called by name, in the scope in which the window was made.
-/

import Scrawl.Eval.Evaluator

namespace Scrawl.Stage

/-! ## §1. The log and the windows -/

/-- Changes the stage. -/
def update (change : Stage → Stage) : Run Unit :=
  modify fun w => { w with stage := change w.stage }

/-- Makes a call of the toolkit; one that cannot be written cannot be made. -/
def call (c : Call) : Run Unit :=
  if c.isWritable then update (·.log c) else throw .numberTooLong

/-- A window by its number. -/
def window (n : Nat) : Run Window := do
  match (← get).stage.windows[n]? with
  | some w => return w
  | none => throw (.indexRange "list")

/-! ## §2. Events and frames -/

/-- The background is cleared up to this far, across and down. -/
def clearedSize : Int := 640

/-- Schedules a redraw of a window. -/
def schedule (n : Nat) : Run Unit := do
  call (.schedule n)
  update (·.changeWindow n fun w => { w with pending := w.pending + 1 })

/-- Redraws a window and schedules the next redraw. -/
def redraw (inner : Evaluator) (room : Room) (n : Nat) : Run Unit := do
  let w ← window n
  call (.clear n)
  call (.rectangle n ⟨0, 0, clearedSize, clearedSize⟩ w.background)
  callNamed inner room w.home w.draw (.list [])
  schedule n

/-- Does the redraws that were scheduled for a window. -/
def frame (inner : Evaluator) (room : Room) (n : Nat) : Run Unit := do
  let room ← room.descend 1
  let w ← window n
  update (·.changeWindow n fun w => { w with pending := 0 })
  (List.replicate w.pending n).forM (redraw inner room)

/-- Tells a window's function for keys of an event, if there is one. -/
def tellKey (inner : Evaluator) (room : Room) (w : Window) (event : Event) : Run Unit := do
  match w.onKey with
  | none => return
  | some name =>
    let char ← plainText event.char
    let keycode ← event.keycode.toInt
    callNamed inner room w.home (.text name) (.list [.string char, .number (.int keycode)])

/-- Tells a window's function for clicks of an event, if there is one. -/
def tellClick (inner : Evaluator) (room : Room) (w : Window) (event : Event) : Run Unit := do
  match w.onClick with
  | none => return
  | some name =>
    let button ← event.button.toInt
    let x ← event.x.toInt
    let y ← event.y.toInt
    callNamed inner room w.home (.text name)
      (.list [.number (.int button), .number (.int x), .number (.int y)])

/-- Hands an event to a window, which has to listen to it. -/
def handle (inner : Evaluator) (room : Room) (n : Nat) (event : Event) : Run Unit := do
  let room ← room.descend 1
  let w ← window n
  let _ ← event.sequence.toName
  match if w.complete then handler? event.sequence else none with
  | some .onKey => tellKey inner room w event
  | some .onClick => tellClick inner room w event
  | none => throw (.missingKey (← shown event.sequence))

/-- Has something happen to a window. -/
def play (inner : Evaluator) (room : Room) (n : Nat) : Cue → Run Unit
  | .frame => frame inner room n
  | .event e => handle inner room n e

/-- Runs a window's main loop: everything in its script happens, once. -/
def mainLoop (inner : Evaluator) (room : Room) (n : Nat) : Run Unit := do
  let room ← room.descend 2
  call (.mainLoop n)
  let w ← window n
  update (·.changeWindow n fun w => { w with script := [] })
  w.script.forM (play inner room n)

/-- Starts a window: its first redraw is scheduled, and its main loop is run. -/
def start (inner : Evaluator) (room : Room) (n : Nat) : Run Unit := do
  update (·.changeWindow n fun w => { w with started := w.started + 1 })
  schedule n
  mainLoop inner room n

/-! ## §3. Arguments -/

/-- The whole number in an argument. -/
def intArg (v : Value) : Run Int := do
  (← v.payload).toInt

/-- The text in an argument. -/
def textArg (v : Value) : Run String := do
  plainText (← v.payload)

/-- What an argument stands for among the items that a table lists. -/
def listedArg (items : Table → List Nat) (load : Nat) (v : Value) : Run Nat := do
  let i ← intArg v
  indexed (items ((← get).stage.table load)) i

/-- The window that an argument stands for. -/
def windowArg (load : Nat) (v : Value) : Run Nat := listedArg Table.windows load v

/-- The image that an argument stands for. -/
def spriteArg (load : Nat) (v : Value) : Run Nat := listedArg Table.sprites load v

/-- Two points given by four arguments. -/
def pointArgs (x1 y1 x2 y2 : Value) : Run Corners := do
  let x1 ← intArg x1
  let y1 ← intArg y1
  let x2 ← intArg x2
  let y2 ← intArg y2
  return { x1, y1, x2, y2 }

/-- The corners of a box given by a point and a size. -/
def boxArgs (x y w h : Value) : Run Corners := do
  let x ← intArg x
  let y ← intArg y
  let w ← intArg w
  let h ← intArg h
  return { x1 := x, y1 := y, x2 := x + w, y2 := y + h }

/-! ## §4. Making windows and sprites -/

/-- The calls that make a window. -/
def openingCalls (n : Nat) (title : String) (width height : Int) : List Call :=
  [.window n title, .setTitle n title, .fixSize n, .canvas n width height, .pack n] ++
    listened.map fun l => .bind n l.1 l.2.name

/-- Opens a window and gives its place in the table.  If one of the calls that make it fails, it is
    there but stays incomplete and has no place in the table. -/
def openWindow (load : Nat) (e : ScopeId) (draw : Value) (width height : Int) (title : String) :
    Run Nat := do
  let n := (← get).stage.windows.size
  update fun s =>
    let made : Window :=
      { draw, home := e, background := .text "black", onKey := none, onClick := none,
        complete := false, started := 0, pending := 0, script := s.cues }
    { s with windows := s.windows.push made }
  (openingCalls n title width height).forM call
  modifyGet fun w =>
    let s := w.stage.changeWindow n fun made => { made with complete := true }
    let t := s.table load
    (t.windows.length, { w with stage := s.setTable load { t with windows := t.windows ++ [n] } })

/-- Loads an image and gives its place in the table. -/
def loadImage (load : Nat) (path : String) : Run Nat :=
  modifyGet fun w =>
    let s := w.stage.log (.loadImage path)
    let t := s.table load
    let n := s.images
    (t.sprites.length,
      { w with
        stage := { s with images := n + 1 }.setTable load
          { t with sprites := t.sprites ++ [n] } })

end Scrawl.Stage

namespace Scrawl

open Stage

/-! ## §5. The functions -/

/-- Calls a drawing function of a given loading with as many arguments as it takes. -/
def Drawing.run (inner : Evaluator) (room : Room) (e : ScopeId) (load : Nat) (op : Drawing)
    (args : List Value) : Run Value := do
  match op, args with
  | .create, [callback, w, h, caption] =>
    let draw ← callback.payload
    let width ← intArg w
    let height ← intArg h
    let caption ← textArg caption
    let id ← openWindow load e draw width height caption
    return .number (.int id)
  | .start, [id] =>
    let n ← windowArg load id
    Stage.start inner room n
    return .blank
  | .background, [id, color] =>
    let n ← windowArg load id
    let color ← color.payload
    update (·.changeWindow n fun w => { w with background := color })
    return .blank
  | .rect, [id, x, y, w, h, color] =>
    let n ← windowArg load id
    let corners ← boxArgs x y w h
    let color ← textArg color
    call (.rectangle n corners (.text color))
    return .blank
  | .line, [id, x1, y1, x2, y2, color] =>
    let n ← windowArg load id
    let corners ← pointArgs x1 y1 x2 y2
    let color ← textArg color
    call (.line n corners (.text color))
    return .blank
  | .ellipse, [id, x, y, w, h, color] =>
    let n ← windowArg load id
    let corners ← boxArgs x y w h
    let color ← textArg color
    call (.oval n corners (.text color))
    return .blank
  | .loadSprite, [path] =>
    let path ← textArg path
    let id ← loadImage load path
    return .number (.int id)
  | .sprite, [id, x, y, spr] =>
    let n ← windowArg load id
    let x ← intArg x
    let y ← intArg y
    let picture ← spriteArg load spr
    call (.image n x y picture)
    return .blank
  | .title, [id, caption] =>
    let n ← windowArg load id
    let caption ← textArg caption
    call (.setTitle n caption)
    return .blank
  | .onKey, [id, callback] =>
    let n ← windowArg load id
    let name ← textArg callback
    update (·.changeWindow n fun w => { w with onKey := some name })
    return .blank
  | .onClick, [id, callback] =>
    let n ← windowArg load id
    let name ← textArg callback
    update (·.changeWindow n fun w => { w with onClick := some name })
    return .blank
  | _, _ => throw .notNative

end Scrawl
