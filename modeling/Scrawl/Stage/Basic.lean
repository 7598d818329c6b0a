/-
  Scrawl.Stage.Basic — windows and sprites.

  All windows and images ever made are kept, by number.  Programs know them by their place in a
  table of the drawing library: the library that is there from the start has a table of its own,
  and all later loadings share one, which every loading empties.  A table also has a record of the
  calls of its functions that have returned, and a window of how often it was started.
-/

import Scrawl.Fault
import Scrawl.Stage.Call

namespace Scrawl

namespace Stage

/-! ## §1. Events -/

/-- What a user does to a window: which event it is, and what it brings along. -/
structure Event where
  /-- The sequence that stands for the event, such as `<Key>`. -/
  sequence : Value
  /-- The character of a key. -/
  char : Value
  /-- The number of a key. -/
  keycode : Value
  /-- The number of a mouse button. -/
  button : Value
  /-- Where the mouse is, across. -/
  x : Value
  /-- Where the mouse is, down. -/
  y : Value

/-- What a window does about events. -/
inductive Handler where
  /-- Tells the function for keys. -/
  | onKey
  /-- Tells the function for clicks. -/
  | onClick
  deriving Repr, DecidableEq

/-- The name of a handler. -/
def Handler.name : Handler → String
  | .onKey => "onkey"
  | .onClick => "onclick"

/-- The events a window listens to, with the handler of each. -/
def listened : List (String × Handler) :=
  [("<Key>", .onKey), ("<Button-1>", .onClick), ("<Button-2>", .onClick),
    ("<Button-3>", .onClick)]

/-- The handler of the event that a sequence stands for. -/
def handler? : Value → Option Handler
  | .text s => listened.lookup s
  | _ => none

/-- One thing that happens while a main loop runs. -/
inductive Cue where
  /-- Everything scheduled is redrawn. -/
  | frame
  /-- The user does something. -/
  | event (e : Event)

/-! ## §2. Windows -/

/-- A window. -/
structure Window where
  /-- The name of the function that draws its content. -/
  draw : Value
  /-- The scope in which its functions are called. -/
  home : ScopeId
  /-- The colour it is cleared with. -/
  background : Value
  /-- The name of the function that is told of keys. -/
  onKey : Option String
  /-- The name of the function that is told of clicks. -/
  onClick : Option String
  /-- Whether it has been made completely, so that it listens to events. -/
  complete : Bool
  /-- How often it has been started. -/
  started : Nat
  /-- How many redraws are scheduled. -/
  pending : Nat
  /-- What will happen in its next main loop. -/
  script : List Cue
  deriving Inhabited

/-- A call of a drawing function that has returned. -/
structure Deed where
  /-- The function. -/
  op : Drawing
  /-- What it was called with. -/
  args : List Value
  /-- What it gave back. -/
  result : Value

/-- A table of the drawing library: the numbers of its windows and images, in the order in which
    they were made, and what has been done with them. -/
structure Table where
  /-- The windows. -/
  windows : List Nat
  /-- The images. -/
  sprites : List Nat
  /-- The calls that have returned, in the order in which they did. -/
  deeds : Array Deed
  deriving Inhabited

/-- A table without entries. -/
def Table.empty : Table := ⟨[], [], #[]⟩

/-! ## §3. Numbers of things -/

/-- The least number too large to be an index, and its negative the least that is none. -/
def indexLimit : Int := Nat.pow 2 63

/-- The item with an index; negative ones count from the end. -/
def indexed {α : Type} (items : List α) (i : Int) : Except Fault α :=
  if i < -indexLimit || indexLimit ≤ i then .error .indexTooWide
  else
    let place := if i < 0 then i + items.length else i
    match if place < 0 then none else items[place.toNat]? with
    | some item => .ok item
    | none => .error (.indexRange "list")

end Stage

/-! ## §4. The stage -/

/-- Everything drawn on. -/
structure Stage where
  /-- All windows ever made. -/
  windows : Array Stage.Window
  /-- How many images were ever loaded. -/
  images : Nat
  /-- The table of the library that is there from the start. -/
  first : Stage.Table
  /-- The table of all libraries loaded later. -/
  shared : Stage.Table
  /-- How many libraries were loaded later. -/
  loads : Nat
  /-- What happens in the first main loop of a new window. -/
  cues : List Stage.Cue
  /-- The calls made so far. -/
  calls : Array Stage.Call
  deriving Inhabited

namespace Stage

/-- A stage on which nothing has been made, and what will happen in its main loops. -/
def empty (cues : List Stage.Cue) : Stage :=
  { windows := #[], images := 0, first := .empty, shared := .empty, loads := 0, cues,
    calls := #[] }

/-- The table that a loading of the library works on. -/
def table (s : Stage) (load : Nat) : Table := if load == 0 then s.first else s.shared

/-- The stage with the table of a loading replaced. -/
def setTable (s : Stage) (load : Nat) (t : Table) : Stage :=
  if load == 0 then { s with first := t } else { s with shared := t }

/-- The stage with one more call of a drawing function of a loading on record. -/
def note (s : Stage) (load : Nat) (d : Deed) : Stage :=
  s.setTable load { s.table load with deeds := (s.table load).deeds.push d }

/-- The stage with one more call in its log. -/
def log (s : Stage) (c : Call) : Stage := { s with calls := s.calls.push c }

/-- The stage with one of its windows changed. -/
def changeWindow (s : Stage) (n : Nat) (change : Window → Window) : Stage :=
  { s with windows := s.windows.modify n change }

end Stage

end Scrawl
