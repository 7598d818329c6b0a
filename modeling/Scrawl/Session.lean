/-
  Scrawl.Session — what a host does with the language besides running programs.

  A host can look at the variables of a scope, hand in events and frames, and see the state of the
  stage.  Variables that are as they were set by the language or by an add-on are left out of a
  listing.
-/

import Scrawl.Eval.Node
import Scrawl.Json.Writer

namespace Scrawl

/-! ## §1. Listings -/

/-- Whether two values are one and the same even if they were made separately: nothing, truth
    values, small whole numbers, texts of at most one character of the first 256, and floating
    point numbers without digits. -/
def Value.sameAtom : Value → Value → Bool
  | .nil, .nil => true
  | .bool a, .bool b => a == b
  | .int i, .int j => i == j && -5 ≤ i && i ≤ 256
  | .text s, .text t => s == t && s.toList.length ≤ 1 && s.toList.all (·.toNat < 256)
  | .float x, .float y =>
    Decimal.infinityCode ≤ Decimal.sizeCode x && Decimal.Place.ofFloat x == .ofFloat y
  | _, _ => false

/-- Whether a value is a given name. -/
def Value.isName (key : Value) (name : Name) : Bool :=
  match key.toName with
  | .ok n => n == name
  | .error _ => false

/-- The latest registration of an add-on, with its number. -/
def World.registration? (w : World) (name : Name) : Option (Nat × Value) :=
  (w.addons.zipIdx.reverse.find? (·.1.1.isName name)).map fun a => (a.2, a.1.2)

/-- Whether a variable still holds the very value that was last registered under its name. -/
def World.holdsAddon (w : World) (name : Name) (d : Datum) : Bool :=
  match w.registration? name with
  | some (number, v) => d.mark == some number || v.sameAtom d.value
  | none => false

/-- Whether a variable looks as the language sets it. -/
def World.holdsStandard (w : World) (name : Name) (d : Datum) : Bool :=
  match name with
  | .text s =>
    match standardNames.lookup s with
    | some v => v.shown w.scopeText == d.value.shown w.scopeText
    | none => false
  | _ => false

/-- How the name of a scope's own variable is written in a listing: a text as it stands, anything
    else as it was written when the scope came to own it. -/
def World.label (w : World) (e : ScopeId) (name : Name) : String :=
  match name with
  | .text s => s
  | name =>
    match w.spellings.lookup (e, name) with
    | some key => Json.write key
    | none => name.display

/-- The own variables of a scope that a program has set, with their values written out. -/
def World.listing (w : World) (e : ScopeId) : List (String × String) :=
  ((w.forest.scopes[e]?.map (·.bindings)).getD []).filterMap fun (n, d) =>
    if w.holdsAddon n d || w.holdsStandard n d then none
    else some (w.label e n, d.value.shown w.scopeText)

/-! ## §2. What a host asks for -/

/-- Whether a value counts as a yes: it is there, and neither false, zero nor empty. -/
def Value.isYes : Value → Bool
  | .nil => false
  | .bool b => b
  | .int i => i != 0
  | .float x => !(Decimal.Place.ofFloat x).same (.ofInt 0)
  | .text s => !s.isEmpty
  | .tuple items => !items.isEmpty
  | .list items => !items.isEmpty
  | .record fields => !fields.isEmpty
  | _ => true

/-- The item of a list that a value means. -/
def pickItem {α : Type} (items : List α) (index : Value) : Except Fault α :=
  match index with
  | .int i => Stage.indexed items i
  | .bool b => Stage.indexed items (if b then 1 else 0)
  | v => .error (.notIndex v.kind)

/-! ## §3. The stage -/

/-- A text that may be missing. -/
def Value.ofText? : Option String → Value
  | some s => .text s
  | none => .nil

/-- What a window shows of itself. -/
def Stage.Window.summary (w : Stage.Window) : Value :=
  .list [w.draw, w.background, .ofText? w.onKey, .ofText? w.onClick]

/-- The windows in the table of a loading, and the number of its sprites. -/
def Stage.summary (s : Stage) (load : Nat) : Value :=
  let t := s.table load
  .list ((t.windows.filterMap fun n => s.windows[n]?.map (·.summary)) ++
    [.int t.sprites.length])

/-- The number of the window that a host means. -/
def hostWindow (index : Value) : Run Nat := do
  pickItem (List.range (← get).stage.windows.size) index

/-- Sets what will happen in a window's next main loop. -/
def setScript (n : Nat) (script : List Stage.Cue) : Run Unit :=
  Stage.update (·.changeWindow n fun w => { w with script })

end Scrawl
