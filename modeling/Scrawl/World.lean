/-
  Scrawl.World — the state of a run.

  A run works on a world: the scopes, the add-ons registered, the text printed, the files that can
  be read and the stage.  Whatever has been done before a fault stays done.
-/

import Scrawl.Files
import Scrawl.Room
import Scrawl.Scope.Forest
import Scrawl.Stage.Basic

namespace Scrawl

/-! ## §1. Worlds -/

/-- The state of a run. -/
structure World where
  /-- All scopes. -/
  forest : Forest
  /-- The add-ons with their names, in the order in which they were registered. -/
  addons : List (Value × Value)
  /-- The text printed so far. -/
  printed : String
  /-- The files. -/
  files : FileTree
  /-- Windows and sprites. -/
  stage : Stage
  /-- How a scope is written. -/
  scopeText : String
  /-- The first scope that was to lie in what is no scope, and the kind of that. -/
  stray : Option (ScopeId × String) := none
  /-- For names that are no texts, how each was written when a scope came to own it. -/
  spellings : List ((ScopeId × Name) × Value) := []
  deriving Inhabited

/-- A world in which nothing has happened. -/
def World.empty (scopeText : String) (files : FileTree) (cues : List Stage.Cue) : World :=
  { forest := .empty, addons := [], printed := "", files, stage := .empty cues, scopeText }

/-- A computation on the world that gives a result or a fault. -/
abbrev Run := EStateM Fault World

/-- A computation without a world as one that leaves it alone. -/
def Run.ofExcept {α : Type} : Except Fault α → Run α
  | .ok a => pure a
  | .error f => throw f

instance : MonadLift (Except Fault) Run := ⟨Run.ofExcept⟩

/-! ## §2. Text -/

/-- Prints a line. -/
def printLine (line : String) : Run Unit :=
  modify fun w => { w with printed := w.printed ++ line ++ "\n" }

/-- A value as text: a text as it stands, anything else with its structure. -/
def plainText (v : Value) : Run String := do
  if v.isWritable then return v.plainText (← get).scopeText
  else throw .numberTooLong

/-- A value with its structure. -/
def shown (v : Value) : Run String := do
  if v.isWritable then return v.shown (← get).scopeText
  else throw .numberTooLong

/-! ## §3. Names -/

/-- The value of a name in a scope; every scope visited takes a level. -/
def lookup (room : Room) (e : ScopeId) (n : Name) : Run (Option Datum) := do
  let f := (← get).forest
  let _ ← room.descend (f.visits e n)
  return f.get? e n

/-- The spellings with that of a name a scope comes to own; a text spells itself. -/
def World.noteSpelling (w : World) (e : ScopeId) (n : Name) (key : Value) : World :=
  match n with
  | .text _ => w
  | n =>
    if w.forest.has e n then w else { w with spellings := ((e, n), key) :: w.spellings }

/-- Sets the variable that a key names, as seen from a scope; every scope visited takes a level. -/
def assign (room : Room) (e : ScopeId) (key : Value) (d : Datum) : Run Unit := do
  let n ← key.toName
  let _ ← room.descend ((← get).forest.visits e n)
  modify fun w =>
    let w := w.noteSpelling e n key
    { w with forest := w.forest.set e n d }

/-- The names of the language with their values, in the order in which they are set. -/
def standardNames : List (String × Value) :=
  [("print", .nativeValue .print),
    ("str", .nativeValue .str),
    ("concat", .nativeValue .concat),
    ("import", .nativeValue .runFile),
    ("library", .nativeValue .library),
    ("library_raw", .nativeValue .libraryRaw),
    ("if", .nativeValue .choose),
    ("while", .nativeValue .loop),
    ("equals", .nativeValue .equals),
    ("print_raw", .nativeValue .printRaw),
    ("true", .number (.float 1.0)),
    ("false", .number (.float 0.0)),
    ("None", .nothing)]

/-- The bindings of the language. -/
def standardBindings : List (Name × Datum) :=
  standardNames.map fun b => (.text b.1, { value := b.2 })

/-- The bindings of add-ons, which start with a given registration: the very values that were
    registered, up to one whose name can be none. -/
def addonBindingsFrom (first : Nat) : List (Value × Value) → List (Name × Datum)
  | [] => []
  | (key, v) :: rest =>
    match key.toName with
    | .ok n => (n, { value := v, mark := some first }) :: addonBindingsFrom (first + 1) rest
    | .error _ => []

/-- The bindings of all add-ons. -/
def addonBindings (addons : List (Value × Value)) : List (Name × Datum) :=
  addonBindingsFrom 0 addons

/-- The fault of the first add-on whose name can be none; no later one is ever set. -/
def addonFault? (addons : List (Value × Value)) : Option Fault :=
  addons.findSome? fun a =>
    match a.1.toName with
    | .ok _ => none
    | .error f => some f

/-! ## §4. Scopes -/

/-- What rules can refuse. -/
inductive Action where
  /-- A call of a function of the language. -/
  | call (fn : Native) (args : List Value)
  /-- Running another file, with its text. -/
  | source (text : String)
  /-- Loading the library with a given text. -/
  | load (text : String)

/-- What libraries do to the world, by their texts.  They are not written in the language, and nothing
    is known about them in general. -/
abbrev Libraries := String → Run Unit

/-- Libraries that do nothing. -/
def Libraries.idle : Libraries := fun _ => pure ()

/-- What a run can be asked to do differently. -/
structure Rules where
  /-- How often a loop may go round before it counts as endless. -/
  rounds : Nat
  /-- Whether a scope inside another one sets the names of the language and of the add-ons again
      when it is made. -/
  restores : Bool
  /-- What the libraries do that are not the drawing library. -/
  libraries : Libraries
  /-- The fault with which an action is refused, if it is. -/
  refuses : Action → Option Fault := fun _ => none

/-- The usual rules, beside libraries that do nothing. -/
def Rules.standard : Rules := { rounds := 1000000000, restores := true, libraries := .idle }

/-- Goes on unless an action is refused. -/
def Rules.permit (rules : Rules) (action : Action) : Run Unit :=
  match rules.refuses action with
  | some f => throw f
  | none => pure ()

/-- Whether a scope with this parent sets the names of the language when it is made. -/
def Rules.sets (rules : Rules) (parent : Option ScopeId) : Bool :=
  parent.isNone || rules.restores

/-- The forest with one more scope, in which the language and the add-ons are known. -/
def Forest.newScope (rules : Rules) (addons : List (Value × Value)) (parent : Option ScopeId)
    (f : Forest) : Forest :=
  let grown := f.grow parent
  if rules.sets parent then
    grown.setAll f.size (standardBindings ++ addonBindings addons)
  else grown

/-- How many levels it takes to make a scope: two, one more if there are add-ons, and one for
    every scope on its chain, as the names of the language are known outermost. -/
def World.scopeLevels (w : World) (parent : Option ScopeId) : Nat :=
  let around := match parent with
    | some p => (w.forest.chain p).length
    | none => 0
  (if w.addons.isEmpty then 2 else 3) + (around + 1)

/-- Makes a scope; it is there even if one of the add-ons then cannot be set in it. -/
def makeScope (rules : Rules) (room : Room) (parent : Option ScopeId) : Run ScopeId := do
  let _ ← room.descend ((← get).scopeLevels parent)
  let e ← modifyGet fun w =>
    (w.forest.size, { w with forest := w.forest.newScope rules w.addons parent })
  match addonFault? (← get).addons with
  | some f => if rules.sets parent then throw f else return e
  | none => return e

/-- Makes a scope inside of what a function says it was made in. -/
def enterScope (rules : Rules) (room : Room) (home : Value) : Run ScopeId :=
  match home with
  | .scope p => makeScope rules room (some p)
  | .nil => makeScope rules room none
  | v => do
    modify fun w =>
      { w with forest := w.forest.grow none, stray := w.stray <|> some (w.forest.size, v.kind) }
    throw (.notScope v.kind)

/-! ## §5. Add-ons -/

/-- The forest with the add-ons set again in its first scopes, in turn. -/
def Forest.refresh (addons : List (Value × Value)) (count : Nat) (f : Forest) : Forest :=
  (List.range count).foldl (fun f e => f.setAll e (addonBindings addons)) f

/-- What keeps add-ons from being set in every scope, and in how many they are set before: an add-on
    whose name can be none already fails in the first one. -/
def World.obstacle? (w : World) : Option (Nat × Fault) :=
  match addonFault? w.addons with
  | some f => some (1, f)
  | none => w.stray.map fun s => (s.1, .notScope s.2)

/-- How many scopes add-ons reach. -/
def World.reach (w : World) : Nat := (w.obstacle?.map (·.1)).getD w.forest.size

/-- Registers an add-on, which every scope gets to know unless something is in the way. -/
def register (key v : Value) : Run Unit := do
  modify fun w =>
    let w := { w with addons := w.addons ++ [(key, v)] }
    { w with forest := w.forest.refresh w.addons w.reach }
  match (← get).obstacle? with
  | some (_, f) => throw f
  | none => return

/-- Merges the variables of one scope into another, all of them or those that are new there.  Not
    one of them can be copied, so this only succeeds when there is nothing to merge. -/
def merge (e other : ScopeId) (all : Bool) : Run Unit := do
  let f := (← get).forest
  let names := ((f.scopes[other]?.map (·.bindings)).getD []).map (·.1)
  if names.any fun n => all || !f.owns e n then throw .mergeUnsupported

end Scrawl
