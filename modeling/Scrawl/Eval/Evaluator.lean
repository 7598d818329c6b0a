/-
  Scrawl.Eval.Evaluator — what all parts of evaluation share.

  Evaluation is written as one layer over an evaluator for everything nested in it.  The parts in
  the other modules of this folder take that inner evaluator as an argument.  Every part takes up
  a known number of levels of the room that evaluation has for nesting.
-/

import Scrawl.Grammar.Parser
import Scrawl.Value.Arithmetic
import Scrawl.World

namespace Scrawl

/-! ## §1. Evaluators -/

/-- Evaluates a node in a scope, with some room. -/
abbrev Evaluator := Room → ScopeId → Value → Run Datum

/-- A value that is no add-on's own. -/
def Datum.plain (v : Value) : Datum := { value := v }

/-- Evaluates nodes in turn; the last result counts, and without any there is no value. -/
def evalNodes (inner : Evaluator) (room : Room) (e : ScopeId) (nodes : List Value) : Run Datum :=
  nodes.foldlM (fun _ node => inner room e node) (.plain .nothing)

/-- Evaluates the items of a value in turn, two levels further down. -/
def evalItems (inner : Evaluator) (room : Room) (e : ScopeId) (body : Value) : Run Datum := do
  let room ← room.descend 2
  evalNodes inner room e (← body.items)

/-- The payload of what a node evaluates to. -/
def evalPayload (inner : Evaluator) (room : Room) (e : ScopeId) (node : Value) : Run Value := do
  (← inner room e node).value.payload

/-- Calls the function of a given name with the nodes of some arguments. -/
def callNamed (inner : Evaluator) (room : Room) (e : ScopeId) (name args : Value) : Run Unit := do
  let _ ← inner room e (.callNode (.symbolNode name) args)

/-! ## §2. Programs -/

/-- How deep statements may be nested. -/
def grammarDepth : Nat := 1000

/-- How many levels it takes to read the tokens of a text. -/
def readingLevels : Nat := 10

/-- Runs the statements of a program; the fault behind them comes last. -/
def runProgram (inner : Evaluator) (room : Room) (e : ScopeId) (p : Grammar.Program) :
    Run Datum := do
  let result ← evalNodes inner room e p.nodes
  match p.fault with
  | some f => throw f
  | none => return result

/-- Runs the program that a text makes up, two levels further down. -/
def runText (inner : Evaluator) (room : Room) (e : ScopeId) (text : String) : Run Datum := do
  let room ← room.descend 2
  let _ ← room.descend readingLevels
  runProgram inner room e (Grammar.Program.ofText grammarDepth text)

/-- The text of a source file. -/
def readSource (path : String) : Run String := do
  let bytes ← (← get).files.read path
  match Codec.sourceText bytes with
  | .ok text => return text
  | .error fault => throw (.decoding fault)

end Scrawl
