/-
  Scrawl.Eval.Node — evaluation.

  A node is evaluated by its tag.  Calls evaluate the function and then the arguments from left to
  right; a function of the program gets a new scope inside the one it was made in.
-/

import Scrawl.Eval.Native

namespace Scrawl

/-! ## §1. Tags and operators -/

/-- The tags of nodes. -/
inductive Tag where
  /-- A number. -/
  | number
  /-- A string. -/
  | string
  /-- No value. -/
  | none
  /-- An operator with two operands. -/
  | operation
  /-- A name to look up. -/
  | symbol
  /-- A name to set. -/
  | assignment
  /-- A call. -/
  | call
  /-- A function. -/
  | function
  deriving Repr, DecidableEq

/-- The tag that a value is. -/
def Tag.of? : Value → Option Tag
  | .text "number" => some .number
  | .text "string" => some .string
  | .text "none" => some .none
  | .text "operation" => some .operation
  | .text "symbol" => some .symbol
  | .text "assignment" => some .assignment
  | .text "call" => some .call
  | .text "function" => some .function
  | _ => Option.none

/-- What an operator does to two payloads. -/
def operator? : Value → Option (Value → Value → Except Fault Value)
  | .text "+" => some Value.add
  | .text "-" => some Value.sub
  | .text "*" => some Value.mul
  | .text "/" => some Value.div
  | _ => none

/-! ## §2. Arity -/

/-- The number of arguments that a function is said to require when it is given another one.  With
    `offset` one of the parameters is the scope; then only the case of exactly one argument more
    than there are parameters, the scope included, is found here. -/
def wrongArity? (params args : Nat) (offset : Bool) : Option Int :=
  if offset then
    if args == params + 1 then some ((params : Int) - 1) else none
  else if params == args then none
  else some params

/-- Checks the number of arguments of a function. -/
def checkArity (callee : Value) (params args : Nat) (offset : Bool) : Run Unit := do
  match wrongArity? params args offset with
  | some required => throw (.wrongArity args (← plainText callee) required)
  | none => pure ()

/-! ## §3. Calls -/

/-- Sets the parameters of a function in its scope, in turn. -/
def bindParams (room : Room) (e : ScopeId) : List (Value × Datum) → Run Unit
  | [] => pure ()
  | (param, arg) :: rest => do
    assign room e (← param.payload) arg
    bindParams room e rest

/-- Calls a function of the program. -/
def callFunction (rules : Rules) (inner : Evaluator) (room : Room) (callee fn : Value)
    (args : List Datum) : Run Datum := do
  let params ← fn.item 1
  checkArity callee (← params.length) args.length false
  let body ← fn.item 2
  let home ← fn.item 3
  let e ← enterScope rules room home
  bindParams room e ((← params.items).zip args)
  evalItems inner room e body

/-- How many levels it takes to find out the parameters of a function of the language. -/
def inspectionLevels : Nat := 8

/-- Finds out whether a value is a function of the language.  With less room than that takes it
    cannot be told from what is none; with next to no room not even that can be said. -/
def inspect (room : Room) (target : Value) : Except Fault Native :=
  if !room.holds 2 then .error .tooDeep
  else if !room.holds inspectionLevels then .error .notNative
  else match target with
    | .native fn => .ok fn
    | _ => .error .notNative

/-- Calls a function of the language, unless that is refused. -/
def callNative (rules : Rules) (inner : Evaluator) (room : Room) (e : ScopeId)
    (callee fn : Value) (args : List Datum) : Run Datum := do
  let native ← inspect room (← fn.item 1)
  checkArity callee (native.params.length + 1) args.length true
  rules.permit (.call native (args.map (·.value)))
  native.apply rules inner (← room.descend 1) e (args.map (·.value))

/-- Calls what a node gives with what other nodes give.  The call takes a level, and its arguments
    another one. -/
def evalCall (rules : Rules) (inner : Evaluator) (room : Room) (e : ScopeId) (node : Value) :
    Run Datum := do
  let room ← room.descend 1
  let callee ← node.item 1
  let fn := (← inner room e callee).value
  let argNodes ← (← node.item 2).items
  let argRoom ← room.descend 1
  let args ← argNodes.mapM (inner argRoom e)
  let tag ← fn.tag
  if tag.isText "function" then callFunction rules inner room callee fn args
  else if tag.isText "native" then callNative rules inner room e callee fn args
  else throw .notFunction

/-! ## §4. Nodes -/

/-- Applies an operator to what two nodes give. -/
def evalOperation (inner : Evaluator) (room : Room) (e : ScopeId) (node : Value) :
    Run Datum := do
  let left := (← inner room e (← node.item 2)).value
  let right := (← inner room e (← node.item 3)).value
  let op ← node.item 1
  match operator? op with
  | some apply => return .plain (.number (← apply (← left.payload) (← right.payload)))
  | none => throw (.unknownOperator (← plainText op))

/-- Looks a name up. -/
def evalSymbol (room : Room) (e : ScopeId) (node : Value) : Run Datum := do
  let name ← node.item 1
  let found ← lookup room e (← name.toName)
  match found with
  | some d => if d.value.isNil then throw (.undefinedSymbol (← plainText name)) else return d
  | none => throw (.undefinedSymbol (← plainText name))

/-- Sets a name to what a node gives. -/
def evalAssignment (inner : Evaluator) (room : Room) (e : ScopeId) (node : Value) :
    Run Datum := do
  let name ← (← node.item 1).item 1
  let d ← inner room e (← node.item 2)
  assign room e name d
  return d

/-- Makes a function, which remembers a new scope inside the one it is made in. -/
def evalFunction (rules : Rules) (room : Room) (e : ScopeId) (node : Value) : Run Datum := do
  let params ← node.item 1
  let body ← node.item 2
  let home ← makeScope rules room (some e)
  return .plain (.function params body home)

/-- One layer of evaluation, over an evaluator for what is nested in it.  A node takes a level. -/
def evalLayer (rules : Rules) (inner : Evaluator) : Evaluator := fun room e node => do
  let room ← room.descend 1
  let tag ← node.tag
  match Tag.of? tag with
  | some .number => return .plain (.number (.float (← (← node.payload).toFloat)))
  | some .string => return .plain (.string (← plainText (← node.payload)))
  | some .none => return .plain .nothing
  | some .operation => evalOperation inner room e node
  | some .symbol => evalSymbol room e node
  | some .assignment => evalAssignment inner room e node
  | some .call => evalCall rules inner room e node
  | some .function => evalFunction rules room e node
  | Option.none => throw (.unknownNode (← plainText tag))

/-- Evaluation at most `depth` layers deep. -/
def eval (rules : Rules) : (depth : Nat) → Evaluator
  | 0, _, _, _ => throw .tooDeep
  | depth + 1, room, e, node => evalLayer rules (eval rules depth) room e node

/-- How deep evaluation may be nested.  Every layer takes at least a level, so a host's room runs
    out first. -/
def evalDepth : Nat := 1000

/-- Evaluation by the usual rules. -/
def evaluate : Evaluator := eval .standard evalDepth

/-- The room that a host leaves to what it runs. -/
def hostRoom : Room := .levels 995

end Scrawl
