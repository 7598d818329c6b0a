/-
  Scrawl.Eval.Native — the functions of the language.

  Their arguments have been evaluated before the call and are evaluated once more by the function
  itself, some of them twice.
-/

import Scrawl.Eval.Drawing
import Scrawl.Eval.Library

namespace Scrawl

/-! ## §1. Control -/

/-- Calls a function without arguments. -/
def callBlock (inner : Evaluator) (room : Room) (e : ScopeId) (block : Value) : Run Unit := do
  let _ ← inner room e (.callNode block (.tuple []))

/-- Calls one of two functions, the first if the condition is one. -/
def branch (inner : Evaluator) (room : Room) (e : ScopeId) (condition whenTrue whenFalse : Value) :
    Run Unit := do
  let condition ← evalPayload inner room e condition
  callBlock inner room e (if condition.isOne then whenTrue else whenFalse)

/-- Calls a function as long as the condition is one, at most so many times. -/
def iterate (inner : Evaluator) (room : Room) (e : ScopeId) (condition body : Value) :
    (rounds : Nat) → Run Unit
  | 0 => throw .endless
  | rounds + 1 => do
    if (← evalPayload inner room e condition).isOne then
      callBlock inner room e body
      iterate inner room e condition body rounds

/-! ## §2. Libraries -/

/-- Loads the library with a given text, unless that is refused. -/
def loadLibrary (rules : Rules) (text : String) : Run Unit := do
  rules.permit (.load text)
  Library.load rules.libraries text

/-! ## §3. The functions -/

/-- Calls a function of the language with as many arguments as it takes. -/
def Native.run (rules : Rules) (inner : Evaluator) (room : Room) (e : ScopeId) (fn : Native)
    (args : List Value) : Run Datum := do
  match fn, args with
  | .print, [v] =>
    printLine (← plainText (← evalPayload inner room e v))
    inner room e v
  | .printRaw, [v] =>
    printLine (← plainText v)
    inner room e v
  | .str, [v] =>
    return .plain (.text (← plainText (← evalPayload inner room e v)))
  | .concat, [a, b] =>
    let a ← plainText (← evalPayload inner room e a)
    let b ← plainText (← evalPayload inner room e b)
    return .plain (.string (a ++ b))
  | .runFile, [v] =>
    let path ← plainText (← evalPayload inner room e v)
    let text ← readSource path
    rules.permit (.source text)
    let _ ← runText inner (← room.descend 1) e text
    return .plain .nothing
  | .library, [v] =>
    let path ← plainText (← evalPayload inner room e v)
    loadLibrary rules (← Library.unpack (← (← get).files.read path))
    return .plain .nothing
  | .libraryRaw, [v] =>
    let packed ← plainText (← evalPayload inner room e v)
    loadLibrary rules (← Library.unpackText packed)
    return .plain .nothing
  | .choose, [condition, whenTrue, whenFalse] =>
    branch inner room e condition whenTrue whenFalse
    return .plain .nothing
  | .loop, [condition, body] =>
    iterate inner room e condition body rules.rounds
    return .plain .nothing
  | .equals, [a, b] =>
    let a ← evalPayload inner room e a
    let b ← evalPayload inner room e b
    return .plain (.number (.int (if a.equal b then 1 else 0)))
  | .drawing load op, args =>
    let result ← op.run inner room e load args
    Stage.update (·.note load { op, args, result })
    return .plain result
  | _, _ => throw .notNative

/-- Calls a function of the language with any arguments. -/
def Native.apply (rules : Rules) (inner : Evaluator) (room : Room) (e : ScopeId) (fn : Native)
    (args : List Value) : Run Datum :=
  let takes := fn.params.length
  if args.length < takes then throw (.missingArguments fn.name (fn.params.drop args.length))
  else if takes < args.length then throw (.extraArguments fn.name (takes + 1) (args.length + 1))
  else fn.run rules inner room e args

end Scrawl
