/-
  Scrawl.Value.Basic — the data of the language.

  Programs and the values they compute are one kind of data.  A node of a program is a sequence
  whose first item is the text of its tag; so is a value, and a value can be evaluated again as if
  it were a node.  Nodes read from source text are tuples; nodes that come from outside are lists,
  and anything at all may stand where a node is expected.
-/

import Scrawl.Value.Native

namespace Scrawl

/-! ## §1. Values -/

/-- The number of a scope, in the order in which scopes are made. -/
abbrev ScopeId := Nat

/-- The data of the language. -/
inductive Value where
  /-- Nothing. -/
  | nil
  /-- A truth value; it counts as the number one or zero. -/
  | bool (b : Bool)
  /-- A whole number. -/
  | int (i : Int)
  /-- A floating point number. -/
  | float (x : Float)
  /-- A text. -/
  | text (s : String)
  /-- A sequence written in round brackets. -/
  | tuple (items : List Value)
  /-- A sequence written in square brackets. -/
  | list (items : List Value)
  /-- Named fields, each name once, in the order in which they came. -/
  | record (fields : List (String × Value))
  /-- A function the language brings along. -/
  | native (fn : Native)
  /-- A scope. -/
  | scope (id : ScopeId)
  deriving Inhabited

namespace Value

/-! ## §2. Tagged values -/

/-- A number with any payload. -/
def number (payload : Value) : Value := .tuple [.text "number", payload]

/-- A string. -/
def string (s : String) : Value := .tuple [.text "string", .text s]

/-- The value of what has no value. -/
def nothing : Value := .tuple [.text "none"]

/-- A function of the program: parameters, body and the scope it was made in. -/
def function (params body : Value) (home : ScopeId) : Value :=
  .tuple [.text "function", params, body, .scope home]

/-- A function the language brings along, as a value. -/
def nativeValue (fn : Native) : Value := .tuple [.text "native", .native fn]

/-- What the drawing functions give back that have nothing to give back. -/
def blank : Value := .tuple [.nil]

/-- A node that calls what a node gives with the nodes of some arguments. -/
def callNode (callee args : Value) : Value := .tuple [.text "call", callee, args]

/-- A node that looks a name up. -/
def symbolNode (name : Value) : Value := .tuple [.text "symbol", name]

/-! ## §3. Kinds -/

/-- The name of the kind of a value. -/
def kind : Value → String
  | .nil => "NoneType"
  | .bool _ => "bool"
  | .int _ => "int"
  | .float _ => "float"
  | .text _ => "str"
  | .tuple _ => "tuple"
  | .list _ => "list"
  | .record _ => "dict"
  | .native _ => "function"
  | .scope _ => "Env"

/-- Whether a value is a given text. -/
def isText (v : Value) (s : String) : Bool :=
  match v with
  | .text t => t == s
  | _ => false

/-- Whether a value is nothing. -/
def isNil : Value → Bool
  | .nil => true
  | _ => false

end Value

end Scrawl
