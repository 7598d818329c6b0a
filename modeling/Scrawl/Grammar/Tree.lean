/-
  Scrawl.Grammar.Tree — the statements of a program.

  Operands, callees and assigned expressions may be missing: the grammar lets a statement leave
  them out.  A tree is run as a value: every node becomes a tuple that starts with its tag, and
  what is missing becomes nothing.
-/

import Scrawl.Value.Basic

namespace Scrawl.Grammar

/-! ## §1. Trees -/

/-- A statement or a part of one. -/
inductive Tree where
  /-- A number, with its text. -/
  | number (text : Value)
  /-- A string. -/
  | string (text : Value)
  /-- A name. -/
  | symbol (name : Value)
  /-- An operator between two operands. -/
  | operation (op : Value) (left right : Option Tree)
  /-- A call. -/
  | call (callee : Option Tree) (args : List Tree)
  /-- A function: the names of its parameters and its body. -/
  | function (params : List Value) (body : List Tree)
  /-- An assignment to a name. -/
  | assignment (name : Value) (value : Option Tree)

/-! ## §2. Trees as values -/

mutual

/-- The node of a tree. -/
def Tree.toValue : Tree → Value
  | .number text => .tuple [.text "number", text]
  | .string text => .tuple [.text "string", text]
  | .symbol name => .symbolNode name
  | .operation op left right =>
    .tuple [.text "operation", op, Tree.optionToValue left, Tree.optionToValue right]
  | .call callee args => .callNode (Tree.optionToValue callee) (.list (Tree.listToValues args))
  | .function params body =>
    .tuple [.text "function", .list (params.map Value.symbolNode),
      .list (Tree.listToValues body)]
  | .assignment name value =>
    .tuple [.text "assignment", .symbolNode name, Tree.optionToValue value]

/-- The node of a tree that may be missing. -/
def Tree.optionToValue : Option Tree → Value
  | none => .nil
  | some t => t.toValue

/-- The nodes of several trees. -/
def Tree.listToValues : List Tree → List Value
  | [] => []
  | t :: rest => t.toValue :: Tree.listToValues rest

end

theorem Tree.listToValues_eq_map (trees : List Tree) :
    Tree.listToValues trees = trees.map Tree.toValue := by
  induction trees with
  | nil => rfl
  | cons t trees ih => rw [Tree.listToValues, ih, List.map_cons]

end Scrawl.Grammar
