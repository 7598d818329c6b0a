/-
  Scrawl.Value.Access — picking values apart.

  Sequences and texts have items; a record is gone through by its names, and none of its names is a
  number.  All other values have no items.
-/

import Scrawl.Fault
import Scrawl.Value.Basic

namespace Scrawl.Value

/-! ## §1. Items -/

/-- The texts of single characters that make up a text. -/
def characters (s : String) : List Value :=
  s.toList.map fun c => .text (String.singleton c)

/-- The item at a position, of something whose items are of the given kind. -/
def pick (kind : String) (items : List Value) (i : Nat) : Except Fault Value :=
  match items[i]? with
  | some v => .ok v
  | none => .error (.indexRange kind)

/-- The item of a value at a position. -/
def item (v : Value) (i : Nat) : Except Fault Value :=
  match v with
  | .tuple items => pick "tuple" items i
  | .list items => pick "list" items i
  | .text s => pick "string" (characters s) i
  | .record _ => .error (.missingKey (Decimal.natText i))
  | v => .error (.notIndexable v.kind)

/-- The tag of a node or value. -/
def tag (v : Value) : Except Fault Value := v.item 0

/-- The payload of a node or value. -/
def payload (v : Value) : Except Fault Value := v.item 1

/-! ## §2. All items -/

/-- The items of a value, in order. -/
def items : Value → Except Fault (List Value)
  | .tuple items => .ok items
  | .list items => .ok items
  | .text s => .ok (characters s)
  | .record fields => .ok (fields.map fun f => .text f.1)
  | v => .error (.notIterable v.kind)

/-- The number of items of a value. -/
def length : Value → Except Fault Nat
  | .tuple items => .ok items.length
  | .list items => .ok items.length
  | .text s => .ok s.toList.length
  | .record fields => .ok fields.length
  | v => .error (.noLength v.kind)

end Scrawl.Value
