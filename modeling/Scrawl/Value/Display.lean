/-
  Scrawl.Value.Display — values as text.

  `Value.shown` writes a value so that its structure can be seen, with texts in quotes;
  `Value.plainText` writes a bare text as it stands and everything else as `shown`.  How a scope is
  written is left to the world the value lives in.  A value that holds a whole number with too many
  digits is not to be written at all.
-/

import Scrawl.Decimal.Written
import Scrawl.Text.Quoted
import Scrawl.Value.Basic

namespace Scrawl.Value

/-! ## §1. Sequences of written items -/

/-- Items in round brackets; a single one keeps its comma. -/
def tupleText : List String → String
  | [a] => "(" ++ a ++ ",)"
  | items => "(" ++ String.intercalate ", " items ++ ")"

/-- Items in square brackets. -/
def listText (items : List String) : String :=
  "[" ++ String.intercalate ", " items ++ "]"

/-- Fields in braces. -/
def recordText (fields : List String) : String :=
  "\x7b" ++ String.intercalate ", " fields ++ "\x7d"

/-! ## §2. Values -/

mutual

/-- A value with its structure, a scope written as `scopeText`. -/
def shown (scopeText : String) : Value → String
  | .nil => "None"
  | .bool b => if b then "True" else "False"
  | .int i => Decimal.intText i
  | .float x => Decimal.floatText x
  | .text s => Text.quoted s
  | .tuple items => tupleText (shownItems scopeText items)
  | .list items => listText (shownItems scopeText items)
  | .record fields => recordText (shownFields scopeText fields)
  | .native fn => "<function " ++ fn.name ++ ">"
  | .scope _ => scopeText

/-- The items of a sequence, each with its structure. -/
def shownItems (scopeText : String) : List Value → List String
  | [] => []
  | v :: rest => shown scopeText v :: shownItems scopeText rest

/-- The fields of a record, each with its name. -/
def shownFields (scopeText : String) : List (String × Value) → List String
  | [] => []
  | (name, v) :: rest =>
    (Text.quoted name ++ ": " ++ shown scopeText v) :: shownFields scopeText rest

end

mutual

/-- Whether a value can be written: none of the whole numbers in it has too many digits. -/
def isWritable : Value → Bool
  | .int i => Decimal.isWritable i
  | .tuple items => areWritable items
  | .list items => areWritable items
  | .record fields => fieldsAreWritable fields
  | _ => true

/-- Whether all items of a sequence can be written. -/
def areWritable : List Value → Bool
  | [] => true
  | v :: rest => isWritable v && areWritable rest

/-- Whether all fields of a record can be written. -/
def fieldsAreWritable : List (String × Value) → Bool
  | [] => true
  | (_, v) :: rest => isWritable v && fieldsAreWritable rest

end

/-- A text as it stands, and any other value with its structure. -/
def plainText (scopeText : String) : Value → String
  | .text s => s
  | v => shown scopeText v

end Scrawl.Value
