/-
  Scrawl.Json.Writer — values as JSON text.

  Both kinds of sequences become arrays.  The text holds nothing beyond the basic printable range:
  every other character is escaped, those beyond sixteen bits as two halves.  A comma and a colon
  are followed by a space.
-/

import Scrawl.Decimal.Written
import Scrawl.Text.Quoted
import Scrawl.Value.Basic

namespace Scrawl.Json

/-! ## §1. Strings -/

/-- An escape by sixteen bits. -/
def escape16 (n : Nat) : List Char := '\\' :: 'u' :: Text.hex 4 n

/-- One character of a string. -/
def escapeChar (c : Char) : List Char :=
  let n := c.toNat
  if c == '"' then ['\\', '"']
  else if c == '\\' then ['\\', '\\']
  else if c == '\n' then ['\\', 'n']
  else if c == '\r' then ['\\', 'r']
  else if c == '\t' then ['\\', 't']
  else if n == 0x0c then ['\\', 'f']
  else if n == 0x08 then ['\\', 'b']
  else if 0x20 ≤ n && n < 0x7f then [c]
  else if n < 0x10000 then escape16 n
  else escape16 (0xd800 + (n - 0x10000) / 0x400) ++ escape16 (0xdc00 + (n - 0x10000) % 0x400)

/-- A string in quotes. -/
def stringText (s : String) : String :=
  String.ofList ('"' :: s.toList.flatMap escapeChar ++ ['"'])

/-! ## §2. Values -/

/-- A floating point number, with the words of JSON for what has no digits. -/
def floatText (x : Float) : String :=
  if Decimal.infinityCode < Decimal.sizeCode x then "NaN"
  else if Decimal.sizeCode x == Decimal.infinityCode then
    if Decimal.isNegative x then "-Infinity" else "Infinity"
  else Decimal.floatText x

/-- Items between two signs. -/
def enclose (opening closing : String) (items : List String) : String :=
  opening ++ String.intercalate ", " items ++ closing

mutual

/-- The JSON text of a value; what has no counterpart in JSON becomes null. -/
def write : Value → String
  | .nil => "null"
  | .bool b => if b then "true" else "false"
  | .int i => Decimal.intText i
  | .float x => floatText x
  | .text s => stringText s
  | .tuple items => enclose "[" "]" (writeItems items)
  | .list items => enclose "[" "]" (writeItems items)
  | .record fields => enclose "\x7b" "\x7d" (writeFields fields)
  | .native _ => "null"
  | .scope _ => "null"

/-- The JSON texts of items. -/
def writeItems : List Value → List String
  | [] => []
  | v :: rest => write v :: writeItems rest

/-- The JSON texts of fields. -/
def writeFields : List (String × Value) → List String
  | [] => []
  | (name, v) :: rest => (stringText name ++ ": " ++ write v) :: writeFields rest

end

end Scrawl.Json

/-! ## §3. Nesting -/

namespace Scrawl.Value

mutual

/-- How deep a value is nested. -/
def nesting : Value → Nat
  | .tuple items => itemsNesting items + 1
  | .list items => itemsNesting items + 1
  | _ => 1

/-- How deep the deepest of several values is nested. -/
def itemsNesting : List Value → Nat
  | [] => 0
  | v :: rest => max v.nesting (itemsNesting rest)

end

end Scrawl.Value
