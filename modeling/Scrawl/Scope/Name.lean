/-
  Scrawl.Scope.Name — what a variable can be called.

  Names in source text are texts.  Nodes from outside may use other values as names; numbers that
  are equal are then the same name.  Sequences, records and scopes cannot be names.
-/

import Scrawl.Fault
import Scrawl.Value.Equal

namespace Scrawl

open Scrawl.Decimal (Place)

/-! ## §1. Names -/

/-- What a variable can be called. -/
inductive Name where
  /-- A text. -/
  | text (s : String)
  /-- Nothing. -/
  | nil
  /-- A number, wherever it lies. -/
  | number (place : Place)
  /-- A function the language brings along. -/
  | native (fn : Native)
  deriving Repr, DecidableEq

/-- The name that a value is. -/
def Value.toName (v : Value) : Except Fault Name :=
  match v with
  | .text s => .ok (.text s)
  | .nil => .ok .nil
  | .native fn => .ok (.native fn)
  | v =>
    match v.place? with
    | some place => .ok (.number place)
    | none => .error (.notNameable v.kind)

/-! ## §2. Names as text -/

/-- The number at a place, written out. -/
def placeText : Place → String
  | .finite multiple =>
    if multiple % Nat.pow 2 1074 == 0 then Decimal.intText (multiple / Nat.pow 2 1074)
    else Decimal.floatText (Decimal.ofFraction (multiple < 0) multiple.natAbs (Nat.pow 2 1074))
  | .infinite negative => if negative then "-inf" else "inf"
  | .undefined => "nan"

/-- A name, written out. -/
def Name.display : Name → String
  | .text s => s
  | .nil => "None"
  | .number place => placeText place
  | .native fn => fn.name

end Scrawl
