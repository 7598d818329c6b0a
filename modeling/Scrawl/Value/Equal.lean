/-
  Scrawl.Value.Equal — when two values are equal.

  Numbers are equal when they lie in the same place, whatever their kind; sequences of the same
  kind are equal item by item; records are equal when they have the same fields in any order.
  What lies nowhere equals nothing, but as an item or a field it counts as one and the same thing,
  so that a sequence always equals itself.
-/

import Scrawl.Decimal.Binary64
import Scrawl.Value.Basic

namespace Scrawl.Value

open Scrawl.Decimal (Place)

/-! ## §1. Numbers -/

/-- Where a value lies if it is a number. -/
def place? : Value → Option Place
  | .bool b => some (Place.ofInt (if b then 1 else 0))
  | .int i => some (Place.ofInt i)
  | .float x => some (Place.ofFloat x)
  | _ => none

/-- Whether a value is the floating point number that lies nowhere. -/
def isUndefined : Value → Bool
  | .float x => Place.ofFloat x == .undefined
  | _ => false

/-! ## §2. All values -/

mutual

/-- Whether two values are equal. -/
def equal : Value → Value → Bool
  | .nil, .nil => true
  | .text s, .text t => s == t
  | .tuple xs, .tuple ys => equalItems xs ys
  | .list xs, .list ys => equalItems xs ys
  | .record fs, .record gs => fs.length == gs.length && equalFields fs gs
  | .native f, .native g => f == g
  | .scope i, .scope j => i == j
  | a, b =>
    match a.place?, b.place? with
    | some p, some q => p.same q
    | _, _ => false

/-- Whether two lists of values are equal item by item. -/
def equalItems : List Value → List Value → Bool
  | [], [] => true
  | x :: xs, y :: ys =>
    (equal x y || (isUndefined x && isUndefined y)) && equalItems xs ys
  | _, _ => false

/-- Whether every field of the first list is in the second with an equal value. -/
def equalFields : List (String × Value) → List (String × Value) → Bool
  | [], _ => true
  | (name, v) :: rest, gs =>
    (match gs.lookup name with
      | some w => equal v w || (isUndefined v && isUndefined w)
      | none => false) && equalFields rest gs

end

/-- Whether a value is equal to the number one. -/
def isOne (v : Value) : Bool :=
  v.equal (.int 1)

end Scrawl.Value
