/-
  Scrawl.Value.Arithmetic — the four operators and the two conversions.

  Whole numbers stay exact under addition, subtraction and multiplication, and divide to the
  nearest floating point number; as soon as one operand is a floating point number, the other
  becomes one.  Sequences of one kind are appended by addition and repeated by multiplication with
  a whole number.
-/

import Scrawl.Decimal.Reading
import Scrawl.Value.Access
import Scrawl.Value.Equal

namespace Scrawl.Value

open Scrawl.Decimal (Place)

/-! ## §1. Numbers -/

/-- A number to compute with. -/
inductive Numeral where
  /-- An exact whole number. -/
  | whole (i : Int)
  /-- A floating point number. -/
  | floating (x : Float)

/-- The number that a value is. -/
def numeral? : Value → Option Numeral
  | .bool b => some (.whole (if b then 1 else 0))
  | .int i => some (.whole i)
  | .float x => some (.floating x)
  | _ => none

/-- A number as a floating point number. -/
def Numeral.toFloat : Numeral → Except Fault Float
  | .whole i =>
    match Decimal.ofInt? i with
    | some x => .ok x
    | none => .error .intTooLarge
  | .floating x => .ok x

/-- Whether a value is a sequence, and what its kind is called. -/
def sequence? : Value → Option String
  | .text _ => some "str"
  | .tuple _ => some "tuple"
  | .list _ => some "list"
  | _ => none

/-! ## §2. Addition and subtraction -/

/-- Combines two numbers, exactly if both are whole. -/
def combine (exact : Int → Int → Int) (floating : Float → Float → Float) (a b : Numeral) :
    Except Fault Value :=
  match a, b with
  | .whole i, .whole j => .ok (.int (exact i j))
  | a, b => do
    let x ← a.toFloat
    let y ← b.toFloat
    return .float (floating x y)

/-- The sum of two values. -/
def add (a b : Value) : Except Fault Value :=
  match a.numeral?, b.numeral? with
  | some x, some y => combine (· + ·) (· + ·) x y
  | _, _ =>
    match a, b with
    | .text s, .text t => .ok (.text (s ++ t))
    | .tuple xs, .tuple ys => .ok (.tuple (xs ++ ys))
    | .list xs, .list ys => .ok (.list (xs ++ ys))
    | a, b =>
      match a.sequence? with
      | some seq => .error (.badAppend seq b.kind)
      | none => .error (.badOperands "+" a.kind b.kind)

/-- The difference of two values. -/
def sub (a b : Value) : Except Fault Value :=
  match a.numeral?, b.numeral? with
  | some x, some y => combine (· - ·) (· - ·) x y
  | _, _ => .error (.badOperands "-" a.kind b.kind)

/-! ## §3. Multiplication -/

/-- The least count that is too large to be one. -/
def countLimit : Nat := Nat.pow 2 63

/-- The most items a repeated sequence may have. -/
def itemLimit : Nat := Nat.pow 2 32

/-- Items repeated a number of times. -/
def repeatItems {α : Type} (times : Nat) (items : List α) : List α :=
  if items.isEmpty then [] else (List.replicate times items).flatten

/-- A sequence repeated a number of times; below one time it is empty. -/
def repeated (v : Value) (count : Int) : Except Fault Value :=
  if count < -(countLimit : Int) || (countLimit : Int) ≤ count then .error .countTooWide
  else
    let times := count.toNat
    match v with
    | .text s =>
      let total := s.toList.length * times
      if countLimit ≤ total then .error .repeatTooLong
      else if itemLimit < total then .error .outOfMemory
      else .ok (.text (String.ofList (repeatItems times s.toList)))
    | .tuple xs =>
      if itemLimit < xs.length * times then .error .outOfMemory
      else .ok (.tuple (repeatItems times xs))
    | .list xs =>
      if itemLimit < xs.length * times then .error .outOfMemory
      else .ok (.list (repeatItems times xs))
    | v => .ok v

/-- A sequence repeated as often as a value says. -/
def repeatBy (v count : Value) : Except Fault Value :=
  match count.numeral? with
  | some (.whole n) => repeated v n
  | _ => .error (.badRepeat count.kind)

/-- The product of two values. -/
def mul (a b : Value) : Except Fault Value :=
  match a.numeral?, b.numeral? with
  | some x, some y => combine (· * ·) (· * ·) x y
  | _, _ =>
    if a.sequence?.isSome then repeatBy a b
    else if b.sequence?.isSome then repeatBy b a
    else .error (.badOperands "*" a.kind b.kind)

/-! ## §4. Division -/

/-- The quotient of two values, always a floating point number. -/
def div (a b : Value) : Except Fault Value :=
  match a.numeral?, b.numeral? with
  | some (.whole i), some (.whole j) =>
    if j == 0 then .error (.divisionByZero false)
    else match Decimal.quotient? i j with
      | some x => .ok (.float x)
      | none => .error .quotientTooLarge
  | some x, some y => do
    let x ← x.toFloat
    let y ← y.toFloat
    if (Place.ofFloat y).same (Place.ofInt 0) then .error (.divisionByZero true)
    else .ok (.float (x / y))
  | _, _ => .error (.badOperands "/" a.kind b.kind)

/-! ## §5. Conversions -/

/-- A payload as a floating point number. -/
def toFloat (v : Value) : Except Fault Float :=
  match v.numeral?, v with
  | some n, _ => n.toFloat
  | none, .text s =>
    match Decimal.readFloat? s with
    | some x => .ok x
    | none => .error (.badFloat s)
  | none, v => .error (.notFloat v.kind)

/-- A payload as a whole number; fractions are cut toward zero. -/
def toInt (v : Value) : Except Fault Int :=
  match v with
  | .bool b => .ok (if b then 1 else 0)
  | .int i => .ok i
  | .float x =>
    match Place.ofFloat x with
    | .finite multiple => .ok (Int.tdiv multiple (Nat.pow 2 1074))
    | .infinite _ => .error .infiniteInt
    | .undefined => .error .undefinedInt
  | .text s =>
    match Decimal.readInt s with
    | .value i => .ok i
    | .malformed => .error (.badInt s)
    | .tooLong digits => .error (.tooManyDigits digits)
  | v => .error (.notInt v.kind)

end Scrawl.Value
