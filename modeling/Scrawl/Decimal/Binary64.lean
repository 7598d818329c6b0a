/-
  Scrawl.Decimal.Binary64 — 64-bit binary floating point numbers in whole-number arithmetic.

  A finite number is `m * 2 ^ q` with `m < 2 ^ 53` and `-1074 ≤ q`.  This module takes a number
  apart, puts the number nearest to a fraction together, and places every number on the grid of
  step `2 ^ -1074`, on which all of them lie exactly.
-/

namespace Scrawl.Decimal

/-! ## §1. Taking a number apart -/

/-- The sign bit. -/
def isNegative (x : Float) : Bool :=
  x.toBits.toNat / Nat.pow 2 63 == 1

/-- The code of the size of a number: its bits without the sign. -/
def sizeCode (x : Float) : Nat :=
  x.toBits.toNat % Nat.pow 2 63

/-- The size code of infinity; larger ones belong to no number. -/
def infinityCode : Nat := 0x7ff * Nat.pow 2 52

/-- The size of a finite number as `m * 2 ^ (step - 1074)`. -/
structure Size where
  /-- The whole factor. -/
  m : Nat
  /-- How many binary places the factor stands above the finest grid. -/
  step : Nat
  deriving Repr, DecidableEq

/-- The size that a code below infinity's stands for. -/
def Size.ofCode (code : Nat) : Size :=
  if code < Nat.pow 2 52 then ⟨code, 0⟩
  else ⟨code % Nat.pow 2 52 + Nat.pow 2 52, code / Nat.pow 2 52 - 1⟩

/-! ## §2. Nearest number -/

/-- A quotient rounded to the nearest whole number, a half to the even one. -/
def roundDiv (num den : Nat) : Nat :=
  let whole := num / den
  let rest := 2 * (num % den)
  if rest < den || (rest == den && whole % 2 == 0) then whole else whole + 1

/-- How many places above the finest grid the 53 leading bits of `num / den` stand: its binary
    exponent raised by 1022, and zero where it is below that. -/
def placesAbove (num den : Nat) : Nat :=
  let short := if num * Nat.pow 2 den.log2 < den * Nat.pow 2 num.log2 then 1 else 0
  num.log2 + 1022 - (den.log2 + short)

/-- The size code of the number nearest to `num / den`, a tie going to the even factor. -/
def nearestCode (num den : Nat) : Nat :=
  if num = 0 then 0
  else
    let step := placesAbove num den
    min infinityCode
      (step * Nat.pow 2 52 + roundDiv (num * Nat.pow 2 1074) (den * Nat.pow 2 step))

/-- The number with a given sign and size code. -/
def ofCode (negative : Bool) (code : Nat) : Float :=
  Float.ofBits (UInt64.ofNat (code + if negative then Nat.pow 2 63 else 0))

/-- The number nearest to a fraction. -/
def ofFraction (negative : Bool) (num den : Nat) : Float :=
  ofCode negative (nearestCode num den)

/-- The number nearest to a whole number, unless that is beyond all finite ones. -/
def ofInt? (i : Int) : Option Float :=
  let code := nearestCode i.natAbs 1
  if code < infinityCode then some (ofCode (i < 0) code) else none

/-- The number nearest to the quotient of two whole numbers, unless that is beyond all finite
    ones.  A zero takes the sign the two give it. -/
def quotient? (a b : Int) : Option Float :=
  let code := nearestCode a.natAbs b.natAbs
  if code < infinityCode then some (ofCode ((a < 0) != (b < 0)) code) else none

/-! ## §3. Exact place -/

/-- Where a number lies, exactly. -/
inductive Place where
  /-- A multiple of `2 ^ -1074`. -/
  | finite (multiple : Int)
  /-- Beyond all finite numbers, on one side. -/
  | infinite (negative : Bool)
  /-- Nowhere. -/
  | undefined
  deriving Repr, DecidableEq

/-- The place of a floating point number. -/
def Place.ofFloat (x : Float) : Place :=
  let code := sizeCode x
  if code < infinityCode then
    let size := Size.ofCode code
    let multiple : Int := size.m * Nat.pow 2 size.step
    .finite (if isNegative x then -multiple else multiple)
  else if code = infinityCode then .infinite (isNegative x)
  else .undefined

/-- The place of a whole number. -/
def Place.ofInt (i : Int) : Place :=
  .finite (i * Nat.pow 2 1074)

/-- Two numbers are equal when they lie in one place; what lies nowhere equals nothing. -/
def Place.same (a b : Place) : Bool :=
  a == b && a != .undefined

end Scrawl.Decimal
