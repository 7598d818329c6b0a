/-
  Scrawl.Decimal.Written — how numbers are written out.

  Whole numbers are written with all their digits, if there are not too many.  Floating point
  numbers are written with the fewest digits that read back, with a point and at least one digit
  behind it while the decimal exponent is small, and with an explicit exponent otherwise.
-/

import Scrawl.Decimal.Shortest

namespace Scrawl.Decimal

/-! ## §1. Whole numbers -/

/-- The decimal digits of a whole number. -/
def natText (n : Nat) : String :=
  String.ofList (Nat.toDigits 10 n)

/-- A whole number with its sign, if it is negative. -/
def intText (i : Int) : String :=
  if i < 0 then "-" ++ natText i.natAbs else natText i.natAbs

/-- The most digits with which whole numbers are written and read. -/
def maxDigits : Nat := 4300

/-- The least whole number with more digits than are written. -/
def writtenLimit : Nat := Nat.pow 10 maxDigits

/-- Whether a whole number has few enough digits to be written. -/
def isWritable (i : Int) : Bool := i.natAbs < writtenLimit

/-! ## §2. Layout of floating point numbers -/

/-- The decisions of the written form. -/
structure Layout where
  /-- The least decimal exponent written without an exponent mark. -/
  least : Int
  /-- The first decimal exponent too large to be written without an exponent mark. -/
  tooLarge : Int
  /-- The least number of digits of an exponent. -/
  exponentWidth : Nat
  /-- The text of infinity. -/
  infinity : String
  /-- The text of what is no number. -/
  undefined : String

/-- Numbers from 0.0001 up to below 10^16 are written out; an exponent has a sign and at least two
    digits. -/
def standardLayout : Layout :=
  { least := -4, tooLarge := 16, exponentWidth := 2, infinity := "inf", undefined := "nan" }

/-- Zeros in front of digits, up to a width. -/
def padLeft (width : Nat) (digits : List Char) : List Char :=
  List.replicate (width - digits.length) '0' ++ digits

/-- Digits around a point, at least one on each side. -/
def positional (digits : List Char) (point : Int) : List Char :=
  if point ≤ 0 then '0' :: '.' :: (List.replicate (-point).toNat '0' ++ digits)
  else
    let whole := point.toNat
    if digits.length ≤ whole then
      digits ++ List.replicate (whole - digits.length) '0' ++ ['.', '0']
    else digits.take whole ++ '.' :: digits.drop whole

/-- One digit, the others behind a point if there are any, and the exponent. -/
def scientific (layout : Layout) (digits : List Char) (exponent : Int) : List Char :=
  let mantissa := match digits with
    | [] => []
    | [d] => [d]
    | d :: rest => d :: '.' :: rest
  let sign := if exponent < 0 then '-' else '+'
  mantissa ++ 'e' :: sign :: padLeft layout.exponentWidth (Nat.toDigits 10 exponent.natAbs)

/-- A decimal in a given layout. -/
def Digits.chars (layout : Layout) (d : Digits) : List Char :=
  let digits := ((Nat.toDigits 10 d.number).reverse.dropWhile (· == '0')).reverse
  let exponent := d.point - 1
  if layout.least ≤ exponent && exponent < layout.tooLarge then positional digits d.point
  else scientific layout digits exponent

/-- A floating point number, written out. -/
def floatText (x : Float) : String :=
  let layout := standardLayout
  let code := sizeCode x
  let sign := if isNegative x then "-" else ""
  if infinityCode < code then layout.undefined
  else if code = infinityCode then sign ++ layout.infinity
  else if code = 0 then sign ++ "0.0"
  else sign ++ String.ofList ((shortest (Size.ofCode code)).chars layout)

end Scrawl.Decimal
