/-
  Scrawl.Decimal.Shortest — the fewest decimal digits that tell a number from its neighbours.

  Every real number close enough to a floating point number is read back as that number.  Among
  the decimals in that interval the one with the fewest digits is taken; of two with equally many,
  the nearer one, and of two equally near the one with the even last digit.
-/

import Scrawl.Decimal.Binary64

namespace Scrawl.Decimal

/-! ## §1. Fractions and their interval -/

/-- A number with the interval that is read back as it, over one common denominator. -/
structure Interval where
  /-- The number itself. -/
  mid : Nat
  /-- The lower end. -/
  low : Nat
  /-- The upper end. -/
  high : Nat
  /-- The denominator of all three. -/
  den : Nat
  /-- Whether the ends belong to the interval. -/
  closed : Bool

/-- The interval of a finite size: half a step to each side, and only a quarter down from a power
    of two, below which the steps are half as wide. -/
def Interval.ofSize (size : Size) : Interval :=
  let unit := Nat.pow 2 size.step
  let below := if size.m == Nat.pow 2 52 && size.step != 0 then 1 else 2
  { mid := 4 * size.m * unit
    low := (4 * size.m - below) * unit
    high := (4 * size.m + 2) * unit
    den := 4 * Nat.pow 2 1074
    closed := size.m % 2 == 0 }

/-- Whether `num / den'` lies in the interval, with `den'` a multiple of its denominator given by
    the factor `scale`. -/
def Interval.holds (i : Interval) (num scale : Nat) : Bool :=
  if i.closed then i.low * scale ≤ num && num ≤ i.high * scale
  else i.low * scale < num && num < i.high * scale

/-! ## §2. Decimal exponent -/

/-- How many decimal places a fraction below one must be raised to reach one, at most `fuel`. -/
def raiseToOne (num den : Nat) : (fuel : Nat) → Nat
  | 0 => 0
  | fuel + 1 => if den ≤ num then 0 else raiseToOne (num * 10) den fuel + 1

/-- The place of the decimal point: `num / den` is at least `10 ^ (point - 1)` and below
    `10 ^ point`. -/
def pointOf (num den : Nat) : Int :=
  if den ≤ num then (Nat.toDigits 10 (num / den)).length
  else 1 - (raiseToOne num den 400 : Int)

/-! ## §3. Search -/

/-- A decimal `0.ddd… * 10 ^ point`. -/
structure Digits where
  /-- The digits as one whole number, the first one not zero. -/
  number : Nat
  /-- Where the point stands, counted from before the first digit. -/
  point : Int
  deriving Repr, DecidableEq

/-- The decimal of `count` digits that lies in the interval, if one of the number's two neighbours
    with so many digits does. -/
def Interval.decimal? (i : Interval) (point : Int) (count : Nat) : Option Digits :=
  let places := point - count
  let up := Nat.pow 10 places.toNat
  let down := Nat.pow 10 (-places).toNat
  let unit := up * i.den
  let scaled := i.mid * down
  let lower := scaled / unit
  let upper := lower + 1
  let below := i.holds (lower * unit) down
  let above := i.holds (upper * unit) down
  let gap := 2 * (scaled % unit)
  let nearer := if gap < unit || (gap == unit && lower % 2 == 0) then lower else upper
  let chosen := match below, above with
    | true, true => some nearer
    | true, false => some lower
    | false, true => some upper
    | false, false => none
  chosen.map fun n => if n == Nat.pow 10 count then ⟨1, point + 1⟩ else ⟨n, point⟩

/-- The shortest decimal in the interval with at least `count` digits; seventeen always do. -/
def Interval.shortestFrom (i : Interval) (point : Int) (count : Nat) : (fuel : Nat) → Digits
  | 0 => ⟨0, 0⟩
  | fuel + 1 => (i.decimal? point count).getD (i.shortestFrom point (count + 1) fuel)

/-- The shortest decimal that is read back as a finite size other than zero. -/
def shortest (size : Size) : Digits :=
  let i := Interval.ofSize size
  i.shortestFrom (pointOf i.mid i.den) 1 17

end Scrawl.Decimal
