/-
  Scrawl.Decimal.Reading — which texts are numbers, and which number each one is.

  Blanks around a number are ignored, decimal digits may come from any script, and single
  underscores may stand between digits.  A floating point text is a sign, digits with at most one
  point, and an exponent, or one of the words for infinity and for no number.  An integer text is a
  sign and digits, up to a limit on their count.
-/

import Scrawl.Decimal.Written
import Scrawl.Text.Plain

namespace Scrawl.Decimal

open Scrawl.Text (plain)

/-! ## §1. Digits -/

/-- A decimal digit of the plain form. -/
def isDigit (c : Char) : Bool :=
  '0' ≤ c && c ≤ '9'

/-- The whole number that digits stand for. -/
def digitsValue (cs : List Char) : Nat :=
  cs.foldl (fun n c => 10 * n + (c.toNat - 0x30)) 0

/-- A sign, if there is one, and what follows it. -/
def splitSign : List Char → Bool × List Char
  | '-' :: rest => (true, rest)
  | '+' :: rest => (false, rest)
  | cs => (false, cs)

/-- The text without the underscores between digits, unless an underscore stands elsewhere. -/
def joinGroups? : (afterDigit : Bool) → List Char → Option (List Char)
  | _, [] => some []
  | afterDigit, c :: rest =>
    if c == '_' then
      if afterDigit && rest.head?.any isDigit then joinGroups? false rest else none
    else (joinGroups? (isDigit c) rest).map (c :: ·)

/-! ## §2. Floating point texts -/

/-- The number `digits * 10 ^ exponent`, nearest.  Exponents far beyond the range of all numbers
    are settled without computing the power. -/
def ofDecimal (negative : Bool) (digits : List Char) (exponent : Int) : Float :=
  let significant := digits.dropWhile (· == '0')
  let top := significant.length + exponent
  if significant.isEmpty || top < -400 then ofCode negative 0
  else if 400 < top then ofCode negative infinityCode
  else
    let n := digitsValue significant
    if 0 ≤ exponent then ofFraction negative (n * Nat.pow 10 exponent.toNat) 1
    else ofFraction negative n (Nat.pow 10 (-exponent).toNat)

/-- The exponent that ends a text: nothing, or a mark, a sign and digits. -/
def exponent? : List Char → Option Int
  | [] => some 0
  | c :: rest =>
    let (negative, digits) := splitSign rest
    if (c == 'e' || c == 'E') && !digits.isEmpty && digits.all isDigit then
      some (if negative then -(digitsValue digits : Int) else digitsValue digits)
    else none

/-- Digits with at most one point and at least one digit, then an exponent. -/
def decimal? (negative : Bool) (cs : List Char) : Option Float :=
  let whole := cs.takeWhile isDigit
  let rest := cs.dropWhile isDigit
  let places := match rest with
    | '.' :: tail => tail.takeWhile isDigit
    | _ => []
  let tail := match rest with
    | '.' :: tail => tail.dropWhile isDigit
    | _ => rest
  if (whole ++ places).isEmpty then none
  else (exponent? tail).map fun e => ofDecimal negative (whole ++ places) (e - places.length)

/-- The words for infinity and for no number, in any case of letters. -/
def word? (negative : Bool) (cs : List Char) : Option Float :=
  let word := String.ofList (cs.map Char.toLower)
  if word == "inf" || word == "infinity" then some (ofCode negative infinityCode)
  else if word == "nan" then some (ofCode negative (infinityCode + Nat.pow 2 51))
  else none

/-- The floating point number that a text is. -/
def readFloat? (s : String) : Option Float :=
  (joinGroups? false (plain s)).bind fun cs =>
    let (negative, rest) := splitSign cs
    (word? negative rest).or (decimal? negative rest)

/-! ## §3. Integer texts -/

/-- What reading an integer comes to. -/
inductive IntReading where
  /-- The text is an integer. -/
  | value (i : Int)
  /-- The text is no integer. -/
  | malformed
  /-- The text has more digits than are read. -/
  | tooLong (digits : Nat)
  deriving Repr, DecidableEq

/-- The integer that a plain text is.  Its digits are counted before anything behind them is
    looked at. -/
def readIntChars (cs : List Char) : IntReading :=
  let (negative, rest) := splitSign cs
  let run := rest.takeWhile fun c => isDigit c || c == '_'
  let behind := rest.dropWhile fun c => isDigit c || c == '_'
  match joinGroups? false run with
  | none => .malformed
  | some digits =>
    if digits.isEmpty then .malformed
    else if maxDigits < digits.length then .tooLong digits.length
    else if !behind.isEmpty then .malformed
    else .value (if negative then -(digitsValue digits : Int) else digitsValue digits)

/-- The integer that a text is. -/
def readInt (s : String) : IntReading :=
  readIntChars (plain s)

end Scrawl.Decimal
