/-
  Scrawl.Codec.Base85 — bytes as printable characters, five for every four.

  Four bytes make one number in base 256, which is written with five digits in base 85.  A last
  group of fewer bytes is filled up with zero bytes and written with one digit more than it has
  bytes.  Reading fills a last group up with the largest digit and drops as many bytes.
-/

import Scrawl.Codec.Utf8

namespace Scrawl.Codec.Base85

/-! ## §1. Digits -/

/-- The digits, in order of value. -/
def alphabet : List Char :=
  "0123456789ABCDEFGHIJKLMNOPQRSTUVWXYZabcdefghijklmnopqrstuvwxyz".toList ++
    "!#$%&()*+-;<=>?@^_`\x7b|\x7d~".toList

/-- The digit of a value. -/
def digit (value : Nat) : Char :=
  alphabet.getD value '~'

/-- The value of a digit. -/
def value? (code : UInt8) : Option Nat :=
  alphabet.findIdx? fun c => c.toNat == code.toNat

/-! ## §2. Writing -/

/-- The five digits of a group of four bytes; the divisors are the powers of 85. -/
def groupDigits (a b c d : UInt8) : List Char :=
  let n := ((a.toNat * 256 + b.toNat) * 256 + c.toNat) * 256 + d.toNat
  [digit (n / 52200625), digit (n / 614125 % 85), digit (n / 7225 % 85), digit (n / 85 % 85),
    digit (n % 85)]

/-- The digits of bytes. -/
def encode : Bytes → List Char
  | a :: b :: c :: d :: rest => groupDigits a b c d ++ encode rest
  | [a, b, c] => (groupDigits a b c 0).take 4
  | [a, b] => (groupDigits a b 0 0).take 3
  | [a] => (groupDigits a 0 0 0).take 2
  | [] => []

/-! ## §3. Reading -/

/-- Why characters are no digits of bytes. -/
inductive Fault where
  /-- The character at a position is no digit. -/
  | badCharacter (position : Nat)
  /-- The group that starts at a position is too large for four bytes. -/
  | overflow (position : Nat)
  deriving Repr, DecidableEq

/-- The four bytes of a number. -/
def groupBytes (n : Nat) : Bytes :=
  [UInt8.ofNat (n / 0x1000000), UInt8.ofNat (n / 0x10000 % 0x100), UInt8.ofNat (n / 0x100 % 0x100),
    UInt8.ofNat (n % 0x100)]

/-- The number that digits stand for, which start at a given position of the whole. -/
def digitsNumber (position : Nat) : (sum : Nat) → Bytes → Except Fault Nat
  | sum, [] => .ok sum
  | sum, code :: rest =>
    match value? code with
    | some v => digitsNumber (position + 1) (sum * 85 + v) rest
    | none => .error (.badCharacter position)

/-- The bytes of a group of five digits. -/
def decodeGroup (position : Nat) (group : Bytes) : Except Fault Bytes := do
  let n ← digitsNumber position 0 group
  if n < 0x100000000 then .ok (groupBytes n) else .error (.overflow position)

/-- The digit that fills up a last group. -/
def filler : UInt8 := 0x7e

/-- Decodes digits that start at a given position of the whole. -/
def decodeFrom (position : Nat) : Bytes → Except Fault Bytes
  | a :: b :: c :: d :: e :: rest => do
    let group ← decodeGroup position [a, b, c, d, e]
    let more ← decodeFrom (position + 5) rest
    return group ++ more
  | [a, b, c, d] => (decodeGroup position [a, b, c, d, filler]).map (·.take 3)
  | [a, b, c] => (decodeGroup position [a, b, c, filler, filler]).map (·.take 2)
  | [a, b] => (decodeGroup position [a, b, filler, filler, filler]).map (·.take 1)
  | [a] => (decodeGroup position [a, filler, filler, filler, filler]).map (·.take 0)
  | [] => .ok []

/-- The bytes that digits stand for. -/
def decode (codes : Bytes) : Except Fault Bytes :=
  decodeFrom 0 codes

end Scrawl.Codec.Base85
