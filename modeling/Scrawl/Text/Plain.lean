/-
  Scrawl.Text.Plain — the plain form of a text in which numbers are read.

  Numbers may be written with the decimal digits of any script and may stand between blanks of any
  script.  Reading first brings such a text into a plain form: every decimal digit becomes one of
  `0` to `9`, every blank beyond the basic range a space, and any other character beyond that range
  a `?`, which no number contains.
-/

namespace Scrawl.Text

/-! ## §1. Decimal digits -/

/-- The zeros of all scripts: each is followed by its nine other digits, in order. -/
def zeros : List Nat := [
  0x30, 0x660, 0x6f0, 0x7c0, 0x966, 0x9e6, 0xa66, 0xae6, 0xb66, 0xbe6, 0xc66, 0xce6, 0xd66, 0xde6,
  0xe50, 0xed0, 0xf20, 0x1040, 0x1090, 0x17e0, 0x1810, 0x1946, 0x19d0, 0x1a80, 0x1a90, 0x1b50,
  0x1bb0, 0x1c40, 0x1c50, 0xa620, 0xa8d0, 0xa900, 0xa9d0, 0xa9f0, 0xaa50, 0xabf0, 0xff10, 0x104a0,
  0x10d30, 0x11066, 0x110f0, 0x11136, 0x111d0, 0x112f0, 0x11450, 0x114d0, 0x11650, 0x116c0,
  0x11730, 0x118e0, 0x11950, 0x11c50, 0x11d50, 0x11da0, 0x16a60, 0x16ac0, 0x16b50, 0x1d7ce,
  0x1d7d8, 0x1d7e2, 0x1d7ec, 0x1d7f6, 0x1e140, 0x1e2f0, 0x1e950, 0x1fbf0]

/-- The value of a decimal digit of any script. -/
def digitValue? (c : Char) : Option Nat :=
  (zeros.find? fun z => z ≤ c.toNat && c.toNat ≤ z + 9).map fun z => c.toNat - z

/-! ## §2. Blanks -/

/-- The blanks of the basic range: tab, the four line and page breaks, and the space. -/
def isBlank (c : Char) : Bool :=
  c == ' ' || (9 ≤ c.toNat && c.toNat ≤ 13)

/-- The blanks beyond the basic range. -/
def isWideBlank (c : Char) : Bool :=
  [0x85, 0xa0, 0x1680, 0x2028, 0x2029, 0x202f, 0x205f, 0x3000].contains c.toNat ||
    (0x2000 ≤ c.toNat && c.toNat ≤ 0x200a)

/-! ## §3. The plain form -/

/-- The plain form of one character. -/
def plainChar (c : Char) : Char :=
  if c.toNat < 0x7f then c
  else if isWideBlank c then ' '
  else match digitValue? c with
    | some d => Char.ofNat (0x30 + d)
    | none => '?'

/-- Whatever stands between the blanks around a text. -/
def strip (cs : List Char) : List Char :=
  ((cs.dropWhile isBlank).reverse.dropWhile isBlank).reverse

/-- The plain form of a text, without the blanks around it. -/
def plain (s : String) : List Char :=
  strip (s.toList.map plainChar)

end Scrawl.Text
