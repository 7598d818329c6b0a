/-
  Scrawl.Text.Quoted — the quoted form of a text.

  A text is written between quotes with everything that could be misread escaped.  The single quote
  is preferred; the double quote is taken when the text holds a single quote and no double one, so
  that fewer characters need an escape.
-/

import Scrawl.Text.Printable

namespace Scrawl.Text

/-! ## §1. Hexadecimal -/

/-- The lower-case hexadecimal digit of a number below sixteen. -/
def hexDigit (n : Nat) : Char :=
  if n < 10 then Char.ofNat (0x30 + n) else Char.ofNat (0x61 + (n - 10))

/-- The last `width` hexadecimal digits of a number. -/
def hex : (width : Nat) → Nat → List Char
  | 0, _ => []
  | width + 1, n => hex width (n / 16) ++ [hexDigit (n % 16)]

/-! ## §2. Quoting -/

/-- The quote a text is written between. -/
def quoteFor (cs : List Char) : Char :=
  if cs.contains '\'' && !cs.contains '"' then '"' else '\''

/-- One character inside quotes of the kind `q`. -/
def escapeChar (q c : Char) : List Char :=
  if c == q || c == '\\' then ['\\', c]
  else if c == '\n' then ['\\', 'n']
  else if c == '\r' then ['\\', 'r']
  else if c == '\t' then ['\\', 't']
  else if isPrintable c then [c]
  else if c.toNat < 0x100 then '\\' :: 'x' :: hex 2 c.toNat
  else if c.toNat < 0x10000 then '\\' :: 'u' :: hex 4 c.toNat
  else '\\' :: 'U' :: hex 8 c.toNat

/-- The quoted form of a list of characters. -/
def quoteChars (cs : List Char) : List Char :=
  let q := quoteFor cs
  q :: cs.flatMap (escapeChar q) ++ [q]

/-- The quoted form of a text. -/
def quoted (s : String) : String :=
  String.ofList (quoteChars s.toList)

end Scrawl.Text
