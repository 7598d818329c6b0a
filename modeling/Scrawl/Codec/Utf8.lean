/-
  Scrawl.Codec.Utf8 — texts as bytes.

  A character takes one to four bytes.  Decoding refuses what is no character's shortest form and
  says where the first such place is, how many bytes of it were still well formed, and why it
  fails.
-/

namespace Scrawl.Codec

/-- The content of a file. -/
abbrev Bytes := List UInt8

namespace Utf8

/-! ## §1. Encoding -/

/-- A byte from the low bits of a number. -/
def byte (n : Nat) : UInt8 := UInt8.ofNat n

/-- The bytes of one character. -/
def encodeChar (c : Char) : Bytes :=
  let n := c.toNat
  if n < 0x80 then [byte n]
  else if n < 0x800 then [byte (0xc0 + n / 0x40), byte (0x80 + n % 0x40)]
  else if n < 0x10000 then
    [byte (0xe0 + n / 0x1000), byte (0x80 + n / 0x40 % 0x40), byte (0x80 + n % 0x40)]
  else
    [byte (0xf0 + n / 0x40000), byte (0x80 + n / 0x1000 % 0x40),
      byte (0x80 + n / 0x40 % 0x40), byte (0x80 + n % 0x40)]

/-- The bytes of a list of characters. -/
def encodeChars (cs : List Char) : Bytes :=
  cs.flatMap encodeChar

/-- The bytes of a text. -/
def encode (s : String) : Bytes :=
  encodeChars s.toList

/-! ## §2. Faults -/

/-- Why bytes are no text. -/
inductive Reason where
  /-- No character starts with this byte. -/
  | start
  /-- The character that started here is not continued. -/
  | continuation
  /-- The bytes end inside a character. -/
  | cutOff
  deriving Repr, DecidableEq

/-- The first place where bytes are no text. -/
structure Fault where
  /-- The position of the first byte of the place. -/
  position : Nat
  /-- The first byte of the place. -/
  first : UInt8
  /-- How many bytes the place has. -/
  length : Nat
  /-- What is wrong there. -/
  reason : Reason
  deriving Repr, DecidableEq

/-! ## §3. Decoding -/

/-- Whether a byte continues a character. -/
def isTail (b : UInt8) : Bool :=
  0x80 ≤ b.toNat && b.toNat < 0xc0

/-- Whether a byte may come second after a given first byte: a tail, less those that would make
    the form longer than needed, a surrogate, or a number beyond the last character. -/
def isSecond (first b : UInt8) : Bool :=
  isTail b &&
    match first.toNat with
    | 0xe0 => 0xa0 ≤ b.toNat
    | 0xed => b.toNat < 0xa0
    | 0xf0 => 0x90 ≤ b.toNat
    | 0xf4 => b.toNat < 0x90
    | _ => true

/-- The length of a character's form by its first byte; zero if no character starts so. -/
def formLength (first : UInt8) : Nat :=
  let n := first.toNat
  if n < 0x80 then 1
  else if n < 0xc2 then 0
  else if n < 0xe0 then 2
  else if n < 0xf0 then 3
  else if n < 0xf5 then 4
  else 0

/-- The six payload bits of a tail. -/
def tailBits (b : UInt8) : Nat := b.toNat % 0x40

/-- Decodes bytes that start at a given position of the whole. -/
def decodeFrom (position : Nat) : Bytes → Except Fault (List Char)
  | [] => .ok []
  | a :: rest =>
    let fault (length : Nat) (reason : Reason) : Except Fault (List Char) :=
      .error { position, first := a, length, reason }
    match formLength a with
    | 1 => (decodeFrom (position + 1) rest).map (Char.ofNat a.toNat :: ·)
    | 2 =>
      match rest with
      | [] => fault 1 .cutOff
      | b :: rest =>
        if !isSecond a b then fault 1 .continuation
        else (decodeFrom (position + 2) rest).map
          (Char.ofNat (a.toNat % 0x20 * 0x40 + tailBits b) :: ·)
    | 3 =>
      match rest with
      | [] => fault 1 .cutOff
      | [b] => if !isSecond a b then fault 1 .continuation else fault 2 .cutOff
      | b :: c :: rest =>
        if !isSecond a b then fault 1 .continuation
        else if !isTail c then fault 2 .continuation
        else (decodeFrom (position + 3) rest).map
          (Char.ofNat (a.toNat % 0x10 * 0x1000 + tailBits b * 0x40 + tailBits c) :: ·)
    | 4 =>
      match rest with
      | [] => fault 1 .cutOff
      | [b] => if !isSecond a b then fault 1 .continuation else fault 2 .cutOff
      | [b, c] =>
        if !isSecond a b then fault 1 .continuation
        else if !isTail c then fault 2 .continuation
        else fault 3 .cutOff
      | b :: c :: d :: rest =>
        if !isSecond a b then fault 1 .continuation
        else if !isTail c then fault 2 .continuation
        else if !isTail d then fault 3 .continuation
        else (decodeFrom (position + 4) rest).map
          (Char.ofNat (a.toNat % 8 * 0x40000 + tailBits b * 0x1000 + tailBits c * 0x40 +
            tailBits d) :: ·)
    | _ => fault 1 .start

/-- The text that bytes stand for. -/
def decode (bytes : Bytes) : Except Fault String :=
  (decodeFrom 0 bytes).map String.ofList

end Utf8

/-! ## §4. Line ends -/

/-- Every line end, also a carriage return with or without a line feed, as one line feed. -/
def unifyLineEnds : List Char → List Char
  | [] => []
  | '\r' :: '\n' :: rest => '\n' :: unifyLineEnds rest
  | '\r' :: rest => '\n' :: unifyLineEnds rest
  | c :: rest => c :: unifyLineEnds rest

/-- The text of a source file: decoded, with unified line ends. -/
def sourceText (bytes : Bytes) : Except Utf8.Fault String :=
  (Utf8.decodeFrom 0 bytes).map fun cs => String.ofList (unifyLineEnds cs)

end Scrawl.Codec
