/-
  Scrawl.Json.Reader — values from JSON text.

  Arrays become lists and objects become records, in which a repeated name keeps its place and
  takes the later value.  Numbers with a point or an exponent are floating point numbers, others
  are whole; the words for infinity and for no number are accepted.  A text that is not well formed
  is reported with the place where reading could not go on.

  Reading goes along the characters that are left, so a place is given by how many are left there.
-/

import Scrawl.Decimal.Reading
import Scrawl.Fault
import Scrawl.Pairs
import Scrawl.Value.Basic

namespace Scrawl.Json

/-! ## §1. Faults -/

/-- Why reading could not go on. -/
inductive ReadFault where
  /-- The text is not well formed where `left` characters are left. -/
  | malformed (problem : String) (left : Nat)
  /-- A whole number has more digits than are read. -/
  | tooManyDigits (digits : Nat)
  /-- The text is nested too deeply. -/
  | tooDeep
  deriving Repr, DecidableEq

/-- A fault at the front of what is left. -/
def faultAt {α : Type} (problem : String) (left : List Char) : Except ReadFault α :=
  .error (.malformed problem left.length)

/-- A reader of something at the front of a text. -/
abbrev Reader (α : Type) := List Char → Except ReadFault (α × List Char)

/-! ## §2. Strings -/

/-- The blanks of JSON. -/
def isBlank (c : Char) : Bool := c == ' ' || c == '\t' || c == '\n' || c == '\r'

/-- What is left behind blanks. -/
def skipBlanks (cs : List Char) : List Char := cs.dropWhile isBlank

/-- The value of a hexadecimal digit. -/
def hexValue? (c : Char) : Option Nat :=
  if '0' ≤ c && c ≤ '9' then some (c.toNat - 0x30)
  else if 'a' ≤ c && c ≤ 'f' then some (c.toNat - 0x61 + 10)
  else if 'A' ≤ c && c ≤ 'F' then some (c.toNat - 0x41 + 10)
  else none

/-- The number that four hexadecimal digits at the front stand for. -/
def hex4? : List Char → Option Nat
  | a :: b :: c :: d :: _ => do
    let a ← hexValue? a
    let b ← hexValue? b
    let c ← hexValue? c
    let d ← hexValue? d
    return ((a * 16 + b) * 16 + c) * 16 + d
  | _ => none

/-- Whether sixteen bits are the first half of a character. -/
def isHighHalf (n : Nat) : Bool := 0xd800 ≤ n && n < 0xdc00

/-- Whether sixteen bits are the second half of a character. -/
def isLowHalf (n : Nat) : Bool := 0xdc00 ≤ n && n < 0xe000

/-- The character of sixteen bits; a half by itself becomes the replacement character. -/
def charOf16 (n : Nat) : Char :=
  if isHighHalf n || isLowHalf n then Char.ofNat 0xfffd else Char.ofNat n

/-- The character that a one-letter escape stands for. -/
def shortEscape? : Char → Option Char
  | '"' => some '"'
  | '\\' => some '\\'
  | '/' => some '/'
  | 'b' => some (Char.ofNat 8)
  | 'f' => some (Char.ofNat 12)
  | 'n' => some '\n'
  | 'r' => some '\r'
  | 't' => some '\t'
  | _ => none

/-- The character of an escape by number, at the letter `u` of it, and how many characters behind
    that letter belong to it. -/
def longEscape (left : List Char) : Except ReadFault (Char × Nat) :=
  let digits := left.drop 1
  if digits.length < 5 then faultAt "Invalid \\uXXXX escape" left
  else match hex4? digits with
    | none => faultAt "Invalid \\uXXXX escape" left
    | some high =>
      match digits.drop 4 with
      | '\\' :: 'u' :: second =>
        if isHighHalf high && 5 ≤ second.length then
          match hex4? second with
          | none => faultAt "Invalid \\uXXXX escape" ('u' :: second)
          | some low =>
            if isLowHalf low then
              .ok (Char.ofNat (0x10000 + (high - 0xd800) * 0x400 + (low - 0xdc00)), 10)
            else .ok (charOf16 high, 4)
        else .ok (charOf16 high, 4)
      | _ => .ok (charOf16 high, 4)

/-- The characters up to the closing quote, of a string whose opening quote stood where `start`
    characters were left. -/
def stringBody (start : Nat) : (skip : Nat) → Reader (List Char)
  | _, [] => .error (.malformed "Unterminated string starting at" start)
  | skip + 1, _ :: rest => stringBody start skip rest
  | 0, '"' :: rest => .ok ([], rest)
  | 0, '\\' :: rest =>
    match rest with
    | [] => .error (.malformed "Unterminated string starting at" start)
    | 'u' :: digits => do
      let (c, length) ← longEscape ('u' :: digits)
      let (cs, rest) ← stringBody start length digits
      return (c :: cs, rest)
    | e :: rest =>
      match shortEscape? e with
      | some c => do
        let (cs, rest) ← stringBody start 0 rest
        return (c :: cs, rest)
      | none => faultAt "Invalid \\escape" ('\\' :: e :: rest)
  | 0, c :: rest =>
    if c.toNat < 0x20 then faultAt "Invalid control character at" (c :: rest)
    else do
      let (cs, rest) ← stringBody start 0 rest
      return (c :: cs, rest)

/-- The string behind an opening quote. -/
def stringTail (cs : List Char) : Except ReadFault (String × List Char) := do
  let (body, rest) ← stringBody (cs.length + 1) 0 cs
  return (String.ofList body, rest)

/-! ## §3. Numbers -/

/-- A point with digits behind it, if the text goes on so. -/
def fractionPart : List Char → List Char × List Char
  | '.' :: rest =>
    let digits := rest.takeWhile Decimal.isDigit
    if digits.isEmpty then ([], '.' :: rest) else ('.' :: digits, rest.dropWhile Decimal.isDigit)
  | cs => ([], cs)

/-- An exponent, if the text goes on so. -/
def exponentPart : List Char → List Char × List Char
  | [] => ([], [])
  | e :: rest =>
    let sign := match rest with
      | '+' :: _ => ['+']
      | '-' :: _ => ['-']
      | _ => []
    let behind := rest.drop sign.length
    let digits := behind.takeWhile Decimal.isDigit
    if (e == 'e' || e == 'E') && !digits.isEmpty then
      (e :: sign ++ digits, behind.dropWhile Decimal.isDigit)
    else ([], e :: rest)

/-- The digits of a whole part: a zero alone, or digits that do not start with one. -/
def wholePart : List Char → List Char × List Char
  | '0' :: rest => (['0'], rest)
  | cs => (cs.takeWhile Decimal.isDigit, cs.dropWhile Decimal.isDigit)

/-- A number. -/
def number : Reader Value := fun cs =>
  let (sign, unsigned) := match cs with
    | '-' :: rest => (['-'], rest)
    | cs => ([], cs)
  let (whole, rest) := wholePart unsigned
  if whole.isEmpty then faultAt "Expecting value" cs
  else
    let (fraction, rest) := fractionPart rest
    let (exponent, rest) := exponentPart rest
    if fraction.isEmpty && exponent.isEmpty then
      match Decimal.readIntChars (sign ++ whole) with
      | .value i => .ok (.int i, rest)
      | .tooLong digits => .error (.tooManyDigits digits)
      | .malformed => faultAt "Expecting value" cs
    else
      match Decimal.decimal? (!sign.isEmpty) (whole ++ fraction ++ exponent) with
      | some x => .ok (.float x, rest)
      | none => faultAt "Expecting value" cs

/-! ## §4. Words -/

/-- The words that are values. -/
def words : List (List Char × Value) :=
  [("null".toList, .nil), ("true".toList, .bool true), ("false".toList, .bool false),
    ("NaN".toList, .float (Decimal.ofCode false (Decimal.infinityCode + Nat.pow 2 51))),
    ("Infinity".toList, .float (Decimal.ofCode false Decimal.infinityCode)),
    ("-Infinity".toList, .float (Decimal.ofCode true Decimal.infinityCode))]

/-- The word at the front of a text. -/
def word? (cs : List Char) : Option (Value × List Char) :=
  (words.find? fun w => w.1.isPrefixOf cs).map fun w => (w.2, cs.drop w.1.length)

/-! ## §5. Arrays and objects -/

/-- Items behind an opening bracket up to the closing one, at most `fuel` of them. -/
def arrayItems (inner : Reader Value) : (fuel : Nat) → Reader (List Value)
  | 0, _ => .error .tooDeep
  | fuel + 1, cs => do
    let (v, rest) ← inner cs
    match skipBlanks rest with
    | ']' :: rest => return ([v], rest)
    | ',' :: rest =>
      let (more, rest) ← arrayItems inner fuel (skipBlanks rest)
      return (v :: more, rest)
    | rest => faultAt "Expecting ',' delimiter" rest

/-- Fields behind an opening brace up to the closing one, at most `fuel` of them, added to those
    already read. -/
def objectFields (inner : Reader Value) :
    (fuel : Nat) → List (String × Value) → Reader (List (String × Value))
  | 0, _, _ => .error .tooDeep
  | fuel + 1, fields, cs => do
    match cs with
    | '"' :: rest =>
      let (name, rest) ← stringTail rest
      match skipBlanks rest with
      | ':' :: rest =>
        let (v, rest) ← inner (skipBlanks rest)
        let fields := Pairs.put name v fields
        match skipBlanks rest with
        | '\x7d' :: rest => return (fields, rest)
        | ',' :: rest => objectFields inner fuel fields (skipBlanks rest)
        | rest => faultAt "Expecting ',' delimiter" rest
      | rest => faultAt "Expecting ':' delimiter" rest
    | cs => faultAt "Expecting property name enclosed in double quotes" cs

/-! ## §6. Values -/

/-- One layer of the reader, over a reader for what is nested in it. -/
def valueLayer (inner : Reader Value) : Reader Value := fun cs =>
  match cs with
  | '"' :: rest => do
    let (s, rest) ← stringTail rest
    return (.text s, rest)
  | '[' :: rest =>
    match skipBlanks rest with
    | ']' :: rest => .ok (.list [], rest)
    | rest => do
      let (items, rest) ← arrayItems inner (rest.length + 1) rest
      return (.list items, rest)
  | '\x7b' :: rest =>
    match skipBlanks rest with
    | '\x7d' :: rest => .ok (.record [], rest)
    | rest => do
      let (fields, rest) ← objectFields inner (rest.length + 1) [] rest
      return (.record fields, rest)
  | cs =>
    match word? cs with
    | some found => .ok found
    | none => number cs

/-- A value nested at most `depth` deep. -/
def value : (depth : Nat) → Reader Value
  | 0, _ => .error .tooDeep
  | depth + 1, cs => valueLayer (value depth) cs

/-! ## §7. Texts -/

/-- The place in a text where so many characters are left. -/
def placeOf (problem : String) (cs : List Char) (left : Nat) : DataFault :=
  let before := cs.take (cs.length - left)
  { problem
    line := before.count '\n' + 1
    column := (before.reverse.takeWhile (· != '\n')).length + 1
    position := before.length }

/-- The value of a whole text. -/
def readChars (depth : Nat) (cs : List Char) : Except ReadFault Value := do
  if cs.head? == some (Char.ofNat 0xfeff) then
    faultAt "Unexpected UTF-8 BOM (decode using utf-8-sig)" cs
  else
    let (v, rest) ← value depth (skipBlanks cs)
    let rest := skipBlanks rest
    if rest.isEmpty then return v else faultAt "Extra data" rest

/-- The value that a text stands for. -/
def read (depth : Nat) (s : String) : Except Fault Value :=
  match readChars depth s.toList with
  | .ok v => .ok v
  | .error (.malformed problem left) => .error (.data (placeOf problem s.toList left))
  | .error (.tooManyDigits digits) => .error (.tooManyDigits digits)
  | .error .tooDeep => .error .tooDeep

end Scrawl.Json
