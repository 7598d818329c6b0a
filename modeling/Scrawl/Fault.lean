/-
  Scrawl.Fault — everything that can go wrong, and how it is reported.

  A fault is a cause; `Fault.message` is the only place that puts causes into words.
-/

import Scrawl.Codec.Base85
import Scrawl.Decimal.Written
import Scrawl.Text.Quoted

namespace Scrawl

/-! ## §1. Causes -/

/-- Where and why a text is no written data. -/
structure DataFault where
  /-- What was wrong. -/
  problem : String
  /-- The line of the place, counted from one. -/
  line : Nat
  /-- The column of the place, counted from one. -/
  column : Nat
  /-- The number of characters before the place. -/
  position : Nat
  deriving Repr, DecidableEq

/-- Why a file cannot be opened. -/
inductive FileProblem where
  /-- There is no such file. -/
  | missing
  /-- It is a folder. -/
  | folder
  /-- A part of the path that should be a folder is a file. -/
  | notFolder
  /-- A part of the path is longer than any name can be. -/
  | nameTooLong
  deriving Repr, DecidableEq

/-- Everything that can go wrong. -/
inductive Fault where
  /-- A string or a comment does not end. -/
  | unterminated
  /-- No token starts with this character. -/
  | unknownCharacter (c : Char)
  /-- The tokens end where something was still expected. -/
  | endOfInput (expected : String)
  /-- The colon of a function is not followed by a parameter list. -/
  | noParameterList
  /-- A parameter is not a symbol. -/
  | badParameter (found : String)
  /-- The target of an assignment is not a symbol. -/
  | badTarget
  /-- A token stands where it cannot. -/
  | unexpectedToken (kind : String)
  /-- No node has this tag. -/
  | unknownNode (tag : String)
  /-- There is no such operator. -/
  | unknownOperator (op : String)
  /-- No scope on the chain has this name. -/
  | undefinedSymbol (name : String)
  /-- What is called is no function. -/
  | notFunction
  /-- A function is given a number of arguments it does not take. -/
  | wrongArity (given : Nat) (callee : String) (required : Int)
  /-- A native is given too few arguments; the names are those without one. -/
  | missingArguments (fn : String) (names : List String)
  /-- A native is given too many arguments; both counts include the scope. -/
  | extraArguments (fn : String) (takes given : Nat)
  /-- What is tagged as a native is none. -/
  | notNative
  /-- Merging met an item to copy. -/
  | mergeUnsupported
  /-- A value of this kind has no items to pick from. -/
  | notIndexable (kind : String)
  /-- A sequence of this kind has no item there. -/
  | indexRange (kind : String)
  /-- An index is too large to be one. -/
  | indexTooWide
  /-- A value of this kind is no index. -/
  | notIndex (kind : String)
  /-- Only a text can be looked for in a text. -/
  | notPartOfText (kind : String)
  /-- There is no field of this name. -/
  | missingKey (key : String)
  /-- A value of this kind cannot be gone through. -/
  | notIterable (kind : String)
  /-- A value of this kind has no length. -/
  | noLength (kind : String)
  /-- A value of this kind cannot be a name. -/
  | notNameable (kind : String)
  /-- A value of this kind cannot enclose a scope. -/
  | notScope (kind : String)
  /-- An operator does not take operands of these kinds. -/
  | badOperands (op left right : String)
  /-- Only a sequence of the same kind can be appended. -/
  | badAppend (seq other : String)
  /-- A sequence can only be repeated a whole number of times. -/
  | badRepeat (kind : String)
  /-- A count is too large to be one. -/
  | countTooWide
  /-- A repeated text would be too long. -/
  | repeatTooLong
  /-- A sequence would not fit into memory. -/
  | outOfMemory
  /-- Division by zero, with or without a floating point number taking part. -/
  | divisionByZero (floating : Bool)
  /-- A whole number is beyond all floating point numbers. -/
  | intTooLarge
  /-- The quotient of two whole numbers is beyond all floating point numbers. -/
  | quotientTooLarge
  /-- Infinity is no whole number. -/
  | infiniteInt
  /-- What is no number is no whole number. -/
  | undefinedInt
  /-- A value of this kind cannot become a floating point number. -/
  | notFloat (kind : String)
  /-- A value of this kind cannot become a whole number. -/
  | notInt (kind : String)
  /-- A text is no floating point number. -/
  | badFloat (text : String)
  /-- A text is no whole number. -/
  | badInt (text : String)
  /-- A text has more digits than are read. -/
  | tooManyDigits (digits : Nat)
  /-- A whole number has more digits than are written. -/
  | numberTooLong
  /-- A file cannot be opened. -/
  | file (problem : FileProblem) (path : String)
  /-- A path holds the character zero. -/
  | zeroInPath
  /-- A packed text holds characters beyond the basic range. -/
  | notBasic
  /-- A packed text is not well formed. -/
  | packing (fault : Codec.Base85.Fault)
  /-- Bytes are no text. -/
  | decoding (fault : Codec.Utf8.Fault)
  /-- A text is no written data. -/
  | data (fault : DataFault)
  /-- Things are nested deeper than can be followed. -/
  | tooDeep
  /-- A loop goes round more often than can be waited for. -/
  | endless
  deriving Repr, DecidableEq

/-! ## §2. Words -/

/-- Names in quotes, with commas and a final "and". -/
def quotedNames : List String → String
  | [] => ""
  | [a] => s!"'{a}'"
  | [a, b] => s!"'{a}' and '{b}'"
  | names =>
    let quote := fun name : String => s!"'{name}'"
    String.intercalate ", " (names.dropLast.map quote) ++ ", and " ++
      quote (names.getLastD "")

/-- A byte as two hexadecimal digits. -/
def byteText (b : UInt8) : String :=
  "0x" ++ String.ofList (Text.hex 2 b.toNat)

/-- What is wrong with bytes that are no text. -/
def Codec.Utf8.Reason.message : Codec.Utf8.Reason → String
  | .start => "invalid start byte"
  | .continuation => "invalid continuation byte"
  | .cutOff => "unexpected end of data"

/-- The report of bytes that are no text. -/
def Codec.Utf8.Fault.message (f : Codec.Utf8.Fault) : String :=
  let start := Decimal.natText f.position
  let reason := f.reason.message
  if f.length == 1 then
    let first := byteText f.first
    s!"'utf-8' codec can't decode byte {first} in position {start}: {reason}"
  else
    let last := Decimal.natText (f.position + f.length - 1)
    s!"'utf-8' codec can't decode bytes in position {start}-{last}: {reason}"

/-- The report of a text that is not well packed. -/
def Codec.Base85.Fault.message : Codec.Base85.Fault → String
  | .badCharacter position => "bad base85 character at position " ++ Decimal.natText position
  | .overflow position => "base85 overflow in hunk starting at byte " ++ Decimal.natText position

/-- The report of a text that is no written data. -/
def DataFault.message (f : DataFault) : String :=
  let line := Decimal.natText f.line
  let column := Decimal.natText f.column
  let position := Decimal.natText f.position
  let problem := f.problem
  s!"{problem}: line {line} column {column} (char {position})"

/-- The report of a file that cannot be opened. -/
def FileProblem.message (p : FileProblem) (path : String) : String :=
  let what := match p with
    | .missing => "[Errno 2] No such file or directory: "
    | .folder => "[Errno 21] Is a directory: "
    | .notFolder => "[Errno 20] Not a directory: "
    | .nameTooLong => "[Errno 36] File name too long: "
  what ++ Text.quoted path

/-- How many characters of a text that is no whole number are reported, its quotes included. -/
def badIntWidth : Nat := 200

/-- The report of a fault. -/
def Fault.message : Fault → String
  | .unterminated => "Error on string!"
  | .unknownCharacter c =>
    let shown := String.singleton c
    s!"Unknown character '{shown}'"
  | .endOfInput expected => s!"Hit end of file - expected '{expected}'."
  | .noParameterList => "':' must be followed by '(' in a function."
  | .badParameter found =>
    s!"Only symbols are allowed in function parameter lists. Found: {found}."
  | .badTarget => "Can only assign to a symbol"
  | .unexpectedToken kind => s!"Unexpected token '{kind}'"
  | .unknownNode tag => s!"Unknown expression type: {tag}"
  | .unknownOperator op => s!"Unknown operator '{op}'"
  | .undefinedSymbol name => s!"Undefined symbol '{name}'"
  | .notFunction => "Tried to call something that was not a function"
  | .wrongArity given callee required =>
    let given := Decimal.natText given
    let required := Decimal.intText required
    s!"{given} arguments passed to function {callee}, but {required} required."
  | .missingArguments fn names =>
    let count := Decimal.natText names.length
    let plural := if names.length == 1 then "" else "s"
    let listed := quotedNames names
    s!"{fn}() missing {count} required positional argument{plural}: {listed}"
  | .extraArguments fn takes given =>
    let takes := Decimal.natText takes
    let given := Decimal.natText given
    s!"{fn}() takes {takes} positional arguments but {given} were given"
  | .notNative => "unsupported callable"
  | .mergeUnsupported => "set expected at most 1 argument, got 2"
  | .notIndexable kind => s!"'{kind}' object is not subscriptable"
  | .indexRange kind => s!"{kind} index out of range"
  | .indexTooWide => "cannot fit 'int' into an index-sized integer"
  | .notIndex kind => s!"list indices must be integers or slices, not {kind}"
  | .notPartOfText kind => s!"'in <string>' requires string as left operand, not {kind}"
  | .missingKey key => key
  | .notIterable kind => s!"'{kind}' object is not iterable"
  | .noLength kind => s!"object of type '{kind}' has no len()"
  | .notNameable kind => s!"unhashable type: '{kind}'"
  | .notScope kind => s!"'{kind}' object has no attribute 'has'"
  | .badOperands op left right =>
    s!"unsupported operand type(s) for {op}: '{left}' and '{right}'"
  | .badAppend seq other => s!"can only concatenate {seq} (not \"{other}\") to {seq}"
  | .badRepeat kind => s!"can't multiply sequence by non-int of type '{kind}'"
  | .countTooWide => "cannot fit 'int' into an index-sized integer"
  | .repeatTooLong => "repeated string is too long"
  | .outOfMemory => ""
  | .divisionByZero floating => if floating then "float division by zero" else "division by zero"
  | .intTooLarge => "int too large to convert to float"
  | .quotientTooLarge => "integer division result too large for a float"
  | .infiniteInt => "cannot convert float infinity to integer"
  | .undefinedInt => "cannot convert float NaN to integer"
  | .notFloat kind => s!"float() argument must be a string or a real number, not '{kind}'"
  | .notInt kind =>
    s!"int() argument must be a string, a bytes-like object or a real number, not '{kind}'"
  | .badFloat text => "could not convert string to float: " ++ Text.quoted text
  | .badInt text =>
    "invalid literal for int() with base 10: " ++
      String.ofList ((Text.quoteChars text.toList).take badIntWidth)
  | .tooManyDigits digits =>
    let digits := Decimal.natText digits
    "Exceeds the limit (4300 digits) for integer string conversion: value has " ++ digits ++
      " digits; use sys.set_int_max_str_digits() to increase the limit"
  | .numberTooLong =>
    "Exceeds the limit (4300 digits) for integer string conversion; " ++
      "use sys.set_int_max_str_digits() to increase the limit"
  | .file problem path => problem.message path
  | .zeroInPath => "embedded null byte"
  | .notBasic => "string argument should contain only ASCII characters"
  | .packing fault => fault.message
  | .decoding fault => fault.message
  | .data fault => fault.message
  | .tooDeep => "maximum recursion depth exceeded"
  | .endless => "the loop does not end"

end Scrawl
