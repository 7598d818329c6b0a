/-
  Scrawl.Command — the command line.

  A program is run from source or from its packed form, source is packed, and library texts are
  packed.  Without a command that is known, help is printed; without any argument an embedded
  program is run if there is one.
-/

import Scrawl.Eval.Node
import Scrawl.Json.Reader
import Scrawl.Json.Writer

namespace Scrawl.Command

/-! ## §1. Paths -/

/-- The name of a packed file: its source's up to the first point, and an ending. -/
def outputName (path ending : String) : String :=
  String.ofList (path.toList.takeWhile (· != '.')) ++ ending

/-- The argument of a command. -/
def argument : List String → Run String
  | path :: _ => pure path
  | [] => throw (.indexRange "list")

/-- Writes a file. -/
def writeFile (path : String) (content : Codec.Bytes) : Run Unit := do
  let files ← (← get).files.write path content
  modify fun w => { w with files }

/-! ## §2. Packed programs -/

/-- How deep packed programs may be nested. -/
def dataDepth : Nat := 1000

/-- The packed form of statements. -/
def packStatements (nodes : List Value) : Codec.Bytes :=
  Library.pack (Json.write (.list nodes))

/-- The packed form of a program without fault, unless it is nested too deeply. -/
def packProgram (program : Grammar.Program) : Except Fault Codec.Bytes :=
  match program.fault with
  | some f => .error f
  | none =>
    if (Value.list program.nodes).nesting ≤ dataDepth then .ok (packStatements program.nodes)
    else .error .tooDeep

/-- The statements of a packed form. -/
def unpackStatements (bytes : Codec.Bytes) : Except Fault Value := do
  Json.read dataDepth (← Library.unpack bytes)

/-! ## §3. Commands -/

/-- Prints help. -/
def help : Run Unit := do
  printLine "--run FILE     | Runs a .ghp file or a compiled .bin file"
  printLine "--compile FILE | Compiles a .ghp file into a .bin file"
  printLine "--library FILE | Converts a python file into a .lib objG library"

/-- Runs a program, packed or not, in a scope. -/
def runFile (rules : Rules) (e : ScopeId) (path : String) : Run Unit := do
  if ".bin".toList.isSuffixOf path.toList then
    let tree ← unpackStatements (← (← get).files.read path)
    let _ ← evalItems (eval rules evalDepth) (← hostRoom.descend 1) e tree
  else
    let _ ← runText (eval rules evalDepth) (← hostRoom.descend 1) e (← readSource path)

/-- Writes a packed file. -/
def writePacked (path : String) (content : Codec.Bytes) : Run Unit := do
  printLine "Writing bytes..."
  writeFile path content
  printLine "Finished!"

/-- Packs a program. -/
def compile (args : List String) : Run Unit := do
  printLine "Reading source code..."
  let path ← argument args
  let text ← readSource path
  printLine "Extracting tokens..."
  printLine "Generatring AST..."
  printLine "Converting to bytes..."
  writePacked (outputName path ".bin") (← packProgram (Grammar.Program.ofText grammarDepth text))

/-- Packs a library. -/
def packLibrary (args : List String) : Run Unit := do
  printLine "Reading native code..."
  let path ← argument args
  let text ← readSource path
  printLine "Converting to bytes..."
  writePacked (outputName path ".lib") (Library.pack text)

/-- Obeys the command line, with an embedded program or without one. -/
def obey (rules : Rules) (embedded : Option String) (args : List String) : Run Unit := do
  let e ← makeScope rules hostRoom none
  match args with
  | "--run" :: rest => runFile rules e (← argument rest)
  | "--compile" :: rest => compile rest
  | "--library" :: rest => packLibrary rest
  | _ :: _ => help
  | [] =>
    match embedded with
    | some text =>
      let _ ← runText (eval rules evalDepth) (← hostRoom.descend 1) e text
    | none => help

/-- Obeys the command line by the usual rules. -/
def run (embedded : Option String) (args : List String) : Run Unit := obey .standard embedded args

end Scrawl.Command
