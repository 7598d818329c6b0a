/-
  Scrawl.Value.Native — the functions the language brings along.

  Ten of them are part of the language and eleven belong to the drawing library.  A drawing
  function also remembers which loading of its library it came from.
-/

namespace Scrawl

/-! ## §1. The functions -/

/-- The functions of the drawing library. -/
inductive Drawing where
  /-- Opens a window. -/
  | create
  /-- Shows a window until its main loop ends. -/
  | start
  /-- Chooses the colour a window is cleared with. -/
  | background
  /-- Draws a filled rectangle. -/
  | rect
  /-- Draws a line. -/
  | line
  /-- Draws a filled ellipse. -/
  | ellipse
  /-- Loads an image. -/
  | loadSprite
  /-- Draws an image. -/
  | sprite
  /-- Changes a window's title. -/
  | title
  /-- Names the function that is told of keys. -/
  | onKey
  /-- Names the function that is told of clicks. -/
  | onClick
  deriving Repr, DecidableEq

/-- The functions a program can call without defining them. -/
inductive Native where
  /-- Prints the payload of a value. -/
  | print
  /-- Prints a value as it stands. -/
  | printRaw
  /-- Turns a payload into a bare text. -/
  | str
  /-- Joins two payloads as texts. -/
  | concat
  /-- Runs a source file. -/
  | runFile
  /-- Loads a packed library from a file. -/
  | library
  /-- Loads a packed library from a text. -/
  | libraryRaw
  /-- Calls one of two functions. -/
  | choose
  /-- Calls a function as long as a condition holds. -/
  | loop
  /-- Compares two payloads. -/
  | equals
  /-- A function of the drawing library, from its `load`-th loading. -/
  | drawing (load : Nat) (op : Drawing)
  deriving Repr, DecidableEq

/-! ## §2. Names and parameters -/

/-- All functions of the drawing library, in the order in which they become known. -/
def Drawing.all : List Drawing :=
  [.create, .start, .background, .rect, .line, .ellipse, .loadSprite, .sprite, .title, .onKey,
    .onClick]

/-- The name of a drawing function. -/
def Drawing.name : Drawing → String
  | .create => "g2d_create"
  | .start => "g2d_start"
  | .background => "g2d_background"
  | .rect => "g2d_rect"
  | .line => "g2d_line"
  | .ellipse => "g2d_ellipse"
  | .loadSprite => "g2d_loadspr"
  | .sprite => "g2d_sprite"
  | .title => "g2d_title"
  | .onKey => "g2d_onkey"
  | .onClick => "g2d_onclick"

/-- The name by which a function is shown. -/
def Native.name : Native → String
  | .print => "builtin_print"
  | .printRaw => "builtin_print_raw"
  | .str => "builtin_str"
  | .concat => "builtin_concat"
  | .runFile => "builtin_import"
  | .library => "builtin_library"
  | .libraryRaw => "builtin_library_raw"
  | .choose => "builtin_if"
  | .loop => "builtin_while"
  | .equals => "builtin_equals"
  | .drawing _ op => op.name

/-- The names of a drawing function's parameters. -/
def Drawing.params : Drawing → List String
  | .create => ["callback", "w", "h", "title"]
  | .start => ["_id"]
  | .background => ["_id", "color"]
  | .rect => ["_id", "x", "y", "w", "h", "color"]
  | .line => ["_id", "x1", "y1", "x2", "y2", "color"]
  | .ellipse => ["_id", "x", "y", "w", "h", "color"]
  | .loadSprite => ["path"]
  | .sprite => ["_id", "x", "y", "spr"]
  | .title => ["_id", "title"]
  | .onKey => ["_id", "callback"]
  | .onClick => ["_id", "callback"]

/-- The names of a function's parameters, less the scope it is called in. -/
def Native.params : Native → List String
  | .print => ["value"]
  | .printRaw => ["value"]
  | .str => ["value"]
  | .concat => ["a", "b"]
  | .runFile => ["value"]
  | .library => ["value"]
  | .libraryRaw => ["value"]
  | .choose => ["condition", "when_true", "when_false"]
  | .loop => ["condition", "statement"]
  | .equals => ["value1", "value2"]
  | .drawing _ op => op.params

/-- The language's own functions. -/
def Native.builtins : List Native :=
  [.print, .printRaw, .str, .concat, .runFile, .library, .libraryRaw, .choose, .loop, .equals]

end Scrawl
