/-
  Scrawl.Stage.Call — what is asked of the windowing toolkit.

  The stage keeps a log of the calls it makes.  Windows and images are numbered in the order in
  which they are made, and a window's canvas has the window's number.
-/

import Scrawl.Value.Display

namespace Scrawl.Stage

/-! ## §1. Calls -/

/-- The corners of a figure, or the ends of a line. -/
structure Corners where
  /-- Across, first. -/
  x1 : Int
  /-- Down, first. -/
  y1 : Int
  /-- Across, second. -/
  x2 : Int
  /-- Down, second. -/
  y2 : Int
  deriving Repr, DecidableEq

/-- One call of the toolkit. -/
inductive Call where
  /-- Makes a window. -/
  | window (n : Nat) (title : String)
  /-- Sets a window's title. -/
  | setTitle (n : Nat) (title : String)
  /-- Keeps a window's size as it is. -/
  | fixSize (n : Nat)
  /-- Makes a window's canvas. -/
  | canvas (n : Nat) (width height : Int)
  /-- Puts the canvas into its window. -/
  | pack (n : Nat)
  /-- Has a handler called on an event. -/
  | bind (n : Nat) (sequence handler : String)
  /-- Has the window redrawn in the next frame. -/
  | schedule (n : Nat)
  /-- Enters the window's main loop. -/
  | mainLoop (n : Nat)
  /-- Clears the canvas. -/
  | clear (n : Nat)
  /-- Draws a filled rectangle. -/
  | rectangle (n : Nat) (corners : Corners) (color : Value)
  /-- Draws a line. -/
  | line (n : Nat) (corners : Corners) (color : Value)
  /-- Draws a filled ellipse. -/
  | oval (n : Nat) (corners : Corners) (color : Value)
  /-- Draws an image. -/
  | image (n : Nat) (x y : Int) (picture : Nat)
  /-- Loads an image. -/
  | loadImage (path : String)

/-! ## §2. Calls as text -/

/-- Whether the corners of a figure can be written. -/
def Corners.areWritable (c : Corners) : Bool :=
  Decimal.isWritable c.x1 && Decimal.isWritable c.y1 && Decimal.isWritable c.x2 &&
    Decimal.isWritable c.y2

/-- Whether a call can be written: no whole number in it has too many digits. -/
def Call.isWritable : Call → Bool
  | .canvas _ width height => Decimal.isWritable width && Decimal.isWritable height
  | .rectangle _ corners color => corners.areWritable && color.isWritable
  | .line _ corners color => corners.areWritable && color.isWritable
  | .oval _ corners color => corners.areWritable && color.isWritable
  | .image _ x y _ => Decimal.isWritable x && Decimal.isWritable y
  | _ => true

/-- Something with a number, such as a window. -/
def numbered (what : String) (n : Nat) : String := what ++ Decimal.natText n

/-- The corners of a figure, written out. -/
def Corners.texts (c : Corners) : List String :=
  [Decimal.intText c.x1, Decimal.intText c.y1, Decimal.intText c.x2, Decimal.intText c.y2]

/-- A function applied to written arguments. -/
def applied (fn : String) (args : List String) : String :=
  fn ++ "(" ++ String.intercalate ", " args ++ ")"

/-- A call, written out. -/
def Call.text (scopeText : String) : Call → String
  | .window n title => applied (numbered "Tk" n) [Text.quoted title]
  | .setTitle n title => applied (numbered "root" n ++ ".wm_title") [Text.quoted title]
  | .fixSize n => applied (numbered "root" n ++ ".resizable") ["False", "False"]
  | .canvas n width height =>
    applied (numbered "Canvas" n)
      [numbered "root" n, "width=" ++ Decimal.intText width, "height=" ++ Decimal.intText height]
  | .pack n => applied (numbered "canvas" n ++ ".pack") []
  | .bind n sequence handler =>
    applied (numbered "root" n ++ ".bind") [Text.quoted sequence, handler]
  | .schedule n => applied (numbered "root" n ++ ".after") ["1", "_run"]
  | .mainLoop n => applied (numbered "root" n ++ ".mainloop") []
  | .clear n => applied (numbered "canvas" n ++ ".delete") [Text.quoted "all"]
  | .rectangle n corners color =>
    let color := color.shown scopeText
    applied (numbered "canvas" n ++ ".create_rectangle")
      (corners.texts ++ ["outline=" ++ color, "fill=" ++ color])
  | .line n corners color =>
    applied (numbered "canvas" n ++ ".create_line")
      (corners.texts ++ ["fill=" ++ color.shown scopeText])
  | .oval n corners color =>
    let color := color.shown scopeText
    applied (numbered "canvas" n ++ ".create_oval")
      (corners.texts ++ ["outline=" ++ color, "fill=" ++ color])
  | .image n x y picture =>
    applied (numbered "canvas" n ++ ".create_image")
      [Decimal.intText x, Decimal.intText y, "image=" ++ numbered "image" picture]
  | .loadImage path => applied "PhotoImage" ["file=" ++ Text.quoted path]

end Scrawl.Stage
