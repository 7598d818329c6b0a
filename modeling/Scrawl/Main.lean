/-
  Scrawl.Main — the program.

  The files below the working folder are read, the command line is obeyed on them, and then what
  was printed and what was written is made real.  Windows are not shown, and libraries other than
  the drawing library do nothing.
-/

import Scrawl.Command

namespace Scrawl.Main

/-! ## §1. The working folder -/

/-- The files at and below an entry of a folder, which lies in the folder `here`. -/
partial def gather (here : Location) (entry : IO.FS.DirEntry) :
    IO (List (Location × Codec.Bytes)) := do
  let there := here ++ [entry.fileName]
  if ← entry.path.isDir then
    let inside ← (← entry.path.readDir).toList.mapM (gather there)
    return inside.flatten
  else
    let content ← IO.FS.readBinFile entry.path
    return [(there, content.toList)]

/-- The files below the working folder. -/
def workingFiles : IO FileTree := do
  let found ← (← (← IO.currentDir).readDir).toList.mapM (gather [])
  return ⟨found.flatten⟩

/-- Writes the files that are not as they were before. -/
def writeChanges (before after : FileTree) : IO Unit :=
  after.files.forM fun (place, content) =>
    if before.get? place == some content then pure ()
    else IO.FS.writeBinFile (String.intercalate "/" place) ⟨content.toArray⟩

/-! ## §2. The command line -/

/-- How a scope is written. -/
def scopeText : String := "<__main__.Env object>"

/-- Obeys the command line, and gives the exit code. -/
def obey (args : List String) : IO UInt32 := do
  let files ← workingFiles
  let world := World.empty scopeText files []
  let finish (w : World) : IO Unit := do
    IO.print w.printed
    writeChanges files w.files
  match (Command.run none args).run world with
  | .ok _ w =>
    finish w
    return 0
  | .error fault w =>
    finish w
    IO.eprintln fault.message
    return 1

end Scrawl.Main

/-- The entry point. -/
def main (args : List String) : IO UInt32 := Scrawl.Main.obey args
