/-
  Scrawl.Files — files by path.

  Paths are relative to a working folder; only the files below it are known.  A folder exists when
  a file lies in it.  Going up from the working folder leaves the known part, where there are
  folders but no files.
-/

import Scrawl.Fault
import Scrawl.Pairs

namespace Scrawl

open Scrawl.Codec (Bytes)

/-! ## §1. File trees -/

/-- Where a file or folder lies: the names that lead to it from the working folder. -/
abbrev Location := List String

/-- All files. -/
structure FileTree where
  /-- The files with their contents. -/
  files : List (Location × Bytes)
  deriving Inhabited

namespace FileTree

/-- No files. -/
def empty : FileTree := ⟨[]⟩

/-- The content of the file at a place. -/
def get? (t : FileTree) (p : Location) : Option Bytes := t.files.lookup p

/-- The tree with the content of a file set. -/
def put (t : FileTree) (p : Location) (content : Bytes) : FileTree :=
  ⟨Pairs.put p content t.files⟩

/-- Whether there is a folder at a place. -/
def isFolder (t : FileTree) (p : Location) : Bool :=
  p.isEmpty || t.files.any fun f => p.isPrefixOf f.1 && p.length < f.1.length

/-! ## §2. Paths -/

/-- The parts of a path between its slashes. -/
def parts : List Char → List (List Char)
  | [] => [[]]
  | c :: rest =>
    match parts rest with
    | [] => [[]]
    | part :: more => if c == '/' then [] :: part :: more else (c :: part) :: more

/-- What a path leads to. -/
inductive Target where
  /-- A file that exists. -/
  | file (p : Location)
  /-- A folder. -/
  | folder
  /-- Nothing yet, but a file could be made there. -/
  | free (p : Location)
  deriving Repr, DecidableEq

/-- The most bytes a name can have. -/
def maxName : Nat := 255

/-- The least number of bytes that no path has. -/
def pathLimit : Nat := 4096

/-- Follows the parts of a path from a folder, or from outside the known part. -/
def follow (t : FileTree) : Option Location → List String → Except FileProblem Target
  | _, [] => .ok .folder
  | at?, part :: rest =>
    if part == "" || part == "." then t.follow at? rest
    else if part == ".." then
      t.follow (at?.bind fun here => if here.isEmpty then none else some here.dropLast) rest
    else if maxName < part.utf8ByteSize then .error .nameTooLong
    else match at? with
      | none => .error .missing
      | some here =>
        let there := here ++ [part]
        if (t.get? there).isSome then
          if rest.isEmpty then .ok (.file there) else .error .notFolder
        else if t.isFolder there then t.follow (some there) rest
        else if rest.isEmpty then .ok (.free there) else .error .missing

/-- What a path leads to. -/
def resolve (t : FileTree) (path : String) : Except Fault Target :=
  if path.toList.contains (Char.ofNat 0) then .error .zeroInPath
  else if path.isEmpty then .error (.file .missing path)
  else if pathLimit ≤ path.utf8ByteSize then .error (.file .nameTooLong path)
  else
    let start := if path.toList.head? == some '/' then none else some []
    match t.follow start ((parts path.toList).map String.ofList) with
    | .ok target => .ok target
    | .error problem => .error (.file problem path)

/-! ## §3. Reading and writing -/

/-- The content of the file a path leads to. -/
def read (t : FileTree) (path : String) : Except Fault Bytes := do
  match ← t.resolve path with
  | .file p => .ok ((t.get? p).getD [])
  | .folder => .error (.file .folder path)
  | .free _ => .error (.file .missing path)

/-- The tree with a new content of the file a path leads to, which is made if need be. -/
def write (t : FileTree) (path : String) (content : Bytes) : Except Fault FileTree := do
  match ← t.resolve path with
  | .file p => .ok (t.put p content)
  | .folder => .error (.file .folder path)
  | .free p => .ok (t.put p content)

end FileTree

end Scrawl
