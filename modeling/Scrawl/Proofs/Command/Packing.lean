/-
  Scrawl.Proofs.Command.Packing — packed files are undone by what loads them.

  A program is packed into the base 85 form of the UTF-8 form of the JSON text of its statements, a
  library into the base 85 form of the UTF-8 form of its text.  All three are undone by their readers,
  for all trees, texts and lengths, and a file that was written is the file that is read.  So running
  what was packed from a source runs its statements, with lists for tuples, and loading what was packed
  from a library loads its text (`packing_undone`).
-/

import Scrawl.Command
import Scrawl.Proofs.Eval.Packed
import Scrawl.Proofs.Eval.StandardValues
import Scrawl.Proofs.Files.Writing

namespace Scrawl

open Grammar (Program)

/-! ## §1. Commands, step by step -/

/-- The text of the source file that a path leads to. -/
def World.Source (w : World) (path text : String) : Prop :=
  ∃ bytes, w.files.read path = .ok bytes ∧ Codec.sourceText bytes = .ok text

theorem World.Source.unique {w : World} {path text text' : String} (h : w.Source path text)
    (h' : w.Source path text') : text = text' := by
  obtain ⟨bytes, hread, hdecoded⟩ := h
  obtain ⟨bytes', hread', hdecoded'⟩ := h'
  obtain rfl := Except.ok.inj (hread.symm.trans hread')
  exact Except.ok.inj (hdecoded.symm.trans hdecoded')

/-- Reading a source gives its text and changes nothing. -/
theorem World.Source.readSource_eq {w : World} {path text : String} (h : w.Source path text) :
    readSource path w = .ok text w := by
  obtain ⟨bytes, hread, hdecoded⟩ := h
  unfold readSource
  refine (Run.bind_of_ok rfl _).trans ?_
  rw [hread]
  refine (Run.bind_of_ok rfl _).trans ?_
  rw [hdecoded]
  rfl

/-- Only a source can be read. -/
theorem World.source_of_readSource {w w' : World} {path text : String}
    (h : readSource path w = .ok text w') : w.Source path text ∧ w' = w := by
  obtain ⟨_, _, hget, hrest⟩ := Run.bind_eq_ok h
  cases hget
  obtain ⟨bytes, v, hread, hdecode⟩ := Run.bind_eq_ok hrest
  obtain ⟨hread, rfl⟩ := Run.ofExcept_eq_ok hread
  cases hdecoded : Codec.sourceText bytes with
  | ok text' =>
    rw [hdecoded] at hdecode
    cases hdecode
    exact ⟨⟨bytes, hread, hdecoded⟩, rfl⟩
  | error fault =>
    rw [hdecoded] at hdecode
    cases hdecode

/-- A world in which a line has been printed. -/
def World.printing (w : World) (line : String) : World :=
  { w with printed := w.printed ++ line ++ "\n" }

theorem printLine_eq (line : String) (w : World) : printLine line w = .ok () (w.printing line) := rfl

theorem World.files_printing (w : World) (line : String) : (w.printing line).files = w.files := rfl

/-- What a command that packs leaves behind: a file has been written, and lines have been
    printed. -/
structure World.Wrote (w : World) (path : String) (content : Codec.Bytes) (w' : World) : Prop where
  /-- The file has been written. -/
  written : w.files.write path content = .ok w'.files
  /-- Nothing else has changed but what was printed. -/
  aside : w' = { w with files := w'.files, printed := w'.printed }

/-- The file that was written is the one that is read. -/
theorem World.Wrote.read_bind {w w' : World} {path : String} {content : Codec.Bytes} {α : Type}
    (h : w.Wrote path content w') (unpack : Codec.Bytes → Except Fault α) :
    (w'.files.read path >>= unpack) = unpack content := by
  rw [FileTree.read_write h.written]
  rfl

theorem wrote_of_writePacked {path : String} {content : Codec.Bytes} {w w' : World}
    (h : Command.writePacked path content w = .ok () w') : w.Wrote path content w' := by
  obtain ⟨_, _, hprinted, hrest⟩ := Run.bind_eq_ok h
  cases hprinted
  obtain ⟨_, _, hwritten, hfinished⟩ := Run.bind_eq_ok hrest
  cases hfinished
  obtain ⟨_, _, hget, hwrite⟩ := Run.bind_eq_ok hwritten
  cases hget
  obtain ⟨files, v, hlifted, hset⟩ := Run.bind_eq_ok hwrite
  obtain ⟨hfiles, rfl⟩ := Run.ofExcept_eq_ok hlifted
  cases hset
  exact ⟨hfiles, rfl⟩

/-- Writing a file takes a place where there can be one. -/
theorem writeFile_eq (path : String) (content : Codec.Bytes) (w : World) :
    Command.writeFile path content w
      = (do let files ← liftM (w.files.write path content)
            modify fun w => { w with files } : Run Unit) w := by
  unfold Command.writeFile
  exact Run.bind_of_ok rfl _

theorem writePacked_of_write {path : String} {content : Codec.Bytes} {w : World} {files : FileTree}
    (h : w.files.write path content = .ok files) :
    ∃ w', Command.writePacked path content w = .ok () w' := by
  have hwrite : Command.writeFile path content (w.printing "Writing bytes...")
      = .ok () { w.printing "Writing bytes..." with files } := by
    rw [writeFile_eq, w.files_printing, h]
    rfl
  unfold Command.writePacked
  rw [Run.bind_of_ok (printLine_eq _ w), Run.bind_of_ok hwrite]
  exact ⟨_, printLine_eq _ _⟩

/-! ## §2. What the commands do -/

/-- A program has a packed form exactly if it has no fault and is not nested too deeply. -/
theorem packProgram_eq_ok {program : Program} {content : Codec.Bytes} :
    Command.packProgram program = .ok content ↔ program.fault = none ∧
      (Value.list program.nodes).nesting ≤ Command.dataDepth ∧
      content = Command.packStatements program.nodes := by
  unfold Command.packProgram
  cases program.fault with
  | some f => exact ⟨nofun, fun h => nomatch h.1⟩
  | none =>
    dsimp only
    split
    · next hnesting =>
      exact ⟨fun h => ⟨rfl, hnesting, (Except.ok.inj h).symm⟩, fun h => congrArg _ h.2.2.symm⟩
    · next hnesting => exact ⟨nofun, fun h => absurd h.2.1 hnesting⟩

/-- Packing a program writes the packed form of a source. -/
theorem wrote_of_compile {w w' : World} {args : List String}
    (h : Command.compile args w = .ok () w') :
    ∃ path rest text content, args = path :: rest ∧ w.Source path text ∧
      Command.packProgram (Program.ofText grammarDepth text) = .ok content ∧
      w.Wrote (Command.outputName path ".bin") content w' := by
  obtain ⟨_, _, hprinted, hargument⟩ := Run.bind_eq_ok h
  cases hprinted
  obtain ⟨path, _, hpath, hread⟩ := Run.bind_eq_ok hargument
  cases args with
  | nil => cases hpath
  | cons path rest =>
    cases hpath
    obtain ⟨text, v, htext, hpack⟩ := Run.bind_eq_ok hread
    obtain ⟨hsource, rfl⟩ := World.source_of_readSource htext
    obtain ⟨content, v, hlifted, hwrite⟩ := Run.bind_eq_ok (k := fun content =>
      Command.writePacked (Command.outputName path ".bin") content) hpack
    obtain ⟨hcontent, rfl⟩ := Run.ofExcept_eq_ok hlifted
    obtain ⟨hwritten, haside⟩ := wrote_of_writePacked hwrite
    exact ⟨path, rest, text, content, rfl, hsource, hcontent, hwritten, haside⟩

/-- It succeeds wherever there is one that can be written. -/
theorem compile_of_write {w : World} {path text : String} {content : Codec.Bytes}
    {files : FileTree} (hsource : w.Source path text)
    (hcontent : Command.packProgram (Program.ofText grammarDepth text) = .ok content)
    (hwrite : w.files.write (Command.outputName path ".bin") content = .ok files)
    (rest : List String) : ∃ w', Command.compile (path :: rest) w = .ok () w' := by
  have hread : readSource path (w.printing "Reading source code...")
      = .ok text (w.printing "Reading source code...") := World.Source.readSource_eq hsource
  unfold Command.compile
  rw [Run.bind_of_ok (printLine_eq _ w)]
  rw [Run.bind_of_ok (show Command.argument (path :: rest) _ = .ok path _ from rfl)]
  rw [Run.bind_of_ok hread]
  rw [Run.bind_of_ok (printLine_eq _ _), Run.bind_of_ok (printLine_eq _ _),
    Run.bind_of_ok (printLine_eq _ _), hcontent]
  rw [Run.bind_of_ok (show (liftM (.ok content : Except Fault Codec.Bytes) : Run Codec.Bytes) _
    = .ok content _ from rfl)]
  exact writePacked_of_write hwrite

/-- Packing a library writes the packed form of its text. -/
theorem wrote_of_packLibrary {w w' : World} {args : List String}
    (h : Command.packLibrary args w = .ok () w') :
    ∃ path rest text, args = path :: rest ∧ w.Source path text ∧
      w.Wrote (Command.outputName path ".lib") (Library.pack text) w' := by
  obtain ⟨_, _, hprinted, hargument⟩ := Run.bind_eq_ok h
  cases hprinted
  obtain ⟨path, _, hpath, hread⟩ := Run.bind_eq_ok hargument
  cases args with
  | nil => cases hpath
  | cons path rest =>
    cases hpath
    obtain ⟨text, v, htext, hpack⟩ := Run.bind_eq_ok hread
    obtain ⟨hsource, rfl⟩ := World.source_of_readSource htext
    obtain ⟨_, _, hprinted, hwrite⟩ := Run.bind_eq_ok hpack
    cases hprinted
    obtain ⟨hwritten, haside⟩ := wrote_of_writePacked hwrite
    exact ⟨path, rest, text, rfl, hsource, hwritten, haside⟩

/-- It succeeds wherever that can be written. -/
theorem packLibrary_of_write {w : World} {path text : String} {files : FileTree}
    (hsource : w.Source path text)
    (hwrite : w.files.write (Command.outputName path ".lib") (Library.pack text) = .ok files)
    (rest : List String) : ∃ w', Command.packLibrary (path :: rest) w = .ok () w' := by
  have hread : readSource path (w.printing "Reading native code...")
      = .ok text (w.printing "Reading native code...") := World.Source.readSource_eq hsource
  unfold Command.packLibrary
  rw [Run.bind_of_ok (printLine_eq _ w)]
  rw [Run.bind_of_ok (show Command.argument (path :: rest) _ = .ok path _ from rfl)]
  rw [Run.bind_of_ok hread, Run.bind_of_ok (printLine_eq _ _)]
  exact writePacked_of_write hwrite

/-! ## §3. What loads packed files -/

/-- A packed program is told by its name. -/
theorem runFile_packed {path : String} {w : World} {tree : Value}
    (h : (w.files.read (Command.outputName path ".bin") >>= Command.unpackStatements) = .ok tree)
    (rules : Rules) (e : ScopeId) :
    Command.runFile rules e (Command.outputName path ".bin") w
      = (do let _ ← evalItems (eval rules evalDepth) (← hostRoom.descend 1) e tree : Run Unit) w := by
  have hname : ".bin".toList.isSuffixOf (Command.outputName path ".bin").toList = true := by
    unfold Command.outputName
    rw [List.isSuffixOf_iff_suffix, String.toList_append]
    exact List.suffix_append _ _
  cases hread : w.files.read (Command.outputName path ".bin") with
  | error f => rw [hread] at h; cases h
  | ok bytes =>
    rw [hread] at h
    have hunpacked : Command.unpackStatements bytes = .ok tree := h
    unfold Command.runFile
    rw [if_pos hname]
    refine (Run.bind_of_ok rfl _).trans ?_
    rw [hread]
    refine (Run.bind_of_ok rfl _).trans ?_
    rw [hunpacked]
    exact Run.bind_of_ok rfl _

/-- **Packing is undone by loading.**  Take a source that can be read.  If it is a program without
    fault, its statements come back from their packed form, with lists for tuples, whatever its strings
    hold and however long it gets, as long as the reader goes as deep as they are nested.  It is packed
    if it is not nested too deeply and the file can be written; a program that has been packed has no
    fault, and running the packed file runs just these statements.  Any text is packed as a library if
    the file can be written, and is unpacked from the file again. -/
theorem packing_undone {w : World} {path text : String} (hsource : w.Source path text)
    (rest : List String) :
    (∀ depth, (Value.list (Program.ofText grammarDepth text).nodes).nesting ≤ depth →
      (Library.unpack (Command.packStatements (Program.ofText grammarDepth text).nodes)
          >>= Json.read depth)
        = .ok (.list ((Program.ofText grammarDepth text).nodes.map Value.listed))) ∧
    ((Program.ofText grammarDepth text).fault = none →
      (Value.list (Program.ofText grammarDepth text).nodes).nesting ≤ Command.dataDepth →
      (∃ files, w.files.write (Command.outputName path ".bin")
        (Command.packStatements (Program.ofText grammarDepth text).nodes) = .ok files) →
      ∃ w', Command.compile (path :: rest) w = .ok () w') ∧
    (∀ w', Command.compile (path :: rest) w = .ok () w' →
      (Program.ofText grammarDepth text).fault = none ∧
      (w'.files.read (Command.outputName path ".bin") >>= Command.unpackStatements)
        = .ok (.list ((Program.ofText grammarDepth text).nodes.map Value.listed)) ∧
      ∀ rules e, Command.runFile rules e (Command.outputName path ".bin") w'
        = (do
            let _ ← evalItems (eval rules evalDepth) (← hostRoom.descend 1) e
              (.list ((Program.ofText grammarDepth text).nodes.map Value.listed)) : Run Unit) w') ∧
    ((∃ files, w.files.write (Command.outputName path ".lib") (Library.pack text) = .ok files) →
      ∃ w', Command.packLibrary (path :: rest) w = .ok () w') ∧
    ∀ w', Command.packLibrary (path :: rest) w = .ok () w' →
      (w'.files.read (Command.outputName path ".lib") >>= Library.unpack) = .ok text := by
  refine ⟨fun depth => read_packed_statements text, ?_, ?_, ?_, ?_⟩
  · rintro hfault hnesting ⟨files, hwrite⟩
    exact compile_of_write hsource (packProgram_eq_ok.2 ⟨hfault, hnesting, rfl⟩) hwrite rest
  · intro w' h
    obtain ⟨path', rest', text', content, hargs, hsource', hcontent, hwrote⟩ := wrote_of_compile h
    obtain ⟨rfl, rfl⟩ := List.cons.inj hargs
    obtain rfl := hsource.unique hsource'
    obtain ⟨hfault, hnesting, rfl⟩ := packProgram_eq_ok.1 hcontent
    have hread : (w'.files.read (Command.outputName path ".bin") >>= Command.unpackStatements)
        = .ok (.list ((Program.ofText grammarDepth text).nodes.map Value.listed)) := by
      rw [hwrote.read_bind]
      exact unpackStatements_packStatements text hnesting
    exact ⟨hfault, hread, runFile_packed hread⟩
  · rintro ⟨files, hwrite⟩
    exact packLibrary_of_write hsource hwrite rest
  · intro w' h
    obtain ⟨path', rest', text', hargs, hsource', hwrote⟩ := wrote_of_packLibrary h
    obtain ⟨rfl, rfl⟩ := List.cons.inj hargs
    obtain rfl := hsource.unique hsource'
    rw [hwrote.read_bind]
    exact Library.unpack_pack text

/-- A program with a string of a quote, a backslash and characters of two and of four bytes. -/
def accentedSource : String := "x = '\"\\é😀' ;"

theorem accentedSource_read :
    Program.ofText grammarDepth accentedSource
      = ⟨[.assignment (.text "x") (some (.string (.text "\"\\é😀")))], none⟩ := by
  cbv

/-- A world with that program in a file. -/
def accentedWorld : World :=
  World.empty "" ⟨[(["a.ghp"], Codec.Utf8.encode accentedSource)]⟩ []

/-- It is packed, and runs from its packed form. -/
theorem accentedSource_packed :
    accentedWorld.Source "a.ghp" accentedSource ∧
      ∃ w', Command.compile ["a.ghp"] accentedWorld = .ok () w' ∧
        (w'.files.read "a.bin" >>= Command.unpackStatements)
          = .ok (.list ((Program.ofText grammarDepth accentedSource).nodes.map Value.listed)) := by
  have hsource : accentedWorld.Source "a.ghp" accentedSource :=
    ⟨Codec.Utf8.encode accentedSource, by decide +kernel, by decide +kernel⟩
  obtain ⟨-, hpacks, hpacked, -⟩ := packing_undone hsource []
  obtain ⟨w', hw'⟩ := hpacks (by rw [accentedSource_read])
    (by rw [accentedSource_read]; decide +kernel) ⟨_, rfl⟩
  exact ⟨hsource, w', hw', (hpacked w' hw').2.1⟩

end Scrawl
