/-
  Scrawl.Proofs.Command.Overwriting — packed files that are named alike.

  A packed file has the name of its source up to the first point of the whole path.  So sources with
  different paths may be packed into one file, and then the last one stays.  Take any programs that are
  packed one after the other, each from the files that the one before has left (`Compiled`).  No source
  changes, and at the end each packed file holds the statements of the last source that was packed to its
  place (`Compiled.last_stays`).  Sources whose paths have a point in their ending only keep packed files
  of their own.
-/

import Scrawl.Proofs.Command.Intact
import Scrawl.Proofs.Files.Places

namespace Scrawl

open Grammar (Program)
open Command (outputName)

/-! ## §1. One command -/

/-- The text of the source file that a path leads to. -/
def FileTree.SourceText (files : FileTree) (path text : String) : Prop :=
  ∃ bytes, files.read path = .ok bytes ∧ Codec.sourceText bytes = .ok text

theorem FileTree.SourceText.unique {files : FileTree} {path text text' : String}
    (h : files.SourceText path text) (h' : files.SourceText path text') : text = text' :=
  World.Source.unique (w := World.empty "" files []) h h'

/-- The packed file of a source, unpacked, holds the statements of a text. -/
def FileTree.Unpacks (files : FileTree) (path text : String) : Prop :=
  (files.read (outputName path ".bin") >>= Command.unpackStatements)
    = .ok (.list ((Program.ofText grammarDepth text).nodes.map Value.listed))

/-- A path to a source. -/
def SourcePath (path : String) : Prop := ".ghp".toList <:+ path.toList

/-- A path to a source with no other point than that of the ending. -/
def PlainPath (path : String) : Prop := ∃ stem, path.toList = stem ++ ".ghp".toList ∧ '.' ∉ stem

theorem toList_outputName (path ending : String) :
    (outputName path ending).toList = path.toList.takeWhile (· != '.') ++ ending.toList := by
  unfold outputName
  rw [String.toList_append, String.toList_ofList]

theorem outputName_inj {path other ending : String} :
    outputName path ending = outputName other ending ↔
      path.toList.takeWhile (· != '.') = other.toList.takeWhile (· != '.') := by
  rw [← String.toList_inj, toList_outputName, toList_outputName, List.append_cancel_right_eq]

/-- A program that has been packed was read from its source, and its packed form was written. -/
theorem written_of_run {embedded : Option String} {path scopeText : String} {rest : List String}
    {files : FileTree} {cues : List Stage.Cue} {w' : World}
    (h : Command.run embedded ("--compile" :: path :: rest) (World.empty scopeText files cues)
      = .ok () w') :
    ∃ text content, files.SourceText path text ∧
      Command.packProgram (Program.ofText grammarDepth text) = .ok content ∧
      files.write (outputName path ".bin") content = .ok w'.files := by
  obtain ⟨forest, hpacking⟩ := Command.obey_packing scopeText files cues .standard
  unfold Command.run at h
  rw [(hpacking embedded (path :: rest)).1] at h
  obtain ⟨path', rest', text, content, hargs, hsource, hcontent, hwrote⟩ := wrote_of_compile h
  obtain ⟨rfl, rfl⟩ := List.cons.inj hargs
  exact ⟨text, content, hsource, hcontent, hwrote.written⟩

/-! ## §2. Places of sources and of packed files -/

theorem ghp_isEnding : FileTree.IsEnding ".ghp" := ⟨by decide, by decide⟩

theorem bin_isEnding : FileTree.IsEnding ".bin" := ⟨by decide, by decide⟩

/-- No packed file takes the place of a source. -/
theorem source_not_output {path : String} (hpath : SourcePath path) (other : String) {p : Location}
    (hplace : FileTree.place path = some p) :
    FileTree.place path ≠ FileTree.place (outputName other ".bin") := by
  intro heq
  obtain ⟨stem, hstem⟩ := hpath
  obtain ⟨folder, last, hsource⟩ := FileTree.place_append stem
  obtain ⟨folder', last', houtput⟩ :=
    FileTree.place_append (other.toList.takeWhile (· != '.'))
  rw [hsource path ".ghp" hstem.symm ghp_isEnding] at heq hplace
  rw [houtput _ ".bin" (toList_outputName other ".bin") bin_isEnding, hplace] at heq
  obtain ⟨here, -, rfl⟩ := Option.map_eq_some_iff.1 hplace
  obtain ⟨here', -, heq⟩ := Option.map_eq_some_iff.1 heq.symm
  -- the names at the end have different endings
  have hnames := congrArg String.toList (List.singleton_inj.1 (List.append_inj_right' heq rfl))
  rw [String.toList_append, String.toList_append] at hnames
  exact absurd (List.append_inj_right' hnames (by decide)) (by decide)

theorem PlainPath.source {path : String} (h : PlainPath path) : SourcePath path := by
  obtain ⟨stem, hstem, -⟩ := h
  exact ⟨stem, hstem.symm⟩

/-- A plain path without its ending is what names the packed file. -/
theorem PlainPath.stem_eq {path : String} (h : PlainPath path) :
    path.toList = path.toList.takeWhile (· != '.') ++ ".ghp".toList := by
  obtain ⟨stem, hstem, hpoint⟩ := h
  have htake : path.toList.takeWhile (· != '.') = stem := by
    rw [hstem, List.takeWhile_append_of_pos]
    · exact List.append_nil stem
    · intro c hc
      refine bne_iff_ne.2 ?_
      rintro rfl
      exact hpoint hc
  rw [htake]
  exact hstem

/-- Plain paths whose packed files have one place lead to one source. -/
theorem PlainPath.place_eq {path other : String} (hpath : PlainPath path) (hother : PlainPath other)
    (h : FileTree.place (outputName path ".bin") = FileTree.place (outputName other ".bin")) :
    FileTree.place path = FileTree.place other := by
  obtain ⟨folder, last, hplace⟩ := FileTree.place_append (path.toList.takeWhile (· != '.'))
  obtain ⟨folder', last', hplace'⟩ := FileTree.place_append (other.toList.takeWhile (· != '.'))
  rw [hplace _ ".bin" (toList_outputName path ".bin") bin_isEnding,
    hplace' _ ".bin" (toList_outputName other ".bin") bin_isEnding] at h
  rw [hplace path ".ghp" hpath.stem_eq ghp_isEnding, hplace' other ".ghp" hother.stem_eq ghp_isEnding]
  cases folder with
  | none =>
    cases folder' with
    | none => rfl
    | some here' => cases h
  | some here =>
    cases folder' with
    | none => cases h
    | some here' =>
      obtain ⟨rfl, hnames⟩ := List.append_inj' (Option.some.inj h) rfl
      have hlast := congrArg String.toList (List.singleton_inj.1 hnames)
      rw [String.toList_append, String.toList_append] at hlast
      rw [String.toList_inj.1 (List.append_inj_left' hlast rfl)]

/-! ## §3. One command after the other -/

/-- Programs are packed one after the other, each from the files that the one before has left. -/
inductive Compiled (files : FileTree) : List String → FileTree → Prop
  /-- None has been packed. -/
  | nil : Compiled files [] files
  /-- One more is packed. -/
  | snoc {paths : List String} {files' : FileTree} {path scopeText : String}
      {embedded : Option String} {rest : List String} {cues : List Stage.Cue} {w' : World}
      (h : Compiled files paths files')
      (hrun : Command.run embedded ("--compile" :: path :: rest) (World.empty scopeText files' cues)
        = .ok () w') :
      Compiled files (paths ++ [path]) w'.files

/-- The last of some sources whose packed file has the same place as that of a given one. -/
def lastAlike (paths : List String) (path : String) : Option String :=
  (paths.filter fun other =>
    FileTree.place (outputName other ".bin") == FileTree.place (outputName path ".bin")).getLast?

theorem lastAlike_snoc (paths : List String) (path added : String) :
    lastAlike (paths ++ [added]) path
      = if FileTree.place (outputName added ".bin") = FileTree.place (outputName path ".bin")
        then some added else lastAlike paths path := by
  unfold lastAlike
  rw [List.filter_append]
  split
  · next hsame => simp [hsame]
  · next hother => simp [hother]

theorem mem_of_lastAlike {paths : List String} {path last : String}
    (h : lastAlike paths path = some last) : last ∈ paths ∧
      FileTree.place (outputName last ".bin") = FileTree.place (outputName path ".bin") := by
  obtain ⟨hmem, hsame⟩ := List.mem_filter.1 (List.mem_of_getLast? h)
  exact ⟨hmem, beq_iff_eq.1 hsame⟩

/-- A packed file that is written takes no source away. -/
theorem FileTree.SourceText.write {files files' : FileTree} {path text other : String}
    {content : Codec.Bytes} (h : files.SourceText path text) (hpath : SourcePath path)
    (hwrite : files.write (outputName other ".bin") content = .ok files') :
    files'.SourceText path text := by
  obtain ⟨bytes, hread, hdecoded⟩ := h
  obtain ⟨p, hplace, -, -⟩ := FileTree.read_place hread
  have hafter := FileTree.read_after_write hwrite hread
  rw [if_neg (source_not_output hpath other hplace)] at hafter
  exact ⟨bytes, hafter, hdecoded⟩

/-- A packed file that is written takes the place of those with the same place. -/
theorem FileTree.Unpacks.write {files files' : FileTree} {path text other text' : String}
    {content : Codec.Bytes} (h : files.Unpacks path text)
    (hcontent : Command.packProgram (Program.ofText grammarDepth text') = .ok content)
    (hwrite : files.write (outputName other ".bin") content = .ok files') :
    files'.Unpacks path
      (if FileTree.place (outputName path ".bin") = FileTree.place (outputName other ".bin")
        then text' else text) := by
  obtain ⟨bytes, hread, hbytes⟩ := Grammar.bind_eq_ok.1 h
  have hafter := FileTree.read_after_write hwrite hread
  obtain ⟨-, hnesting, rfl⟩ := packProgram_eq_ok.1 hcontent
  split
  · next hsame =>
    rw [if_pos hsame] at hafter
    exact Grammar.bind_eq_ok.2 ⟨_, hafter, unpackStatements_packStatements text' hnesting⟩
  · next hother =>
    rw [if_neg hother] at hafter
    exact Grammar.bind_eq_ok.2 ⟨bytes, hafter, hbytes⟩

namespace Compiled

variable {files files' : FileTree} {paths : List String}

/-- No source changes. -/
theorem source_stays (h : Compiled files paths files') {path text : String} (hpath : SourcePath path)
    (hsource : files.SourceText path text) : files'.SourceText path text := by
  induction h with
  | nil => exact hsource
  | snoc _ hrun ih =>
    obtain ⟨_, _, -, -, hwrite⟩ := written_of_run hrun
    exact ih.write hpath hwrite

/-- Whatever has been packed has a source. -/
theorem has_source (h : Compiled files paths files') (hsources : ∀ path ∈ paths, SourcePath path) :
    ∀ path ∈ paths, ∃ text, files'.SourceText path text := by
  induction h with
  | nil => exact fun path hpath => absurd hpath List.not_mem_nil
  | snoc _ hrun ih =>
    intro path hpath
    obtain ⟨text, _, hsource, -, hwrite⟩ := written_of_run hrun
    rcases List.mem_append.1 hpath with hearlier | hlast
    · obtain ⟨text', hsource'⟩ := ih (fun p hp => hsources p (List.mem_append_left _ hp)) path hearlier
      exact ⟨text', hsource'.write (hsources path hpath) hwrite⟩
    · obtain rfl := List.mem_singleton.1 hlast
      exact ⟨text, hsource.write (hsources path hpath) hwrite⟩

/-- **The last one stays.** -/
theorem last_stays (h : Compiled files paths files') (hsources : ∀ path ∈ paths, SourcePath path) :
    ∀ path ∈ paths, ∃ last text, lastAlike paths path = some last ∧
      files'.SourceText last text ∧ files'.Unpacks path text := by
  induction h with
  | nil => exact fun path hpath => absurd hpath List.not_mem_nil
  | @snoc paths mid added _ _ _ _ w' _ hrun ih =>
    intro path hpath
    obtain ⟨text, content, hsource, hcontent, hwrite⟩ := written_of_run hrun
    have hadded : w'.files.SourceText added text :=
      hsource.write (hsources added (List.mem_append_right _ List.mem_cons_self)) hwrite
    rw [lastAlike_snoc]
    rcases List.mem_append.1 hpath with hearlier | hlast
    · obtain ⟨last, text', halike, hsource', hunpacks⟩ :=
        ih (fun p hp => hsources p (List.mem_append_left _ hp)) path hearlier
      have hafter := hunpacks.write hcontent hwrite
      by_cases hsame : FileTree.place (outputName path ".bin")
          = FileTree.place (outputName added ".bin")
      · rw [if_pos hsame] at hafter
        exact ⟨added, text, if_pos hsame.symm, hadded, hafter⟩
      · rw [if_neg hsame] at hafter
        have hlast := hsources last (List.mem_append_left _ (mem_of_lastAlike halike).1)
        exact ⟨last, text', (if_neg (Ne.symm hsame)).trans halike, hsource'.write hlast hwrite, hafter⟩
    · obtain rfl := List.mem_singleton.1 hlast
      obtain ⟨-, hnesting, rfl⟩ := packProgram_eq_ok.1 hcontent
      have hunpacked := unpackStatements_packStatements text hnesting
      exact ⟨path, text, if_pos rfl, hadded,
        Grammar.bind_eq_ok.2 ⟨_, FileTree.read_write hwrite, hunpacked⟩⟩

/-- One more program is packed whenever its source can be packed and the packed file can be written. -/
theorem add {mid : FileTree} {path text : String} {content : Codec.Bytes}
    (h : Compiled files paths mid) (hsource : mid.SourceText path text)
    (hcontent : Command.packProgram (Program.ofText grammarDepth text) = .ok content)
    (hwrite : mid.write (outputName path ".bin") content = .ok files') :
    Compiled files (paths ++ [path]) files' := by
  obtain ⟨forest, hpacking⟩ := Command.obey_packing "" mid [] .standard
  obtain ⟨w', hcompile⟩ :=
    compile_of_write (w := { World.empty "" mid [] with forest }) hsource hcontent hwrite []
  have hrun : Command.run none ["--compile", path] (World.empty "" mid []) = .ok () w' :=
    (hpacking none [path]).1.trans hcompile
  obtain ⟨text', content', hsource', hcontent', hwrite'⟩ := written_of_run hrun
  obtain rfl := hsource.unique hsource'
  obtain rfl := Except.ok.inj (hcontent.symm.trans hcontent')
  obtain rfl := Except.ok.inj (hwrite.symm.trans hwrite')
  exact h.snoc hrun

end Compiled

/-- **Packed files that are named alike overwrite each other.**  Pack any sources one after the other,
    all with success.  No source changes.  The packed file of each source holds, at the end, the
    statements of the last one whose packed file has the same place, be that itself or not.  Two packed
    files have one name exactly if the paths of their sources are the same up to the first point, also
    if that point is further inside a name, or in the name of a folder.  But if each path has no
    other point than that of its ending and all are different, so are the names of the packed files, and
    each holds the statements of its own source. -/
theorem outputs_overwritten {files files' : FileTree} {paths : List String}
    (h : Compiled files paths files') (hsources : ∀ path ∈ paths, SourcePath path) :
    (∀ path text, SourcePath path → files.SourceText path text → files'.SourceText path text) ∧
    (∀ path ∈ paths, ∃ last text, lastAlike paths path = some last ∧
      files'.SourceText last text ∧ files'.Unpacks path text) ∧
    (∀ path other, outputName path ".bin" = outputName other ".bin" ↔
      path.toList.takeWhile (· != '.') = other.toList.takeWhile (· != '.')) ∧
    ((∀ path ∈ paths, PlainPath path) → paths.Nodup →
      (paths.map (outputName · ".bin")).Nodup ∧
      ∀ path ∈ paths, ∃ text, files'.SourceText path text ∧ files'.Unpacks path text) := by
  refine ⟨fun path text => h.source_stays, h.last_stays hsources, fun path other => outputName_inj,
    fun hplain hnodup => ⟨?_, fun path hpath => ?_⟩⟩
  · refine hnodup.map_on fun path hpath other hother hsame => ?_
    refine String.toList_inj.1 ?_
    rw [(hplain path hpath).stem_eq, (hplain other hother).stem_eq, outputName_inj.1 hsame]
  · -- the last source with the same place is the same file
    obtain ⟨last, text, halike, ⟨bytes, hread, hdecoded⟩, hunpacks⟩ :=
      h.last_stays hsources path hpath
    obtain ⟨text', bytes', hread', hdecoded'⟩ := h.has_source hsources path hpath
    obtain ⟨hlast, hsame⟩ := mem_of_lastAlike halike
    have hplace := (hplain last hlast).place_eq (hplain path hpath) hsame
    obtain rfl := FileTree.read_eq_of_place hread hread' hplace
    exact ⟨text, ⟨bytes, hread', hdecoded⟩, hunpacks⟩

/-- A program with one assignment. -/
def firstSource : String := "x = 'a' ;"

/-- The same with another string. -/
def secondSource : String := "x = 'b' ;"

theorem firstSource_read :
    Program.ofText grammarDepth firstSource
      = ⟨[.assignment (.text "x") (some (.string (.text "a")))], none⟩ := by
  cbv

theorem secondSource_read :
    Program.ofText grammarDepth secondSource
      = ⟨[.assignment (.text "x") (some (.string (.text "b")))], none⟩ := by
  cbv

/-- The first program in a file, and the second one in two, of which one has the name of the first up to
    the first point. -/
def threeSources : FileTree :=
  ⟨[(["a.ghp"], Codec.Utf8.encode firstSource), (["b.ghp"], Codec.Utf8.encode secondSource),
    (["a.b.ghp"], Codec.Utf8.encode secondSource)]⟩

theorem threeSources_first : threeSources.SourceText "a.ghp" firstSource :=
  ⟨Codec.Utf8.encode firstSource, by decide +kernel, by decide +kernel⟩

theorem first_packed : Command.packProgram (Program.ofText grammarDepth firstSource)
    = .ok (Command.packStatements (Program.ofText grammarDepth firstSource).nodes) := by
  refine packProgram_eq_ok.2 ⟨?_, ?_, rfl⟩
  · rw [firstSource_read]
  · rw [firstSource_read]; decide +kernel

theorem second_packed : Command.packProgram (Program.ofText grammarDepth secondSource)
    = .ok (Command.packStatements (Program.ofText grammarDepth secondSource).nodes) := by
  refine packProgram_eq_ok.2 ⟨?_, ?_, rfl⟩
  · rw [secondSource_read]
  · rw [secondSource_read]; decide +kernel

/-- Sources with plain paths are packed into files of their own. -/
theorem plain_outputs_kept :
    (∀ path ∈ ["a.ghp", "b.ghp"], SourcePath path ∧ PlainPath path) ∧
      ∃ files', Compiled threeSources ["a.ghp", "b.ghp"] files' ∧
        ∀ path ∈ ["a.ghp", "b.ghp"], ∃ text, files'.SourceText path text ∧ files'.Unpacks path text := by
  have hplain : ∀ path ∈ ["a.ghp", "b.ghp"], PlainPath path := by
    intro path hpath
    rcases List.mem_cons.1 hpath with rfl | hpath
    · exact ⟨"a".toList, by decide, by decide⟩
    · obtain rfl := List.mem_singleton.1 hpath
      exact ⟨"b".toList, by decide, by decide⟩
  have hsources : ∀ path ∈ ["a.ghp", "b.ghp"], SourcePath path :=
    fun path hpath => (hplain path hpath).source
  have hsecond : threeSources.SourceText "b.ghp" secondSource :=
    ⟨Codec.Utf8.encode secondSource, by decide +kernel, by decide +kernel⟩
  have hone := Compiled.nil.add threeSources_first first_packed rfl
  have hboth := hone.add (hone.source_stays (hsources _ (by simp)) hsecond) second_packed rfl
  refine ⟨fun path hpath => ⟨hsources path hpath, hplain path hpath⟩, _, hboth, ?_⟩
  exact ((outputs_overwritten hboth hsources).2.2.2 hplain (by decide)).2

/-- A source with a point more in its name is packed over another one's packed file. -/
theorem first_output_lost :
    (∀ path ∈ ["a.ghp", "a.b.ghp"], SourcePath path) ∧
      outputName "a.ghp" ".bin" = outputName "a.b.ghp" ".bin" ∧
      ∃ files', Compiled threeSources ["a.ghp", "a.b.ghp"] files' ∧
        files'.SourceText "a.ghp" firstSource ∧ ¬ files'.Unpacks "a.ghp" firstSource := by
  have hsources : ∀ path ∈ ["a.ghp", "a.b.ghp"], SourcePath path := by
    intro path hpath
    rcases List.mem_cons.1 hpath with rfl | hpath
    · exact ⟨"a".toList, by decide⟩
    · obtain rfl := List.mem_singleton.1 hpath
      exact ⟨"a.b".toList, by decide⟩
  have hsecond : threeSources.SourceText "a.b.ghp" secondSource :=
    ⟨Codec.Utf8.encode secondSource, by decide +kernel, by decide +kernel⟩
  have hone := Compiled.nil.add threeSources_first first_packed rfl
  have hboth := hone.add (hone.source_stays (hsources _ (by simp)) hsecond) second_packed rfl
  refine ⟨hsources, outputName_inj.2 (by decide), _, hboth,
    hboth.source_stays (hsources _ (by simp)) threeSources_first, ?_⟩
  -- the packed file holds the second program
  obtain ⟨last, text, halike, hsource, hunpacks⟩ := hboth.last_stays hsources "a.ghp" (by simp)
  have hlast : lastAlike ["a.ghp", "a.b.ghp"] "a.ghp" = some "a.b.ghp" := by decide +kernel
  obtain rfl := Option.some.inj (hlast.symm.trans halike)
  obtain rfl := hsource.unique (hboth.source_stays (hsources _ (by simp)) hsecond)
  intro hfirst
  have hsame := Except.ok.inj (hfirst.symm.trans hunpacks)
  rw [firstSource_read, secondSource_read] at hsame
  exact absurd (congrArg Json.write hsame) (by decide +kernel)

end Scrawl
