/-
  Scrawl.Proofs.Eval.Reloading — loading the drawing library once more.

  A loading empties the table that the functions of all later loadings work on (`stage_after_load`).  So
  from one moment to a later one with a loading in between, these functions start over: no argument stands
  for a window or a sprite that was there before, and places are counted from 0 again, while the windows
  themselves are still there (`loading_starts_over`).
-/

import Scrawl.Proofs.Eval.Windows
import Scrawl.Proofs.Stage.Reloading

namespace Scrawl

/-! ## §1. Loading -/

theorem encode_ofList (cs : List Char) :
    Codec.Utf8.encode (String.ofList cs) = Codec.Utf8.encodeChars cs := by
  unfold Codec.Utf8.encode
  rw [String.toList_ofList]

set_option maxRecDepth 100000 in
/-- The shipped file of the drawing library can be unpacked. -/
theorem drawingText_eq_some : ∃ text, Library.drawingText = some text := by
  have hunpacks : (Library.unpack Library.shippedFile).toOption.isSome = true := by
    unfold Library.shippedFile Library.shippedLines
    simp only [List.flatMap_cons, List.flatMap_nil]
    repeat rw [encode_ofList]
    decide +kernel
  exact Option.isSome_iff_exists.1 hunpacks

theorem Library.unpack_of_drawingText {text : String} (h : drawingText = some text) :
    unpack shippedFile = .ok text := by
  unfold drawingText at h
  generalize unpack shippedFile = unpacked at h
  cases unpacked with
  | ok text' => exact congrArg _ (Option.some.inj h)
  | error f => cases h

theorem register_offstage (key v : Value) : (register key v).Leaves World.stage := by
  refine .bind (fun w => rfl) fun _ => .bind (.reads .get) fun w => ?_
  split
  · exact .reads (.throw _)
  · exact .reads (.pure _)

theorem registerDrawing_offstage (load : Nat) :
    (Library.registerDrawing load).Leaves World.stage :=
  .forM (fun _ => register_offstage _ _) _

/-- A loading leaves the windows, the images and the first table alone, and empties the other one. -/
theorem stage_after_load {text : String} (h : Library.drawingText = some text)
    (libraries : Libraries) (w : World) :
    ((Library.load libraries text).after w).stage
      = { w.stage with loads := w.stage.loads + 1, shared := .empty } := by
  rw [Library.load_drawing h]
  exact registerDrawing_offstage _ _

theorem Stage.table_eq_shared (s : Stage) {load : Nat} (h : load ≠ 0) : s.table load = s.shared :=
  if_neg fun hzero => h (eq_of_beq hzero)

/-! ## §2. Starting over -/

/-- What becomes of windows and sprites between a moment and a later one, if the drawing library is
    loaded in between: functions of later loadings start over. -/
structure StartedOver (w later : World) : Prop where
  /-- A window that an argument stands for has been made since. -/
  windows : ∀ {load : Nat}, load ≠ 0 → ∀ {id : Value} {n : Nat},
    Stage.windowArg load id later = .ok n later → w.stage.windows.size ≤ n
  /-- A sprite that an argument stands for has been loaded since. -/
  sprites : ∀ {load : Nat}, load ≠ 0 → ∀ {id : Value} {n : Nat},
    Stage.spriteArg load id later = .ok n later → w.stage.images ≤ n
  /-- No argument stands for a window that any argument stood for. -/
  windowsLost : ∀ {load : Nat}, load ≠ 0 → ∀ {old : Nat} {id id' : Value} {n : Nat},
    Stage.windowArg old id w = .ok n w → Stage.windowArg load id' later ≠ .ok n later
  /-- No argument stands for a sprite that any argument stood for. -/
  spritesLost : ∀ {load : Nat}, load ≠ 0 → ∀ {old : Nat} {id id' : Value} {n : Nat},
    Stage.spriteArg old id w = .ok n w → Stage.spriteArg load id' later ≠ .ok n later
  /-- The calls on record that made windows gave back 0, 1, 2 and so on, as many as there are. -/
  created : ∀ load, (later.stage.table load).given .create
    = Stage.ids (later.stage.table load).windows.length
  /-- So did the calls that loaded sprites. -/
  pictured : ∀ load, (later.stage.table load).given .loadSprite
    = Stage.ids (later.stage.table load).sprites.length
  /-- The windows are still there, with their drawing functions and their scopes. -/
  kept : ∀ {n : Nat} {old : Stage.Window}, w.stage.windows[n]? = some old →
    ∃ new, later.stage.windows[n]? = some new ∧ new.draw = old.draw ∧ new.home = old.home
  /-- The functions that are there from the start have not lost anything. -/
  first : w.stage.first.Grows later.stage.first

/-- Stages one of which has come from the other by moves, with a loading among them. -/
theorem Stage.Renewed.startedOver {w later : World}
    (h : Renewed w.stage.lasting later.stage.lasting) (hw : w.stage.lasting.Sound)
    (hpictured : w.stage.lasting.Pictured) (hlater : later.stage.lasting.Sound)
    (hloads : w.stage.loads < later.stage.loads) : StartedOver w later := by
  have hwindows : ∀ {load : Nat}, load ≠ 0 → ∀ {id : Value} {n : Nat},
      windowArg load id later = .ok n later → w.stage.windows.size ≤ n := by
    intro load hload id n hn
    have hmem := mem_of_listedArg hn
    rw [Stage.table_eq_shared _ hload] at hmem
    have hle := h.windows hloads n hmem
    rwa [size_lasting] at hle
  have hsprites : ∀ {load : Nat}, load ≠ 0 → ∀ {id : Value} {n : Nat},
      spriteArg load id later = .ok n later → w.stage.images ≤ n := by
    intro load hload id n hn
    have hmem := mem_of_listedArg hn
    rw [Stage.table_eq_shared _ hload] at hmem
    exact h.sprites hloads n hmem
  constructor
  case windows => exact hwindows
  case sprites => exact hsprites
  case windowsLost =>
    intro load hload old id id' n hold hnew
    have hlt := hw.made old n (mem_of_listedArg hold)
    rw [size_lasting] at hlt
    exact absurd (hwindows hload hnew) (Nat.not_le.2 hlt)
  case spritesLost =>
    intro load hload old id id' n hold hnew
    have hlt : n < w.stage.images := hpictured old n (mem_of_listedArg hold)
    exact absurd (hsprites hload hnew) (Nat.not_le.2 hlt)
  case created => exact hlater.created
  case pictured => exact hlater.pictured
  case kept =>
    intro n old hold
    obtain ⟨new', hnew', hdraw, hhome⟩ := h.kept ((w.stage.getElem?_lasting n).trans (congrArg _ hold))
    obtain ⟨new, hnew, rfl⟩ :=
      Option.map_eq_some_iff.1 ((later.stage.getElem?_lasting n).symm.trans hnew')
    exact ⟨new, hnew, hdraw, hhome⟩
  case first => exact h.first

/-- **Loading the drawing library starts over.**  Begin with nothing on the stage, have anything done, and
    look at a moment.  If the library is loaded right then, no argument stands for a window or a sprite
    any more, for whatever functions of later loadings.  At every later moment with a loading in between,
    these functions have started over.  Other libraries leave the stage alone. -/
theorem loading_starts_over {start w later : World} {cues : List Stage.Cue}
    (hstart : start.stage = .empty cues) (h : Moments start w later) :
    (∀ text, Library.drawingText = some text → ∀ libraries load, load ≠ 0 → ∀ id : Value,
      (∃ f, Stage.windowArg load id ((Library.load libraries text).after w)
          = .error f ((Library.load libraries text).after w)) ∧
        ∃ f, Stage.spriteArg load id ((Library.load libraries text).after w)
          = .error f ((Library.load libraries text).after w)) ∧
      (w.stage.loads < later.stage.loads → StartedOver w later) := by
  constructor
  · intro text htext libraries load hload id
    have htable : ((Library.load libraries text).after w).stage.table load = .empty := by
      rw [stage_after_load htext]
      exact Stage.table_eq_shared _ hload
    exact ⟨Stage.listedArg_eq_error (congrArg Stage.Table.windows htable) id,
      Stage.listedArg_eq_error (congrArg Stage.Table.sprites htable) id⟩
  · intro hloads
    have hempty : start.stage.lasting = .empty [] := by rw [hstart, Stage.lasting_empty]
    have hsound : w.stage.lasting.Sound :=
      (h.keeps fun hmove hs => hmove.sound hs).1 (hempty ▸ Stage.sound_empty [])
    have hpictured : w.stage.lasting.Pictured := by
      refine (h.keeps fun hmove hs => hmove.pictured hs).1 ?_
      rw [hempty]
      intro load n hn
      rw [Stage.table_empty] at hn
      exact absurd hn List.not_mem_nil
    have hlater : later.stage.lasting.Sound ∧ Stage.Renewed w.stage.lasting later.stage.lasting :=
      (h.keeps (P := fun s => s.Sound ∧ Stage.Renewed w.stage.lasting s) fun hmove hs =>
        ⟨hmove.sound hs.1, hmove.renewed hs.1 hs.2⟩).2 ⟨hsound, .refl _⟩
    exact hlater.2.startedOver hsound hpictured hlater.1 hloads

/-- A host can have the drawing library loaded. -/
theorem loadDrawing_proceeds (w : World) : Proceeds w (Library.loadDrawing.after w) := by
  obtain ⟨text, htext⟩ := drawingText_eq_some
  refine ⟨.library text, fun _ => false, .standard, 0, Libraries.idle_inert.leave _, ?_⟩
  show _ = (Library.load .idle text).after w
  rw [Library.load_drawing htext]

/-- A world with one scope. -/
def oneScope : World := (makeScope .standard .unlimited none).after (World.empty "" ⟨[]⟩ [])

/-- Opens a window and remembers the number that stands for it. -/
def openTask : Task :=
  .node .unlimited 0 <|
    setNode "w" (namedCall "g2d_create" [.string "d", .string "9", .string "9", .string "one"])

/-- The drawing library has been loaded, and a window opened. -/
def openedWorld : World :=
  openTask.until (fun _ => false) .standard 20 (Library.loadDrawing.after oneScope)

/-- The drawing library has been loaded again. -/
def reloadedWorld : World := Library.loadDrawing.after openedWorld

/-- A window has been opened after that. -/
def reopenedWorld : World := openTask.until (fun _ => false) .standard 20 reloadedWorld

/-- After a loading, a new window has the place that another one had before. -/
theorem reopened_starts_over :
    (openedWorld.stage.table 1).windows = [0] ∧ (reopenedWorld.stage.table 1).windows = [1] ∧
      StartedOver openedWorld reopenedWorld := by
  have hmoments : Moments oneScope openedWorld reopenedWorld :=
    .during (.single (loadDrawing_proceeds _)) openTask (fun _ => false) (fun _ => false)
      (fun _ => id) (Libraries.idle_inert.leave _) 20
      (.tail (.single (loadDrawing_proceeds _))
        ⟨openTask, fun _ => false, .standard, 20, Libraries.idle_inert.leave _, rfl⟩)
  exact ⟨by decide +kernel, by decide +kernel,
    (loading_starts_over rfl hmoments).2 (by decide +kernel)⟩

/-- Sets the title of the window that the number stands for. -/
def titleCall : Value := namedCall "g2d_title" [.symbolNode (.text "w"), .string "again"]

/-- **Loading the drawing library again is not harmless**: with the number that it has been given for its
    window, a program can set the title before, but not afterwards. -/
theorem reloaded_number_lost : Proceeds openedWorld reloadedWorld ∧
    (eval .standard 20 .unlimited 0 titleCall).fault? openedWorld = none ∧
    (eval .standard 20 .unlimited 0 titleCall).fault? reloadedWorld = some (.indexRange "list") :=
  ⟨loadDrawing_proceeds openedWorld, by decide +kernel, by decide +kernel⟩

end Scrawl
