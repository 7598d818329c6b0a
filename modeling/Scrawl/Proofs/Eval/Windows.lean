/-
  Scrawl.Proofs.Eval.Windows — the windows and sprites of a program, from one moment to any later one.

  Whatever a host has done, at whatever moments one looks at it, and whether calls return or fail: the
  tables of the drawing library only grow, places are handed out in order, a window keeps what it was
  made with, and changes only by calls on its own place (`tables_stay`).
-/

import Scrawl.Proofs.Eval.Moments
import Scrawl.Proofs.Value.Tags

namespace Scrawl

namespace Stage

/-! ## §1. Stages that follow one another -/

/-- A stage in order that comes after another one. -/
structure Follows (s later : Stage) : Prop where
  /-- The tables are in order. -/
  sound : later.Sound
  /-- Loadings have only been added. -/
  loads_le : s.loads ≤ later.loads
  /-- What holds as long as none has. -/
  since : later.loads = s.loads → Since s later

theorem Sound.follows {s : Stage} (h : s.Sound) : Follows s s :=
  ⟨h, Nat.le_refl _, fun _ => .refl s⟩

theorem Move.follows {start s s' : Stage} (hmove : Move s s') (h : Follows start s) :
    Follows start s' where
  sound := hmove.sound h.sound
  loads_le := Nat.le_trans h.loads_le hmove.loads_le
  since hloads := by
    -- loadings are never taken back, so there was none up to now and none in this move
    have hbefore := h.loads_le
    have hafter := hmove.loads_le
    exact (h.since (by omega)).trans (hmove.since h.sound (by omega))

/-! ## §2. The laws of a table -/

/-- The laws of a table of the drawing library, between a stage and a later one.  A window and its canvas
    have one number, which says how many windows were made before. -/
structure TableLaws (load : Nat) (s later : Stage) : Prop where
  /-- Windows are only appended. -/
  windows : (s.table load).windows <+: (later.table load).windows
  /-- Sprites are only appended. -/
  sprites : (s.table load).sprites <+: (later.table load).sprites
  /-- What is on record stays there. -/
  deeds : (s.table load).deeds.toList <+: (later.table load).deeds.toList
  /-- The calls that made windows gave back 0, 1, 2 and so on, as many as there are. -/
  created : (later.table load).given .create = ids (later.table load).windows.length
  /-- So did the calls that loaded sprites. -/
  pictured : (later.table load).given .loadSprite = ids (later.table load).sprites.length
  /-- If all windows made in between were completed and none has a place in the other table, they have
      their places in the order in which they were made. -/
  roots : (∀ (n : Nat) made, s.windows.size ≤ n → later.windows[n]? = some made → made.complete = true) →
    (∀ other, (load == 0) ≠ (other == 0) → (later.table other).windows = (s.table other).windows) →
      (later.table load).windows = (s.table load).windows ++
        List.range' s.windows.size (later.windows.size - s.windows.size)
  /-- The window at a place stays there, and keeps its drawing function and its scope.  Its colour and its
      functions for keys and clicks change only by calls on this place that are meant for that. -/
  kept : ∀ (i n : Nat), (s.table load).windows[i]? = some n →
    (later.table load).windows[i]? = some n ∧ ∃ old new,
      s.windows[n]? = some old ∧ later.windows[n]? = some new ∧
        new.draw = old.draw ∧ new.home = old.home ∧
        (new.background ≠ old.background → CalledOn s later load .background i) ∧
        (new.onKey ≠ old.onKey → CalledOn s later load .onKey i) ∧
        (new.onClick ≠ old.onClick → CalledOn s later load .onClick i)

/-- The places of windows made since, if each of them has one, are in order. -/
theorem Since.windows_eq {s later : Stage} (h : Since s later) (hs : s.Sound) (hlater : later.Sound)
    (load : Nat)
    (hplaced : ∀ n, s.windows.size ≤ n → n < later.windows.size → n ∈ (later.table load).windows) :
    (later.table load).windows = (s.table load).windows ++
      List.range' s.windows.size (later.windows.size - s.windows.size) := by
  obtain ⟨more, hmore⟩ := (h.grows load).windows
  have hincreasing := hlater.increasing load
  rw [← hmore] at hincreasing
  obtain ⟨-, hsorted, hbefore⟩ := List.pairwise_append.1 hincreasing
  have hsize := h.size
  rw [← hmore]
  congr 1
  refine hsorted.eq_of_mem_iff List.pairwise_lt_range' fun n => ?_
  rw [List.mem_range'_1]
  constructor
  · intro hn
    have hlast : n ∈ (later.table load).windows := hmore ▸ List.mem_append_right _ hn
    have hlt := hlater.made load n hlast
    rcases h.fresh load n hlast with hold | hge
    · -- no window has two places
      exact absurd (hbefore n hold n hn) (Nat.lt_irrefl n)
    · omega
  · rintro ⟨hge, hlt⟩
    have hlast := hplaced n hge (by omega)
    rw [← hmore] at hlast
    rcases List.mem_append.1 hlast with hold | hnew
    · exact absurd (hs.made load n hold) (by omega)
    · exact hnew

/-- A stage that follows another one, with no loading in between, obeys the laws of its tables. -/
theorem Follows.tableLaws {s later : Stage} (h : Follows s.lasting later.lasting)
    (hs : s.lasting.Sound) (hloads : later.loads = s.loads) (load : Nat) :
    TableLaws load s later := by
  have hsince := h.since hloads
  have hgrows := hsince.grows load
  constructor
  case windows => exact hgrows.windows
  case sprites => exact hgrows.sprites
  case deeds => exact hgrows.deeds
  case created => exact h.sound.created load
  case pictured => exact h.sound.pictured load
  case roots =>
    intro hcomplete hothers
    have hwindows := hsince.windows_eq hs h.sound load fun n hge hlt => ?_
    · rw [size_lasting, size_lasting] at hwindows
      exact hwindows
    · rw [size_lasting] at hge hlt
      have hmade := Array.getElem?_eq_getElem hlt
      have hdone : later.windows[n].lasting.complete = true := hcomplete n later.windows[n] hge hmade
      obtain ⟨other, hother⟩ := hsince.placed (by rwa [size_lasting])
        ((later.getElem?_lasting n).trans (congrArg _ hmade)) hdone
      -- in the other table it would have been made before
      by_cases hload : (load == 0) = (other == 0)
      · rwa [later.lasting.table_congr hload]
      · rw [table_lasting, hothers other hload] at hother
        have hold := hs.made other n hother
        rw [size_lasting] at hold
        omega
  case kept =>
    intro i n hi
    have hlt := hs.made load n (List.mem_of_getElem? hi)
    rw [size_lasting] at hlt
    have hold := Array.getElem?_eq_getElem hlt
    have hold' := (s.getElem?_lasting n).trans (congrArg _ hold)
    obtain ⟨new', hnew', hdraw, hhome, -⟩ := hsince.kept hold'
    -- none of what the laws are about is in passing
    have hchanged := hsince.changed hi hold' hnew'
    obtain ⟨new, hnew, rfl⟩ := Option.map_eq_some_iff.1 ((later.getElem?_lasting n).symm.trans hnew')
    exact ⟨hgrows.windows_at hi, _, new, hold, hnew, hdraw, hhome, hchanged .background,
      hchanged .onKey, hchanged .onClick⟩

end Stage

/-! ## §3. Moments of a run -/

/-- **The tables of the drawing library only grow.**  Begin with nothing on the stage, have anything done,
    and look at two moments with no loading of the library in between: also while a program or a main
    loop is running, inside of functions that windows call, and after calls that have failed.  Then the
    laws hold for the table that a loading works on.  Programs may load other libraries, too, which leave
    the stage alone. -/
theorem tables_stay {start w later : World} {cues : List Stage.Cue}
    (hstart : start.stage = .empty cues) (h : Moments start w later)
    (hloads : later.stage.loads = w.stage.loads) (load : Nat) :
    Stage.TableLaws load w.stage later.stage := by
  have hsound : w.stage.lasting.Sound := by
    refine (h.keeps fun hmove hs => hmove.sound hs).1 ?_
    rw [hstart, Stage.lasting_empty]
    exact Stage.sound_empty []
  have hfollows : Stage.Follows w.stage.lasting later.stage.lasting :=
    (h.keeps fun hmove hs => hmove.follows hs).2 hsound.follows
  exact hfollows.tableLaws hsound hloads load

/-- A world with one scope, in which the drawing library is there from the start, and with a frame in
    every main loop. -/
def drawingWorld : World :=
  (do let _ ← makeScope .standard .unlimited none
      Library.registerDrawing 0 : Run Unit).after (World.empty "" ⟨[]⟩ [.frame])

/-- A program that opens a window, the drawing function of which gives it another background and opens a
    second one.  After the main loop it goes on with a call that fails. -/
def openingTask : Task :=
  .statements .unlimited 0 <| .list
    [.tuple [.text "assignment", .symbolNode (.text "w"),
        namedCall "g2d_create" [.string "d", .string "9", .string "9", .string "one"]],
      .tuple [.text "assignment", .symbolNode (.text "d"),
        .tuple [.text "function", .list [], .list
          [namedCall "g2d_background" [.symbolNode (.text "w"), .string "red"],
            namedCall "g2d_create" [.string "d", .string "9", .string "9", .string "two"]]]],
      namedCall "g2d_start" [.symbolNode (.text "w")],
      namedCall "g2d_title" [.string "5", .string "none"]]

/-- The moment at which the first window has just been opened. -/
def windowOpened : World :=
  openingTask.until (fun w => w.stage.windows.size == 1) .standard 30 drawingWorld

/-- The end of the program. -/
def programFailed : World := openingTask.until (fun _ => false) .standard 30 drawingWorld

/-- The laws hold from the moment at which a window has been opened to the end of the program, after its
    function has been called in the main loop. -/
theorem redrawn_tables_stay :
    ((windowOpened.stage.table 0).windows = [0] ∧ (programFailed.stage.table 0).windows = [0, 1] ∧
        (windowOpened.stage.windows[0]?.any (·.background.equal (.text "black"))) = true ∧
        (programFailed.stage.windows[0]?.any (·.background.equal (.text "red"))) = true) ∧
      Stage.TableLaws 0 windowOpened.stage programFailed.stage := by
  have hmoments : Moments drawingWorld windowOpened programFailed :=
    .during .refl openingTask (fun w => w.stage.windows.size == 1) (fun _ => false) nofun
      (Libraries.idle_inert.leave _) 30 .refl
  exact ⟨by decide +kernel, tables_stay rfl hmoments (by decide +kernel) 0⟩

end Scrawl
