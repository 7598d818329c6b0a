/-
  Scrawl.Proofs.Eval.Addressing — which numbers stand for windows and sprites.

  A program is given a number for each window that it opens and for each sprite that it loads, and
  addresses them by these numbers.  But the number in an argument is made whole before it is used, and a
  negative one counts from the end, so that the last window also goes by -1 (`negative_number_accepted`).
  Every other number is refused, by every drawing function, and nothing comes of such a call
  (`strange_numbers_refused`).
-/

import Scrawl.Proofs.Eval.Effects
import Scrawl.Proofs.Eval.Reloading

namespace Scrawl

namespace Stage

/-! ## §1. Numbers that have been given back -/

/-- An argument means one of the numbers that have been given back: made whole, the number in it is one of
    these, or one of these less how many there are. -/
def Means (given : List Value) (v : Value) : Prop :=
  ∃ p i, v.payload = .ok p ∧ p.toInt = .ok i ∧
    (.number (.int i) ∈ given ∨ .number (.int (i + given.length)) ∈ given)

theorem mem_ids {count : Nat} {i : Int} :
    Value.number (.int i) ∈ ids count ↔ ∃ k < count, (k : Int) = i := by
  unfold ids
  simp [Value.number]

/-- An index that finds an item is the place of one, counted from the start or from the end. -/
theorem place_of_indexed {items : List Nat} {i : Int} {n : Nat} (h : indexed items i = .ok n) :
    ∃ k < items.length, (k : Int) = i ∨ (k : Int) = i + items.length := by
  unfold indexed at h
  split at h
  · cases h
  · dsimp only at h
    by_cases hplace : (if i < 0 then i + items.length else i) < 0
    · rw [if_pos hplace] at h
      cases h
    · rw [if_neg hplace] at h
      split at h
      · next item hitem =>
        refine ⟨_, (List.getElem?_eq_some_iff.1 hitem).1, ?_⟩
        split at hplace <;> omega
      · cases h

/-- What is found by the number in an argument goes by a number that has been given back. -/
theorem means_of_indexed {items : List Nat} {id p : Value} {i : Int} {n : Nat}
    (hpayload : id.payload = .ok p) (hnumber : p.toInt = .ok i) (h : indexed items i = .ok n) :
    Means (ids items.length) id := by
  have hcount : (ids items.length).length = items.length := by simp [ids]
  obtain ⟨k, hk, hplace⟩ := place_of_indexed h
  refine ⟨p, i, hpayload, hnumber, ?_⟩
  rw [hcount]
  exact hplace.imp (fun hi => mem_ids.2 ⟨k, hk, hi⟩) fun hi => mem_ids.2 ⟨k, hk, hi⟩

/-! ## §2. Other numbers -/

/-- An argument that means no number of a place stands for nothing. -/
theorem listedArg_of_strange {items : Table → List Nat} {load : Nat} {id : Value} {w : World}
    (h : ¬ Means (ids (items (w.stage.table load)).length) id) :
    ∃ f, listedArg items load id w = .error f w := by
  refine (listedArg_reads items load id w).resolve_left ?_
  rintro ⟨n, hn⟩
  obtain ⟨p, i, hpayload, hnumber, hindexed⟩ := listedArg_eq_ok hn
  exact h (means_of_indexed hpayload hnumber hindexed)

section Given

variable {w : World} (hw : w.stage.lasting.Sound)
include hw

/-- The numbers that opening windows has given back are those of the places of windows. -/
theorem given_create (load : Nat) :
    (w.stage.table load).given .create = ids (w.stage.table load).windows.length :=
  hw.created load

theorem given_loadSprite (load : Nat) :
    (w.stage.table load).given .loadSprite = ids (w.stage.table load).sprites.length :=
  hw.pictured load

end Given

end Stage

open Stage

section Refused

variable {load : Nat} {op : Drawing} {id : Value} {w : World} {f : Fault}

/-- A drawing function that needs a window and is given none fails with the world as it was. -/
theorem Drawing.run_of_windowArg (hop : op ≠ .create ∧ op ≠ .loadSprite)
    (hid : windowArg load id w = .error f w) (inner : Evaluator) (room : Room) (e : ScopeId)
    (rest : List Value) : ∃ f, op.run inner room e load (id :: rest) w = .error f w := by
  by_cases hstart : op = .start
  · subst hstart
    cases rest with
    | nil => exact ⟨f, Run.bind_of_error hid _⟩
    | cons _ _ => exact ⟨.notNative, rfl⟩
  · -- every plan for a window rests on having found it
    have hplanned := Drawing.planned load op (id :: rest) w
    rw [Drawing.run_eq inner room e load hstart]
    refine (Drawing.plan_reads load op (id :: rest)).bind_fails fun plan hplan => ?_
    rw [hplan] at hplanned
    cases hplanned with
    | suits hsuits =>
      cases hsuits with
      | opens => exact absurd rfl hop.1
      | loads => exact absurd rfl hop.2
      | alters _ hn _ => cases hid.symm.trans hn
      | asks _ hn _ _ => cases hid.symm.trans hn

/-- Drawing a sprite fails with the world as it was if there is no such sprite. -/
theorem Drawing.run_of_spriteArg {spr : Value} (hspr : spriteArg load spr w = .error f w)
    (inner : Evaluator) (room : Room) (e : ScopeId) (id x y : Value) :
    ∃ f, Drawing.sprite.run inner room e load [id, x, y, spr] w = .error f w := by
  refine (windowArg_reads load id).bind_fails fun n _ => ?_
  refine (intArg_reads x).bind_fails fun x' _ => ?_
  refine (intArg_reads y).bind_fails fun y' _ => ?_
  exact ⟨f, Run.bind_of_error hspr _⟩

/-- A call by a program fails with the world as it was if the function that is called does. -/
theorem callNative_of_run {rules : Rules} {inner : Evaluator} {e : ScopeId} {ds : List Datum}
    (h : ∀ inside, ∃ f, op.run inner inside e load (ds.map (·.value)) w = .error f w) (room : Room)
    (callee : Value) :
    ∃ f, callNative rules inner room e callee (.nativeValue (.drawing load op)) ds w = .error f w := by
  refine callNative_outcome (P := fun r => ∃ f, r = .error f w) (fun f => ⟨f, rfl⟩) room callee
    fun inside => ?_
  obtain ⟨f, hfails⟩ := h inside
  exact ⟨f, Run.bind_of_error hfails _⟩

end Refused

/-- The tables of a stage that began empty are in order. -/
theorem Course.sound {start w : World} (h : Course start w) {cues : List Stage.Cue}
    (hstart : start.stage = .empty cues) : w.stage.lasting.Sound := by
  refine h.keeps (fun hmove hs => hmove.sound hs) ?_
  rw [hstart, Stage.lasting_empty]
  exact Stage.sound_empty []

/-- **Other numbers are refused.**  Begin with nothing on the stage, have anything done, and look at any
    moment: also while a program or a main loop is running, and after calls that have failed.  Have a
    drawing function called on a window, with an argument that means no number that opening a window has
    given back, or have a sprite drawn with one that means no number that loading a sprite has given back.
    The call fails, and the world is exactly as it was: nothing has been drawn and no window has
    changed.  Other libraries leave the stage alone. -/
theorem strange_numbers_refused {start w : World} {cues : List Stage.Cue}
    (hstart : start.stage = .empty cues) (h : Course start w) (load : Nat) (rules : Rules)
    (inner : Evaluator) (room : Room) (e : ScopeId) (callee : Value) :
    (∀ op, op ≠ .create → op ≠ .loadSprite → ∀ (id : Datum) (rest : List Datum),
      ¬ Means ((w.stage.table load).given .create) id.value →
        ∃ f, callNative rules inner room e callee (.nativeValue (.drawing load op)) (id :: rest) w
          = .error f w) ∧
      ∀ id x y spr : Datum, ¬ Means ((w.stage.table load).given .loadSprite) spr.value →
        ∃ f, callNative rules inner room e callee (.nativeValue (.drawing load .sprite)) [id, x, y, spr] w
          = .error f w := by
  have hsound := h.sound hstart
  constructor
  · intro op hcreate hload id rest hstrange
    rw [given_create hsound] at hstrange
    obtain ⟨f, hfails⟩ := listedArg_of_strange hstrange
    exact callNative_of_run
      (fun inside => Drawing.run_of_windowArg ⟨hcreate, hload⟩ hfails inner inside e _) room callee
  · intro id x y spr hstrange
    rw [given_loadSprite hsound] at hstrange
    obtain ⟨f, hfails⟩ := listedArg_of_strange hstrange
    exact callNative_of_run
      (fun inside => Drawing.run_of_spriteArg hfails inner inside e _ _ _) room callee

theorem openedWorld_course : Course oneScope openedWorld :=
  .tail (.single (loadDrawing_proceeds _))
    ⟨openTask, fun _ => false, .standard, 20, Libraries.idle_inert.leave _, rfl⟩

/-- One window has been opened there. -/
theorem openedWorld_given : (openedWorld.stage.table 1).given .create = ids 1 := by
  have hwindows : (openedWorld.stage.table 1).windows = [0] := by decide +kernel
  rw [given_create (openedWorld_course.sound rfl), hwindows]
  rfl

/-- The second window cannot be given a title. -/
theorem second_title_refused :
    ¬ Means ((openedWorld.stage.table 1).given .create) (.number (.int 1)) ∧
      ∃ f, callNative .standard (eval .standard 20) .unlimited 0 .nothing
        (.nativeValue (.drawing 1 .title)) [.plain (.number (.int 1)), .plain (.string "again")]
        openedWorld = .error f openedWorld := by
  have hstrange : ¬ Means ((openedWorld.stage.table 1).given .create) (.number (.int 1)) := by
    rw [openedWorld_given]
    rintro ⟨p, i, hpayload, hnumber, hmem⟩
    obtain rfl : Value.int 1 = p := Except.ok.inj hpayload
    obtain rfl : 1 = i := Except.ok.inj hnumber
    rcases hmem with hmem | hmem <;> obtain ⟨k, hk, hplace⟩ := mem_ids.1 hmem
    · omega
    · have hlength : (ids 1).length = 1 := rfl
      omega
  exact ⟨hstrange, (strange_numbers_refused rfl openedWorld_course 1 .standard (eval .standard 20)
    .unlimited 0 .nothing).1 .title (by decide) (by decide) _ _ hstrange⟩

/-- Gives a title to the window that goes by -1. -/
def lastTitle : Run Datum :=
  callNative .standard (eval .standard 20) .unlimited 0 .nothing (.nativeValue (.drawing 1 .title))
    [.plain (.number (.int (-1))), .plain (.string "again")]

/-- **Numbers are accepted that have never been given back**: with one window open, which goes by 0, the
    window that goes by -1 is given a title. -/
theorem negative_number_accepted : Course oneScope openedWorld ∧
    .number (.int (-1)) ∉ (openedWorld.stage.table 1).given .create ∧
    lastTitle.fault? openedWorld = none ∧
    (lastTitle.after openedWorld).stage.calls.size = openedWorld.stage.calls.size + 1 := by
  refine ⟨openedWorld_course, ?_, by decide +kernel, by decide +kernel⟩
  rw [openedWorld_given, mem_ids]
  rintro ⟨k, -, hk⟩
  omega

end Scrawl
