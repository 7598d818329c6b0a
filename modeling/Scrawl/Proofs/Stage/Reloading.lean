/-
  Scrawl.Proofs.Stage.Reloading — what a loading of the drawing library leaves of windows and sprites.

  Windows and images are never taken back, but a loading empties the table of all later loadings.  What
  has a place there afterwards was made since (`Renewed.windows`, `Renewed.sprites`).  Every move keeps
  this (`Move.renewed`).
-/

import Scrawl.Proofs.Stage.Growth

namespace Scrawl.Stage

/-! ## §1. Sprites -/

/-- A move loads at most one image, and new places are those of new images. -/
theorem Move.sprites {s s' : Stage} (h : Move s s') :
    s.images ≤ s'.images ∧ ∀ load n, n ∈ (s'.table load).sprites →
      n ∈ (s.table load).sprites ∨ s.images ≤ n ∧ n < s'.images := by
  have hnote : ∀ (s : Stage) (load : Nat) (d : Deed), (s.note load d).images = s.images ∧
      ∀ other, ((s.note load d).table other).sprites = (s.table other).sprites := by
    intro s load d
    constructor
    · unfold Stage.note setTable
      split <;> rfl
    · intro other
      rw [table_note]
      split
      · next hload => rw [s.table_congr hload]
      · rfl
  cases h with
  | aside | botch => exact ⟨Nat.le_refl _, fun _ _ hn => .inl hn⟩
  | quiet load =>
    rw [(hnote s load _).1]
    refine ⟨Nat.le_refl _, fun other n hn => .inl ?_⟩
    rwa [(hnote s load _).2] at hn
  | alter load hop rest hplace hn result =>
    rw [(hnote _ load _).1]
    refine ⟨Nat.le_refl _, fun other n hn => .inl ?_⟩
    rwa [(hnote _ load _).2] at hn
  | create load args made =>
    have himages : (s.withWindow load made).images = s.images := by
      unfold withWindow setTable
      split <;> rfl
    rw [(hnote _ load _).1, himages]
    refine ⟨Nat.le_refl _, fun other n hn => .inl ?_⟩
    rw [(hnote _ load _).2, withWindow, table_setTable] at hn
    split at hn
    · next hload => rwa [← s.table_congr hload]
    · exact hn
  | loadSprite load args =>
    have himages : (s.withSprite load).images = s.images + 1 := by
      unfold withSprite setTable
      split <;> rfl
    rw [(hnote _ load _).1, himages]
    refine ⟨Nat.le_succ _, fun other n hn => ?_⟩
    rw [(hnote _ load _).2, withSprite, table_setTable] at hn
    split at hn
    · next hload =>
      rcases List.mem_append.1 hn with hn | hn
      · left
        rwa [← s.table_congr hload]
      · right
        rw [List.mem_singleton.1 hn]
        omega
    · exact .inl hn
  | reload =>
    refine ⟨Nat.le_refl _, fun load n hn => .inl ?_⟩
    unfold table at hn ⊢
    split at hn
    · next hload =>
      rw [if_pos hload]
      exact hn
    · exact absurd hn List.not_mem_nil

/-- Every place of a sprite is that of an image. -/
def Pictured (s : Stage) : Prop := ∀ load, ∀ n ∈ (s.table load).sprites, n < s.images

theorem Move.pictured {s s' : Stage} (hmove : Move s s') (h : s.Pictured) : s'.Pictured := by
  intro load n hn
  obtain ⟨hle, hnew⟩ := hmove.sprites
  rcases hnew load n hn with hold | ⟨-, hlt⟩
  · exact Nat.lt_of_lt_of_le (h load n hold) hle
  · exact hlt

/-! ## §2. From one stage to a later one -/

/-- What holds between a stage and a later one, however often the drawing library has been loaded in
    between. -/
structure Renewed (s later : Stage) : Prop where
  /-- Loadings have only been added. -/
  loads_le : s.loads ≤ later.loads
  /-- Windows have only been added. -/
  size : s.windows.size ≤ later.windows.size
  /-- Images have only been added. -/
  images : s.images ≤ later.images
  /-- A window has its function and its scope as it was made. -/
  kept : ∀ {n : Nat} {old : Window}, s.windows[n]? = some old → ∃ new, later.windows[n]? = some new ∧
    new.draw = old.draw ∧ new.home = old.home
  /-- The table of the library that is there from the start has grown. -/
  first : s.first.Grows later.first
  /-- If there was a loading, the windows of the other table were made since. -/
  windows : s.loads < later.loads → ∀ n ∈ later.shared.windows, s.windows.size ≤ n
  /-- If there was a loading, the sprites of the other table were loaded since. -/
  sprites : s.loads < later.loads → ∀ n ∈ later.shared.sprites, s.images ≤ n

theorem Renewed.refl (s : Stage) : Renewed s s where
  loads_le := Nat.le_refl _
  size := Nat.le_refl _
  images := Nat.le_refl _
  kept hold := ⟨_, hold, rfl, rfl⟩
  first := .refl _
  windows hlt := absurd hlt (Nat.lt_irrefl _)
  sprites hlt := absurd hlt (Nat.lt_irrefl _)

/-- **Every move leaves behind what was made since a loading.** -/
theorem Move.renewed {start s s' : Stage} (hmove : Move s s') (hs : s.Sound) (h : Renewed start s) :
    Renewed start s' := by
  rcases hmove.loads_eq_or with hloads | rfl
  · have hsince := hmove.since hs hloads
    obtain ⟨himages, hsprites⟩ := hmove.sprites
    constructor
    case loads_le => exact hloads ▸ h.loads_le
    case size => exact Nat.le_trans h.size hsince.size
    case images => exact Nat.le_trans h.images himages
    case kept =>
      intro n old hold
      obtain ⟨mid, hmid, hdraw, hhome⟩ := h.kept hold
      obtain ⟨new, hnew, hdraw', hhome', -⟩ := hsince.kept hmid
      exact ⟨new, hnew, hdraw'.trans hdraw, hhome'.trans hhome⟩
    case first => exact h.first.trans (hsince.grows 0)
    case windows =>
      intro hlt n hn
      rcases hsince.fresh 1 n hn with hold | hge
      · exact h.windows (hloads ▸ hlt) n hold
      · exact Nat.le_trans h.size hge
    case sprites =>
      intro hlt n hn
      rcases hsprites 1 n hn with hold | ⟨hge, -⟩
      · exact h.sprites (hloads ▸ hlt) n hold
      · exact Nat.le_trans h.images hge
  · -- a loading leaves nothing in the table
    exact { h with
      loads_le := Nat.le_succ_of_le h.loads_le
      windows := fun _ _ hn => absurd hn List.not_mem_nil
      sprites := fun _ _ hn => absurd hn List.not_mem_nil }

end Scrawl.Stage
