/-
  Scrawl.Proofs.Eval.Libraries — what is taken for granted about libraries.

  A library is not written in the language, and could do anything to the world when it is loaded.  What
  holds of all programs, whatever they load, is therefore stated for libraries that leave a part of the
  world alone (`Libraries.Leave`), or that do nothing but succeed or fail (`Libraries.Inert`).  None of
  this is asked of the drawing library, which is loaded in the same way whatever other libraries do
  (`Library.load_drawing`).
-/

import Scrawl.Eval.Native
import Scrawl.Proofs.Run

namespace Scrawl

namespace Libraries

variable {π : Type} {libraries : Libraries}

/-- Libraries leave a part of the world as it was. -/
def Leave (libraries : Libraries) (part : World → π) : Prop :=
  ∀ text, (libraries text).Leaves part

/-- Libraries do nothing to the world; whether one fails, and how, depends on its text alone. -/
def Inert (libraries : Libraries) : Prop :=
  ∀ text, ∃ outcome : Except Fault Unit, libraries text = liftM outcome

/-- Libraries that do nothing leave every part of the world as it was. -/
theorem Inert.leave (h : libraries.Inert) (part : World → π) : libraries.Leave part := by
  intro text
  obtain ⟨outcome, houtcome⟩ := h text
  rw [houtcome]
  exact .reads (.lift outcome)

theorem idle_inert : idle.Inert := fun _ => ⟨.ok (), rfl⟩

end Libraries

namespace Library

variable {text : String}

/-- The drawing library is the same beside any other libraries. -/
theorem load_drawing (h : drawingText = some text) (libraries : Libraries) :
    load libraries text = loadDrawing := by
  unfold load
  rw [h, if_pos (beq_self_eq_true _)]

theorem load_other (h : drawingText ≠ some text) (libraries : Libraries) :
    load libraries text = libraries text := by
  unfold load
  rw [if_neg fun hsame => h (eq_of_beq hsame)]

end Library

end Scrawl
