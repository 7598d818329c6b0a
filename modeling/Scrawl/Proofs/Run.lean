/-
  Scrawl.Proofs.Run — runs and their parts.

  A run of two parts goes on where the first one has got to, and ends where that fails.  Many parts
  only look at the world (`Run.Reads`), and others leave a part of it alone (`Run.Leaves`).
-/

import Scrawl.World

namespace Scrawl

/-! ## §1. Two parts -/

/-- What a run leaves behind, with a result or a fault. -/
def Run.after {α : Type} (x : Run α) (w : World) : World :=
  match x w with
  | .ok _ w' => w'
  | .error _ w' => w'

theorem Run.after_of_eq {α : Type} {x y : Run α} {w : World} (h : x w = y w) :
    x.after w = y.after w := by
  unfold Run.after
  rw [h]

/-- The fault that a run ends with, if it fails. -/
def Run.fault? {α : Type} (x : Run α) (w : World) : Option Fault :=
  match x w with
  | .ok _ _ => none
  | .error f _ => some f

theorem Run.eq_ok_of_fault? {α : Type} {x : Run α} {w : World} (h : x.fault? w = none) :
    ∃ a w', x w = .ok a w' := by
  unfold Run.fault? at h
  cases hx : x w with
  | ok a w' => exact ⟨a, w', rfl⟩
  | error f w' =>
    rw [hx] at h
    cases h

/-- A run goes on where its first part has got to. -/
theorem Run.bind_of_ok {α β : Type} {x : Run α} {w w' : World} {a : α} (h : x w = .ok a w')
    (k : α → Run β) : (x >>= k) w = k a w' := by
  show EStateM.bind x k w = k a w'
  unfold EStateM.bind
  rw [h]

/-- A run ends where its first part fails. -/
theorem Run.bind_of_error {α β : Type} {x : Run α} {w w' : World} {f : Fault}
    (h : x w = .error f w') (k : α → Run β) : (x >>= k) w = .error f w' := by
  show EStateM.bind x k w = .error f w'
  unfold EStateM.bind
  rw [h]

/-- A run goes on in the same way after first parts that do the same. -/
theorem Run.bind_of_eq {α β : Type} {x y : Run α} {w : World} (h : x w = y w) (k : α → Run β) :
    (x >>= k) w = (y >>= k) w := by
  show EStateM.bind x k w = EStateM.bind y k w
  unfold EStateM.bind
  rw [h]

theorem Run.after_bind_of_ok {α β : Type} {x : Run α} {w w' : World} {a : α} (h : x w = .ok a w')
    (k : α → Run β) : (x >>= k).after w = (k a).after w' := by
  unfold Run.after
  rw [Run.bind_of_ok h]

theorem Run.after_bind_of_error {α β : Type} {x : Run α} {w w' : World} {f : Fault}
    (h : x w = .error f w') (k : α → Run β) : (x >>= k).after w = w' := by
  unfold Run.after
  rw [Run.bind_of_error h]

/-- A run of two parts that succeeds consists of two that do. -/
theorem Run.bind_eq_ok {α β : Type} {x : Run α} {k : α → Run β} {w w' : World} {b : β}
    (h : (x >>= k) w = .ok b w') : ∃ a v, x w = .ok a v ∧ k a v = .ok b w' := by
  have hbind : EStateM.bind x k w = .ok b w' := h
  unfold EStateM.bind at hbind
  split at hbind
  · next a v hx => exact ⟨a, v, hx, hbind⟩
  · cases hbind

theorem Run.ofExcept_eq_ok {α : Type} {x : Except Fault α} {w w' : World} {a : α}
    (h : Run.ofExcept x w = .ok a w') : x = .ok a ∧ w' = w := by
  cases x with
  | ok b => cases h; exact ⟨rfl, rfl⟩
  | error f => cases h

/-- A run that goes on with something computed without a world, and succeeds. -/
theorem Run.lift_bind_eq_ok {α β : Type} {x : Except Fault α} {k : α → Run β} {w w' : World} {b : β}
    (h : (liftM x >>= k : Run β) w = .ok b w') : ∃ a, x = .ok a ∧ k a w = .ok b w' := by
  obtain ⟨a, v, hlifted, hrest⟩ := Run.bind_eq_ok h
  obtain ⟨hx, rfl⟩ : x = .ok a ∧ v = w := Run.ofExcept_eq_ok hlifted
  exact ⟨a, hx, hrest⟩

/-- What is computed without a world in two parts is a run of two parts. -/
theorem Run.lift_bind {α β : Type} (x : Except Fault α) (k : α → Except Fault β) :
    (liftM (x >>= k) : Run β) = liftM x >>= fun a => liftM (k a) := by
  cases x <;> rfl

/-! ## §2. Looking at the world -/

/-- A run leaves the world alone. -/
def Run.Reads {α : Type} (x : Run α) : Prop :=
  ∀ w, (∃ a, x w = .ok a w) ∨ ∃ f, x w = .error f w

namespace Run.Reads

variable {α β : Type}

theorem pure (a : α) : Run.Reads (Pure.pure a) := fun _ => .inl ⟨a, rfl⟩

theorem throw (f : Fault) : Run.Reads (MonadExcept.throw f : Run α) := fun _ => .inr ⟨f, rfl⟩

theorem lift (x : Except Fault α) : Run.Reads (liftM x : Run α) := by
  cases x with
  | ok a => exact .pure a
  | error f => exact .throw f

theorem get : Run.Reads (MonadState.get : Run World) := fun w => .inl ⟨w, rfl⟩

theorem bind {x : Run α} {f : α → Run β} (hx : x.Reads) (hf : ∀ a, (f a).Reads) :
    (x >>= f).Reads := by
  intro w
  rcases hx w with ⟨a, ha⟩ | ⟨fault, hfault⟩
  · rw [Run.bind_of_ok ha]
    exact hf a w
  · exact .inr ⟨fault, Run.bind_of_error hfault f⟩

/-- A run that looks at the world first, and succeeds. -/
theorem bind_eq_ok {x : Run α} (hx : x.Reads) {k : α → Run β} {w w' : World} {b : β}
    (h : (x >>= k) w = .ok b w') : ∃ a, k a w = .ok b w' := by
  rcases hx w with ⟨a, ha⟩ | ⟨f, hf⟩
  · rw [Run.bind_of_ok ha] at h
    exact ⟨a, h⟩
  · rw [Run.bind_of_error hf] at h
    cases h

/-- What holds of every failure in a world holds of a run that looks at the world first, if it holds of
    what comes after. -/
theorem bind_outcome {x : Run α} (hx : x.Reads) {w : World} {P : EStateM.Result Fault World β → Prop}
    (hfails : ∀ f, P (.error f w)) {k : α → Run β} (h : ∀ a, x w = .ok a w → P (k a w)) :
    P ((x >>= k) w) := by
  rcases hx w with ⟨a, ha⟩ | ⟨f, hf⟩
  · rw [Run.bind_of_ok ha]
    exact h a ha
  · rw [Run.bind_of_error hf]
    exact hfails f

/-- If what comes after fails in the same world, so does a run that looks at the world first. -/
theorem bind_fails {x : Run α} (hx : x.Reads) {w : World} {k : α → Run β}
    (h : ∀ a, x w = .ok a w → ∃ f, k a w = .error f w) : ∃ f, (x >>= k) w = .error f w :=
  hx.bind_outcome (P := fun r => ∃ f, r = .error f w) (fun f => ⟨f, rfl⟩) h

theorem after {x : Run α} (h : x.Reads) (w : World) : x.after w = w := by
  unfold Run.after
  rcases h w with ⟨a, ha⟩ | ⟨f, hf⟩
  · rw [ha]
  · rw [hf]

end Run.Reads

theorem plainText_reads (v : Value) : (plainText v).Reads := by
  unfold plainText
  split
  · exact .bind .get fun _ => .pure _
  · exact .throw _

theorem shown_reads (v : Value) : (shown v).Reads := by
  unfold shown
  split
  · exact .bind .get fun _ => .pure _
  · exact .throw _

theorem lookup_reads (room : Room) (e : ScopeId) (n : Name) : (lookup room e n).Reads :=
  .bind .get fun _ => .bind (.lift _) fun _ => .pure _

/-! ## §3. Leaving a part of the world alone -/

/-- A run leaves a part of the world as it was. -/
def Run.Leaves {α π : Type} (part : World → π) (x : Run α) : Prop :=
  ∀ w, part (x.after w) = part w

namespace Run.Leaves

variable {α β π : Type} {part : World → π}

theorem reads {x : Run α} (h : x.Reads) : x.Leaves part := fun w => congrArg part (h.after w)

theorem modifies {change : World → World} (h : ∀ w, part (change w) = part w) :
    (modify change : Run Unit).Leaves part :=
  h

theorem bind {x : Run α} {f : α → Run β} (hx : x.Leaves part) (hf : ∀ a, (f a).Leaves part) :
    (x >>= f).Leaves part := by
  intro w
  have hfirst := hx w
  unfold Run.after at hfirst
  cases h : x w with
  | ok a v =>
    rw [h] at hfirst
    rw [Run.after_bind_of_ok h, hf a v]
    exact hfirst
  | error f v =>
    rw [h] at hfirst
    rw [Run.after_bind_of_error h]
    exact hfirst

theorem forM {f : α → Run Unit} (h : ∀ a, (f a).Leaves part) (as : List α) :
    (as.forM f).Leaves part := by
  induction as with
  | nil => exact reads (.pure ())
  | cons a as ih => exact bind (h a) fun _ => ih

end Run.Leaves

end Scrawl
