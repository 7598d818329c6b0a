/-
  Scrawl.Proofs.Eval.WorldSteps — what evaluation does to worlds, in lockstep.

  Looking up, setting, making a scope, registering an add-on and loading a library each change the
  world once, and fail or succeed by what they find in it.  Each goes in lockstep if related worlds
  look alike in this respect and stay related when they are changed.
-/

import Scrawl.Proofs.Eval.Libraries
import Scrawl.Proofs.Eval.Lockstep
import Scrawl.Proofs.Scope.Growth

namespace Scrawl.Comparison

variable {c : Comparison} {k : Forest} (hfault : ∀ f, c.fault f f) (room : Room)
include hfault

/-! ## §1. Names -/

theorem lookup_lockstep {A : Forest → Datum → Datum → Prop}
    (hA : ∀ i j d d', i ≤ j → A i d d' → A j d d') (e : ScopeId) (n : Name)
    (h : ∀ w w', c.world w w' → k ≤ w.forest →
      w'.forest.visits e n = w.forest.visits e n ∧
        Option.Rel (A w.forest) (w.forest.get? e n) (w'.forest.get? e n)) :
    c.Lockstep k (fun j => Option.Rel (A j)) (lookup room e n) (lookup room e n) := by
  unfold lookup
  refine .get fun w w' hw hk => ?_
  obtain ⟨hvisits, hget⟩ := h w w' hw hk
  dsimp only
  rw [hvisits]
  refine .andThen (.liftSame hfault _) fun i hi => .pure fun j hj => ?_
  generalize w.forest.get? e n = found at hget ⊢
  generalize w'.forest.get? e n = found' at hget ⊢
  cases hget with
  | none => exact .none
  | some hd => exact .some (hA _ _ _ _ (le_trans hi hj) hd)

theorem assign_lockstep (e : ScopeId) (key : Value) (d d' : Datum)
    (hvisits : ∀ w w', c.world w w' → ∀ n, w'.forest.visits e n = w.forest.visits e n)
    (hset : ∀ n, key.toName = .ok n → ∀ w w', c.world w w' → k ≤ w.forest →
      c.world { w.noteSpelling e n key with forest := w.forest.set e n d }
        { w'.noteSpelling e n key with forest := w'.forest.set e n d' }) :
    c.Lockstep k Anything (assign room e key d) (assign room e key d') := by
  have hforest : ∀ (w : World) n, (w.noteSpelling e n key).forest = w.forest := by
    intro w n
    obtain ⟨spellings, h⟩ := w.noteSpelling_eq e n key
    rw [h]
  unfold assign
  refine .bind (.lift (Matches.known (.refl hfault fun _ _ => rfl))) ?_
  rintro i hi n _ ⟨rfl, hn⟩
  refine .get fun w w' hw hiw => ?_
  rw [hvisits w w' hw]
  refine .andThen (.liftSame hfault _) fun j hj => .modify fun v v' hv hjv => ?_
  dsimp only
  rw [hforest, hforest]
  exact ⟨hset n hn v v' hv (le_trans hi (le_trans hiw (le_trans hj hjv))), v.forest.le_set e n d⟩

/-! ## §2. Scopes -/

theorem makeScope_lockstep {A : Forest → ScopeId → Prop}
    (hA : ∀ i j e, i ≤ j → A i e → A j e) {rules rules' : Rules} (parent : Option ScopeId)
    (hlevels : ∀ w w', c.world w w' → w'.scopeLevels parent = w.scopeLevels parent)
    (hnew : ∀ w w', c.world w w' → k ≤ w.forest → w'.forest.size = w.forest.size ∧
      c.world { w with forest := w.forest.newScope rules w.addons parent }
        { w' with forest := w'.forest.newScope rules' w'.addons parent } ∧
      A (w.forest.newScope rules w.addons parent) w.forest.size)
    (hnames : ∀ w w', c.world w w' → addonFault? w.addons = none ∧ addonFault? w'.addons = none) :
    c.Lockstep k (fun j a b => a = b ∧ A j a)
      (makeScope rules room parent) (makeScope rules' room parent) := by
  unfold makeScope
  refine .get fun w w' hw hkw => ?_
  rw [hlevels w w' hw]
  refine .andThen (.liftSame hfault _) fun i hi => ?_
  refine .bind (A := fun j a b => a = b ∧ A j a) (.modifyGet fun v v' hv hiv => ?_) ?_
  · obtain ⟨hsize, hworld, hA⟩ := hnew v v' hv (le_trans hkw (le_trans hi hiv))
    exact ⟨hworld, v.forest.le_newScope rules v.addons parent, hsize.symm, hA⟩
  · rintro j hj a _ ⟨rfl, ha⟩
    refine .get fun v v' hv hjv => ?_
    obtain ⟨hnone, hnone'⟩ := hnames v v' hv
    rw [hnone, hnone']
    exact .pure fun i hi => ⟨rfl, hA _ _ _ (le_trans hjv hi) ha⟩

/-! ## §3. Add-ons and libraries -/

theorem register_lockstep (key v : Value)
    (hworld : ∀ w w', c.world w w' →
      c.world { w with
          addons := w.addons ++ [(key, v)]
          forest := w.forest.refresh (w.addons ++ [(key, v)])
            (World.reach { w with addons := w.addons ++ [(key, v)] }) }
        { w' with
          addons := w'.addons ++ [(key, v)]
          forest := w'.forest.refresh (w'.addons ++ [(key, v)])
            (World.reach { w' with addons := w'.addons ++ [(key, v)] }) })
    (hobstacle : ∀ w w', c.world w w' → w'.obstacle? = w.obstacle?) :
    c.Lockstep k Anything (register key v) (register key v) := by
  unfold register
  refine .andThen (.modify fun w w' hw _ => ⟨hworld w w' hw, ?_⟩) fun i hi => ?_
  · exact w.forest.le_refresh _ _
  · refine .get fun w w' hw _ => ?_
    rw [hobstacle w w' hw]
    cases w.obstacle? with
    | none => exact .pure fun _ _ => trivial
    | some o => exact .throw (hfault _)

/-- Libraries that do nothing end alike in any two worlds. -/
theorem inert_lockstep {libraries : Libraries} (hlibraries : libraries.Inert) (text : String) :
    c.Lockstep k Anything (libraries text) (libraries text) := by
  obtain ⟨outcome, houtcome⟩ := hlibraries text
  rw [houtcome]
  exact (Lockstep.liftSame hfault outcome).weaken fun _ _ _ _ _ => trivial

/-- Loading a library: the stage notes the drawing library, and every function of that is registered;
    other libraries do nothing. -/
theorem load_lockstep {libraries : Libraries} (hlibraries : libraries.Inert) (text : String)
    (hloads : ∀ w w', c.world w w' → w'.stage.loads = w.stage.loads)
    (hstage : ∀ w w', c.world w w' →
      c.world { w with stage := { w.stage with loads := w.stage.loads + 1, shared := .empty } }
        { w' with stage := { w'.stage with loads := w'.stage.loads + 1, shared := .empty } })
    (hregister : ∀ j, k ≤ j → ∀ (name : String) fn, c.Lockstep j Anything
      (register (.text name) (.nativeValue fn)) (register (.text name) (.nativeValue fn))) :
    c.Lockstep k Anything (Library.load libraries text) (Library.load libraries text) := by
  unfold Library.load
  split
  · refine .andThen (.modify fun w w' hw _ => ⟨hstage w w' hw, le_rfl⟩) fun i hi => ?_
    refine .get fun w w' hw hiw => ?_
    rw [hloads w w' hw]
    refine .forM (R := fun a b => a = b ∧ a ∈ Library.drawingAddons w.stage.loads) ?_
      (List.forall₂_same.2 fun a ha => ⟨rfl, ha⟩)
    rintro j hj a _ ⟨rfl, ha⟩
    obtain ⟨op, -, rfl⟩ := List.mem_map.1 ha
    exact hregister j (le_trans hi (le_trans hiw hj)) op.name _
  · exact inert_lockstep hfault hlibraries text

end Scrawl.Comparison
