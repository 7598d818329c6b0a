/-
  Scrawl.Proofs.Eval.PackedWorlds — worlds in which packed programs run.

  The world of a packed program is that of its source with every value packed.  Everything that
  evaluation does to a world keeps the two in step, as long as the values in it have the shapes of
  values of programs.
-/

import Scrawl.Proofs.Eval.PackedNodes
import Scrawl.Proofs.Eval.WorldSteps

namespace Scrawl

open Comparison (Anything)
open Grammar (IsName)

/-! ## §1. Worlds of programs -/

/-- Whether every value in a world has the shape of a value of a program. -/
structure World.WellShaped (w : World) : Prop where
  /-- Values of variables. -/
  bindings : ∀ {e n d}, w.forest.own? e n = some d → d.value.Shaped w.forest.size
  /-- Add-ons are functions of the language with texts for names. -/
  addons : ∀ a ∈ w.addons, (∃ name, a.1 = .text name) ∧ ∃ fn, a.2 = .nativeValue fn
  /-- Windows were made in scopes that exist. -/
  homes : ∀ {n : Nat} {window : Stage.Window}, w.stage.windows[n]? = some window → window.home < w.forest.size

theorem World.wellShaped_empty (scopeText : String) (files : FileTree) (cues : List Stage.Cue) :
    (World.empty scopeText files cues).WellShaped where
  bindings h := nomatch h
  addons _ h := nomatch h
  homes h := nomatch h

/-- The world of the packed program. -/
def World.packed (w : World) : World := { w with forest := w.forest.mapValues Value.packed }

namespace World.WellShaped

variable {w : World}

/-- Another forest in which all values are of the right shape, or were there before. -/
theorem withForest (h : w.WellShaped) {f : Forest} (hsize : w.forest.size ≤ f.size)
    (hown : ∀ {e n d}, f.own? e n = some d →
      d.value.Shaped f.size ∨ w.forest.own? e n = some d) :
    World.WellShaped { w with forest := f } where
  bindings hd := (hown hd).elim id fun hd => (h.bindings hd).mono hsize
  addons := h.addons
  homes hwindow := Nat.lt_of_lt_of_le (h.homes hwindow) hsize

theorem get? (h : w.WellShaped) {e : ScopeId} {n : Name} {d : Datum}
    (hd : w.forest.get? e n = some d) : d.value.Shaped w.forest.size := by
  obtain ⟨e', -, hown⟩ := List.exists_of_findSome?_eq_some hd
  exact h.bindings hown

/-- What scopes are told of add-ons. -/
theorem addonBindings (h : w.WellShaped) {b : Name × Datum}
    (hb : b ∈ addonBindings w.addons) : ∃ fn, b.2.value = .nativeValue fn := by
  obtain ⟨a, ha, -, hvalue⟩ := mem_addonBindings hb
  obtain ⟨-, fn, hfn⟩ := h.addons a ha
  exact ⟨fn, hvalue.symm.trans hfn⟩

end World.WellShaped

theorem standardBindings_shaped {b : Name × Datum} (hb : b ∈ standardBindings) (k : Nat) :
    b.2.value.Shaped k ∧ b.2.value.packed = b.2.value := by
  obtain ⟨s, hs, rfl⟩ := List.mem_map.1 hb
  dsimp only
  rcases standardNames_values s hs with ⟨fn, h⟩ | ⟨x, h⟩ | h
  · rw [h]; exact ⟨.native fn, rfl⟩
  · rw [h]; exact ⟨.number (.float x), rfl⟩
  · rw [h]; exact ⟨.nothing, rfl⟩

/-- What a new scope sets. -/
theorem World.WellShaped.newBindings {w : World} (h : w.WellShaped) {b : Name × Datum}
    (hb : b ∈ standardBindings ++ Scrawl.addonBindings w.addons) (k : Nat) :
    b.2.value.Shaped k ∧ b.2.value.packed = b.2.value := by
  rcases List.mem_append.1 hb with hb | hb
  · exact standardBindings_shaped hb k
  · obtain ⟨fn, hfn⟩ := h.addonBindings hb
    rw [hfn]
    exact ⟨.native fn, rfl⟩

namespace World.WellShaped

variable {w : World}

/-- Add-ons with texts for names can always be set. -/
theorem nameable (h : w.WellShaped) : ∀ a ∈ w.addons, ∃ n, a.1.toName = .ok n := by
  intro a ha
  obtain ⟨⟨name, hname⟩, -⟩ := h.addons a ha
  exact ⟨.text name, hname ▸ rfl⟩

theorem addonFault?_eq (h : w.WellShaped) : addonFault? w.addons = none :=
  addonFault?_eq_none.2 h.nameable

/-- A name is set. -/
theorem set (h : w.WellShaped) (e : ScopeId) (n : Name) {d : Datum}
    (hd : d.value.Shaped w.forest.size) :
    World.WellShaped { w with forest := w.forest.set e n d } := by
  have hsize := w.forest.size_set e n d
  refine h.withForest (Nat.le_of_eq hsize.symm) fun {e' n' b} hb => ?_
  rcases w.forest.own?_set_cases hb with rfl | hb
  · rw [hsize]
    exact .inl hd
  · exact .inr hb

/-- A scope is made. -/
theorem newScope (h : w.WellShaped) (rules : Rules) (parent : Option ScopeId) :
    World.WellShaped { w with forest := w.forest.newScope rules w.addons parent } := by
  have hsize := w.forest.lt_size_newScope rules w.addons parent
  refine h.withForest (Nat.le_of_lt hsize) fun {e n d} hd => ?_
  rcases w.forest.own?_newScope_cases rules w.addons hd with ⟨b, hb, rfl⟩ | hd
  · exact .inl (h.newBindings hb _).1
  · exact .inr hd

/-- An add-on comes to the others. -/
theorem moreAddons (h : w.WellShaped) (name : String) (fn : Native) :
    World.WellShaped { w with addons := w.addons ++ [(.text name, .nativeValue fn)] } :=
  { h with
    addons := fun a ha => by
      rcases List.mem_append.1 ha with ha | ha
      · exact h.addons a ha
      · obtain rfl := List.mem_singleton.1 ha
        exact ⟨⟨name, rfl⟩, fn, rfl⟩ }

/-- Scopes are told of all add-ons again. -/
theorem refresh (h : w.WellShaped) (count : Nat) :
    World.WellShaped { w with forest := w.forest.refresh w.addons count } := by
  refine h.withForest (Nat.le_of_eq (Forest.size_refresh _ _ _).symm) fun {e n d} hd => ?_
  rcases Forest.own?_refresh_cases _ _ hd with ⟨b, hb, rfl⟩ | hd
  · obtain ⟨fn, hfn⟩ := h.addonBindings hb
    rw [hfn]
    exact .inl (.native fn)
  · exact .inr hd

end World.WellShaped

/-! ## §2. Comparing with packed programs -/

/-- Faults of one kind: the text of a callee is all in which they may differ. -/
inductive Fault.Alike : Fault → Fault → Prop
  /-- The same fault. -/
  | same (f : Fault) : Alike f f
  /-- Wrong numbers of arguments. -/
  | arity (given : Nat) (callee callee' : String) (required : Int) :
      Alike (.wrongArity given callee required) (.wrongArity given callee' required)

/-- Compares the run of a source with that of the packed program; a given fault leaves the
    comparison. -/
def packedComparison (f : Fault) : Comparison where
  world w w' := w' = w.packed ∧ w.WellShaped
  fault := Fault.Alike
  escapes _ g := g = f

/-- A value of a source and that of the packed program, while there is the forest `k`. -/
def Value.Packs (k : Forest) (v v' : Value) : Prop := v.Shaped k.size ∧ v' = v.packed

section Steps

variable {f : Fault} {k : Forest} {e : ScopeId} (room : Room)

theorem packed_lookup (name : Name) :
    (packedComparison f).Lockstep k
      (fun j => Option.Rel fun d d' : Datum => Value.Packs j d.value d'.value ∧ d'.mark = d.mark)
      (lookup room e name) (lookup room e name) := by
  refine Comparison.lookup_lockstep Fault.Alike.same room
    (fun i j d d' hij h => ⟨⟨h.1.1.mono (Forest.size_le_of_le hij), h.1.2⟩, h.2⟩) e name ?_
  rintro w _ ⟨rfl, hw⟩ -
  dsimp only [World.packed]
  rw [Forest.visits_mapValues, Forest.get?_mapValues]
  refine ⟨rfl, ?_⟩
  cases hd : w.forest.get? e name with
  | none => exact .none
  | some d => exact .some ⟨⟨hw.get? hd, rfl⟩, rfl⟩

theorem packed_assign {key : Value} {d d' : Datum} (hkey : IsName key)
    (hd : Value.Packs k d.value d'.value ∧ d'.mark = d.mark) :
    (packedComparison f).Lockstep k Anything (assign room e key d) (assign room e key d') := by
  obtain ⟨s, rfl, -⟩ := hkey
  obtain ⟨⟨hshaped, hvalue⟩, hmark⟩ := hd
  obtain rfl := Datum.eq_map hvalue hmark
  refine Comparison.assign_lockstep Fault.Alike.same room e _ d _ ?_ ?_
  · rintro w _ ⟨rfl, -⟩ n
    exact Forest.visits_mapValues _ _ e n
  · -- a text spells itself, so only the forest changes
    rintro _ ⟨⟩ w _ ⟨rfl, hw⟩ hkw
    refine ⟨?_, hw.set e (.text s) (hshaped.mono (Forest.size_le_of_le hkw))⟩
    show World.mk (Forest.set (w.forest.mapValues _) e _ _) _ _ _ _ _ _ _ = _
    rw [Forest.set_mapValues]
    rfl

/-- Making a scope, by rules that differ only in what they refuse. -/
theorem packed_makeScope {rules rules' : Rules} (hrules : rules'.restores = rules.restores)
    (parent : Option ScopeId) :
    (packedComparison f).Lockstep k (fun j a b => a = b ∧ a < j.size)
      (makeScope rules room parent) (makeScope rules' room parent) := by
  refine Comparison.makeScope_lockstep (A := fun j e => e < j.size) Fault.Alike.same room
    (fun _ _ _ hij => Forest.lt_size_of_le hij) parent ?_ ?_ ?_
  · rintro w _ ⟨rfl, -⟩
    unfold World.scopeLevels World.packed
    simp only [Forest.chain_mapValues]
  · rintro w _ ⟨rfl, hw⟩ -
    refine ⟨w.forest.size_mapValues _, ⟨?_, hw.newScope rules parent⟩,
      w.forest.lt_size_newScope rules w.addons parent⟩
    dsimp only [World.packed]
    rw [Forest.newScope_congr _ _ _ hrules,
      Forest.newScope_mapValues _ _ _ _ _ fun b hb => (hw.newBindings hb 0).2]
  · rintro w _ ⟨rfl, hw⟩
    exact ⟨hw.addonFault?_eq, hw.addonFault?_eq⟩

theorem packed_register (name : String) (fn : Native) :
    (packedComparison f).Lockstep k Anything (register (.text name) (.nativeValue fn))
      (register (.text name) (.nativeValue fn)) := by
  refine Comparison.register_lockstep Fault.Alike.same _ _ ?_ ?_
  · rintro w _ ⟨rfl, hw⟩
    have hmore := hw.moreAddons name fn
    refine ⟨?_, hmore.refresh _⟩
    dsimp only [World.packed]
    rw [← Forest.refresh_mapValues _ _ _ _ fun b hb => ?_]
    · unfold World.reach World.obstacle?
      dsimp only
      rw [Forest.size_mapValues]
    · obtain ⟨fn', hfn'⟩ := hmore.addonBindings hb
      rw [hfn']
      rfl
  · rintro w _ ⟨rfl, -⟩
    rfl

theorem packed_load {libraries : Libraries} (hlibraries : libraries.Inert) (text : String) :
    (packedComparison f).Lockstep k Anything (Library.load libraries text)
      (Library.load libraries text) := by
  refine Comparison.load_lockstep Fault.Alike.same hlibraries text ?_ ?_ fun j _ name fn =>
    packed_register name fn
  · rintro w _ ⟨rfl, -⟩
    rfl
  · rintro w _ ⟨rfl, hw⟩
    exact ⟨rfl, { hw with homes := hw.homes }⟩

end Steps

end Scrawl
