/-
  Scrawl.Proofs.Eval.Histories — hosts that register functions of programs as add-ons.

  An add-on may be any value, also a function that a program has made.  Such a function can be called
  under every outermost scope, so functions do get out of the part of the forest where they were made;
  but each of them still remembers a scope that exists (`World.Housed`), and that is enough for the
  world to evolve through whatever a host does (`History.housed`).
-/

import Scrawl.Proofs.Eval.Reachable

namespace Scrawl

open Comparison (Anything)

/-! ## §1. Housed worlds -/

/-- Every function in a world, add-ons included, remembers a scope that exists, and so does every
    window. -/
structure World.Housed (w : World) : Prop where
  /-- Values of variables. -/
  bindings : ∀ {e n d}, w.forest.own? e n = some d → d.value.Callable (· < w.forest.size)
  /-- Add-ons, which have names. -/
  addons : ∀ a ∈ w.addons, (∃ n, a.1.toName = .ok n) ∧ a.2.Callable (· < w.forest.size)
  /-- Windows. -/
  homes : ∀ {n : Nat} {window : Stage.Window}, w.stage.windows[n]? = some window →
    window.home < w.forest.size
  /-- No scope was to lie in what is no scope. -/
  stray : w.stray = none

namespace World.Housed

variable {w : World}

theorem empty (scopeText : String) (files : FileTree) (cues : List Stage.Cue) :
    (World.empty scopeText files cues).Housed where
  bindings h := nomatch h
  addons _ h := nomatch h
  homes h := nomatch h
  stray := rfl

theorem nameable (h : w.Housed) : ∀ a ∈ w.addons, ∃ n, a.1.toName = .ok n :=
  fun a ha => (h.addons a ha).1

/-- Nothing keeps add-ons from being set. -/
theorem obstacle?_eq (h : w.Housed) : w.obstacle? = none := by
  unfold World.obstacle?
  rw [addonFault?_eq_none.2 h.nameable, h.stray]
  rfl

/-- Another forest, with more scopes and with values that remember scopes of it. -/
theorem withForest (h : w.Housed) {f : Forest} (hsize : w.forest.size ≤ f.size)
    (hown : ∀ {e n d}, f.own? e n = some d →
      d.value.Callable (· < f.size) ∨ w.forest.own? e n = some d) :
    World.Housed { w with forest := f } where
  bindings hd := (hown hd).elim id fun hd =>
    (h.bindings hd).mono fun _ he => Nat.lt_of_lt_of_le he hsize
  addons a ha := ⟨(h.addons a ha).1, (h.addons a ha).2.mono fun _ he => Nat.lt_of_lt_of_le he hsize⟩
  homes hwindow := Nat.lt_of_lt_of_le (h.homes hwindow) hsize
  stray := h.stray

theorem withAddon (h : w.Housed) {key v : Value} {n : Name} (hkey : key.toName = .ok n)
    (hv : v.Callable (· < w.forest.size)) :
    World.Housed { w with addons := w.addons ++ [(key, v)] } :=
  { h with
    addons := fun a ha => by
      rcases List.mem_append.1 ha with ha | ha
      · exact h.addons a ha
      · obtain rfl := List.mem_singleton.1 ha
        exact ⟨⟨n, hkey⟩, hv⟩ }

theorem newScope (h : w.Housed) (rules : Rules) (parent : Option ScopeId) :
    World.Housed { w with forest := w.forest.newScope rules w.addons parent } := by
  have hsize : w.forest.size ≤ (w.forest.newScope rules w.addons parent).size :=
    Nat.le_of_lt (w.forest.lt_size_newScope rules w.addons parent)
  refine h.withForest hsize fun {e n d} hd => ?_
  rcases w.forest.own?_newScope_cases rules w.addons hd with ⟨b, hb, rfl⟩ | hd
  · exact .inl ((newBindings_callable (fun a ha => (h.addons a ha).2) hb).mono
      fun _ he => Nat.lt_of_lt_of_le he hsize)
  · exact .inr hd

/-- Registering reaches every scope, and hands out only what was registered. -/
theorem refresh (h : w.Housed) :
    w.reach = w.forest.size ∧
      World.Housed { w with forest := w.forest.refresh w.addons w.forest.size } := by
  refine ⟨?_, h.withForest (Nat.le_of_eq (w.forest.size_refresh _ _).symm) fun {e n d} hd => ?_⟩
  · unfold World.reach
    rw [h.obstacle?_eq]
    rfl
  · rcases Forest.own?_refresh_cases _ _ hd with ⟨b, hb, rfl⟩ | hd
    · rw [Forest.size_refresh]
      exact .inl (addonBindings_callable (fun a ha => (h.addons a ha).2) hb)
    · exact .inr hd

theorem set (h : w.Housed) (e : ScopeId) (key : Value) (n : Name) {d : Datum}
    (hd : d.value.Callable (· < w.forest.size)) :
    World.Housed { w.noteSpelling e n key with forest := w.forest.set e n d } := by
  obtain ⟨spellings, hspellings⟩ := w.noteSpelling_eq e n key
  rw [hspellings]
  have hspelt : World.Housed { w with spellings } := { h with }
  refine hspelt.withForest (Nat.le_of_eq (w.forest.size_set e n d).symm) fun {x m d'} hd' => ?_
  rcases w.forest.own?_set_cases hd' with rfl | hd'
  · rw [Forest.size_set]
    exact .inl hd
  · exact .inr hd'

end World.Housed

/-! ## §2. Evaluation keeps worlds housed -/

/-- A housed world that has evolved from where it started. -/
def housing (start : World) (rules : Rules) : Condition where
  rules := rules
  rules' := rules
  escapes _ _ := False
  world w := w.Housed ∧ Evolves start w
  good _ := True
  assignable _ := True

section Steps

variable {start : World} {rules : Rules} {k : Forest}

theorem housing_register {key v : Value} {n : Name} (hkey : key.toName = .ok n)
    (hv : ∀ inside, v.Callable inside) :
    (housing start rules).comparison.Lockstep k Anything (register key v) (register key v) := by
  refine Comparison.register_lockstep (fun _ => rfl) key v ?_ ?_
  · rintro w _ ⟨rfl, hw, hstart⟩
    obtain ⟨hreach, hhoused⟩ := (hw.withAddon hkey (hv _)).refresh
    rw [hreach]
    exact ⟨rfl, hhoused, hstart.tail (.register hkey rfl rfl)⟩
  · rintro w _ ⟨rfl, -⟩
    rfl

theorem housing_load {libraries : Libraries} (hlibraries : libraries.Inert) (text : String) :
    (housing start rules).comparison.Lockstep k Anything (Library.load libraries text)
      (Library.load libraries text) := by
  refine Comparison.load_lockstep (fun _ => rfl) hlibraries text ?_ ?_ fun j _ name fn =>
    housing_register rfl (Value.callable_tagged (by decide) _)
  · rintro w _ ⟨rfl, -⟩
    rfl
  · rintro w _ ⟨rfl, hw, hstart⟩
    exact ⟨rfl, { hw with homes := hw.homes }, hstart.tail (.aside rfl rfl)⟩

theorem housing_makeScope (room : Room) {parent : Option ScopeId}
    (hparent : ∀ p, parent = some p → p < k.size) :
    (housing start rules).comparison.Lockstep k (fun j a b => a = b ∧ a < j.size)
      (makeScope rules room parent) (makeScope rules room parent) := by
  refine Comparison.makeScope_lockstep (A := fun j e => e < j.size) (fun _ => rfl) room
    (fun _ _ _ hij => Forest.lt_size_of_le hij) parent ?_ ?_ ?_
  · rintro w _ ⟨rfl, -⟩
    rfl
  · rintro w _ ⟨rfl, hw, hstart⟩ hkw
    have hchange : Change w { w with forest := w.forest.newScope rules w.addons parent } :=
      .scope (fun p hp => Forest.lt_size_of_le hkw (hparent p hp)) rfl rfl
    exact ⟨rfl, ⟨rfl, hw.newScope rules parent, hstart.tail hchange⟩,
      w.forest.lt_size_newScope rules w.addons parent⟩
  · rintro w _ ⟨rfl, hw, -⟩
    have hnone := addonFault?_eq_none.2 hw.nameable
    exact ⟨hnone, hnone⟩

end Steps

/-- **Evaluation keeps worlds housed**, and evolves them. -/
def housingInvariant (start : World) {rules : Rules} (h : ∀ action, rules.refuses action = none)
    (hlibraries : rules.libraries.Inert) : Invariant where
  toCondition := housing start rules
  fault_refl _ := rfl
  rounds_eq := rfl
  closed := Condition.closed_of_all _ (fun _ => trivial) (fun _ => trivial) (fun _ => trivial)
    fun _ => trivial
  inside_mono hjk he := Forest.lt_size_of_le hjk he
  home_mono hjk he := Forest.lt_size_of_le hjk he
  home_inside he := he
  found hw _ hd := by
    obtain ⟨x, -, hown⟩ := List.exists_of_findSome?_eq_some hd
    exact ⟨hw.1.bindings hown, trivial⟩
  nameable hw := hw.1.nameable
  homes _ _ _ _ hw hwindow := hw.1.homes hwindow
  print _ hw := ⟨{ hw.1 with }, hw.2.tail (.aside rfl rfl)⟩
  stage _ hw hhomes :=
    ⟨{ hw.1 with homes := fun hwindow => hhomes _ _ hwindow }, hw.2.tail (.aside rfl rfl)⟩
  set {w e key n d} hw he _ _ hd := by
    refine ⟨hw.1.set e key n hd.1, hw.2.tail (.set he rfl ?_)⟩
    obtain ⟨spellings, hspellings⟩ := w.noteSpelling_eq e n key
    rw [hspellings]
  scope {w p} hw hp :=
    ⟨rfl, ⟨hw.1.newScope rules (some p),
      hw.2.tail (.scope (fun _ hq => Option.some.inj hq ▸ hp) rfl rfl)⟩,
      w.forest.lt_size_newScope rules w.addons (some p)⟩
  calls _ fn args _ := .inr ⟨h _, h _⟩
  source _ text := .inr ⟨⟨h _, h _⟩, fun _ _ => trivial⟩
  load _ _ text := .inr ⟨⟨h _, h _⟩, housing_load hlibraries text⟩

/-- A run in lockstep with itself leaves a housed world, evolved from where it started. -/
theorem housed_after {α : Type} {A : Forest → α → α → Prop} (rules : Rules) {x : Run α} {w : World}
    (h : (housing w rules).comparison.Lockstep w.forest A x x) (hw : w.Housed) :
    (x.after w).Housed ∧ Evolves w (x.after w) := by
  have hagrees := h w w ⟨rfl, hw, .refl⟩ le_rfl
  unfold Run.after
  generalize x w = r at hagrees
  cases hagrees with
  | ok hw' _ _ => exact hw'.2
  | error hw' _ _ => exact hw'.2
  | escape hescape => exact hescape.elim

/-! ## §3. Histories -/

/-- Registering an add-on under a name reaches every scope where nothing is in the way. -/
theorem register_eq {w : World} {key : Value} {n : Name} (hkey : key.toName = .ok n)
    (hnameable : ∀ a ∈ w.addons, ∃ n, a.1.toName = .ok n) (hstray : w.stray = none) (v : Value) :
    register key v w
      = .ok () { w with
          addons := w.addons ++ [(key, v)]
          forest := w.forest.refresh (w.addons ++ [(key, v)]) w.forest.size } := by
  have hnames : addonFault? (w.addons ++ [(key, v)]) = none := by
    refine addonFault?_eq_none.2 fun a ha => ?_
    rcases List.mem_append.1 ha with ha | ha
    · exact hnameable a ha
    · obtain rfl := List.mem_singleton.1 ha
      exact ⟨n, hkey⟩
  have hobstacle : ∀ f, World.obstacle? { w with addons := w.addons ++ [(key, v)], forest := f }
      = none := by
    intro f
    unfold World.obstacle?
    rw [hnames, hstray]
    rfl
  have hreach : World.reach { w with addons := w.addons ++ [(key, v)] } = w.forest.size := by
    unfold World.reach
    rw [hobstacle w.forest]
    rfl
  rw [← hreach]
  unfold register
  refine (Run.bind_of_ok rfl _).trans ((Run.bind_of_ok rfl _).trans ?_)
  dsimp only
  rw [hobstacle]
  rfl

/-- What a host can do to a world, if it may also register functions of programs. -/
inductive Act : World → World → Prop
  /-- Anything that it can do without. -/
  | step {w w' : World} (h : Step w w') : Act w w'
  /-- Registers any value as an add-on; if that is a function of a program, it remembers a scope that
      exists. -/
  | register {w : World} {key v : Value} {n : Name} (hkey : key.toName = .ok n)
      (hv : v.Callable (· < w.forest.size)) : Act w ((register key v).after w)

/-- Any number of things such a host does. -/
abbrev History : World → World → Prop := Relation.ReflTransGen Act

theorem Step.housed {w w' : World} (h : Step w w') (hw : w.Housed) :
    w'.Housed ∧ Evolves w w' := by
  -- evaluation by rules that refuse nothing, wherever a window may have been made
  have hrefuses : ∀ rounds libraries action,
      Rules.refuses { rounds, restores := true, libraries } action = none := fun _ _ _ => rfl
  have hcover : ∀ rounds {libraries : Libraries} (hlibraries : libraries.Inert),
      Invariant.Cover fun _ : Unit =>
        housingInvariant w (hrefuses rounds libraries) hlibraries :=
    fun rounds _ hlibraries => Invariant.cover_self _ id
  cases h with
  | makeScope rounds libraries room parent hparent =>
    exact housed_after _ (housing_makeScope room hparent) hw
  | runText rounds depth hlibraries room he text =>
    exact housed_after _ ((hcover rounds hlibraries).runText_lockstep () depth room he
      fun _ _ => trivial) hw
  | evalItems rounds depth hlibraries room he tree =>
    exact housed_after _ ((hcover rounds hlibraries).evalItems_lockstep () depth room he
      fun _ _ _ _ => trivial) hw
  | eval rounds depth hlibraries room he node =>
    exact housed_after _ ((hcover rounds hlibraries).eval_lockstep () depth room he trivial) hw
  | play rounds depth hlibraries room window cue =>
    exact housed_after _ ((hcover rounds hlibraries).play_lockstep () depth room
      (Rules.draws_of_refuses fun _ => rfl) window cue) hw
  | register hkey hv =>
    exact housed_after .standard
      (housing_register hkey fun _ htag => absurd htag hv) hw
  | load hlibraries text => exact housed_after .standard (housing_load hlibraries text) hw
  | merge e other all =>
    -- merging looks at the scopes and either fails or does nothing
    refine housed_after .standard (A := Anything) ?_ hw
    refine .get ?_
    rintro v _ ⟨rfl, -⟩ -
    dsimp only
    split
    · exact .throw rfl
    · exact .pure fun _ _ => trivial

/-- **Whatever a host does, a housed world stays housed and evolves.** -/
theorem Act.housed {w w' : World} (h : Act w w') (hw : w.Housed) : w'.Housed ∧ Evolves w w' := by
  cases h with
  | step h => exact h.housed hw
  | @register key v _ hkey hv =>
    have hafter : (Scrawl.register key v).after w
        = { w with
            addons := w.addons ++ [(key, v)]
            forest := w.forest.refresh (w.addons ++ [(key, v)]) w.forest.size } := by
      unfold Run.after
      rw [register_eq hkey hw.nameable hw.stray v]
    rw [hafter]
    exact ⟨(hw.withAddon hkey hv).refresh.2, .single (.register hkey rfl rfl)⟩

theorem History.housed {w w' : World} (h : History w w') (hw : w.Housed) :
    w'.Housed ∧ Evolves w w' := by
  induction h with
  | refl => exact ⟨hw, .refl⟩
  | tail _ hact ih =>
    obtain ⟨hhoused, hevolves⟩ := hact.housed ih.1
    exact ⟨hhoused, ih.2.trans hevolves⟩

/-- A world that a host has brought about from nothing is housed, and the laws of scopes hold in
    it. -/
theorem History.lawful {scopeText : String} {files : FileTree} {cues : List Stage.Cue} {w : World}
    (h : History (World.empty scopeText files cues) w) : w.Housed ∧ w.Standing := by
  obtain ⟨hhoused, hevolves⟩ := h.housed (World.Housed.empty scopeText files cues)
  exact ⟨hhoused, hevolves.standing (World.standing_empty scopeText files cues)⟩

end Scrawl
