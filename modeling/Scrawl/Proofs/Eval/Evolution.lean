/-
  Scrawl.Proofs.Eval.Evolution — running programs changes worlds step by step.

  A function in circulation remembers a scope that exists (`World.Sound`), under the same outermost
  scope as the one in which it is bound (`World.Rooted`).  So every scope that evaluation makes lies
  in one that exists, and all that evaluation does to the scopes and add-ons of a world is a
  sequence of changes (`evolutionInvariant`).
-/

import Scrawl.Proofs.Eval.Invariant
import Scrawl.Proofs.Scope.Evolution
import Scrawl.Proofs.Scope.Regions

namespace Scrawl

open Comparison (Anything)

/-! ## §1. Sound worlds -/

/-- What is bound for add-ons that are no functions of the program is none. -/
theorem addonBindings_callable {addons : List (Value × Value)} {inside : ScopeId → Prop}
    (h : ∀ a ∈ addons, a.2.Callable inside) {b : Name × Datum} (hb : b ∈ addonBindings addons) :
    b.2.value.Callable inside := by
  obtain ⟨a, ha, -, hvalue⟩ := mem_addonBindings hb
  exact hvalue ▸ h a ha

/-- Neither is anything that a new scope sets. -/
theorem newBindings_callable {addons : List (Value × Value)} {inside : ScopeId → Prop}
    (h : ∀ a ∈ addons, a.2.Callable inside) {b : Name × Datum}
    (hb : b ∈ standardBindings ++ addonBindings addons) : b.2.value.Callable inside := by
  rcases List.mem_append.1 hb with hb | hb
  · obtain ⟨s, hs, rfl⟩ := List.mem_map.1 hb
    dsimp only
    rcases standardNames_values s hs with ⟨fn, h⟩ | ⟨x, h⟩ | h
    · rw [h]; exact Value.callable_tagged (by decide) _ _
    · rw [h]; exact Value.callable_tagged (by decide) _ _
    · rw [h]; exact Value.callable_tagged (by decide) _ _
  · exact addonBindings_callable h hb

/-- Every function in a world remembers a scope that exists, and so does every window. -/
structure World.Sound (w : World) : Prop where
  /-- Values of variables. -/
  bindings : ∀ {e n d}, w.forest.own? e n = some d → d.value.Callable (· < w.forest.size)
  /-- Add-ons have names and are no functions of the program. -/
  addons : ∀ a ∈ w.addons, (∃ n, a.1.toName = .ok n) ∧ ∀ inside, a.2.Callable inside
  /-- Windows. -/
  homes : ∀ {n : Nat} {window : Stage.Window}, w.stage.windows[n]? = some window →
    window.home < w.forest.size
  /-- No scope was to lie in what is no scope. -/
  stray : w.stray = none

namespace World.Sound

variable {w : World}

theorem withForest (h : w.Sound) {f : Forest} (hsize : w.forest.size ≤ f.size)
    (hown : ∀ {e n d}, f.own? e n = some d →
      d.value.Callable (· < f.size) ∨ w.forest.own? e n = some d) :
    World.Sound { w with forest := f } where
  bindings hd := (hown hd).elim id fun hd => (h.bindings hd).mono fun _ he => Nat.lt_of_lt_of_le he hsize
  addons := h.addons
  homes hwindow := Nat.lt_of_lt_of_le (h.homes hwindow) hsize
  stray := h.stray

theorem addonBindings (h : w.Sound) {b : Name × Datum} (hb : b ∈ addonBindings w.addons)
    (inside : ScopeId → Prop) : b.2.value.Callable inside :=
  addonBindings_callable (fun a ha => (h.addons a ha).2 inside) hb

/-- What a new scope sets. -/
theorem newBindings (h : w.Sound) {b : Name × Datum}
    (hb : b ∈ standardBindings ++ Scrawl.addonBindings w.addons) (inside : ScopeId → Prop) :
    b.2.value.Callable inside :=
  newBindings_callable (fun a ha => (h.addons a ha).2 inside) hb

/-- Nothing keeps add-ons from being set. -/
theorem obstacle?_eq (h : w.Sound) : w.obstacle? = none := by
  unfold World.obstacle?
  rw [addonFault?_eq_none.2 fun a ha => (h.addons a ha).1, h.stray]
  rfl

end World.Sound

theorem World.sound_empty (scopeText : String) (files : FileTree) (cues : List Stage.Cue) :
    (World.empty scopeText files cues).Sound where
  bindings h := nomatch h
  addons _ h := nomatch h
  homes h := nomatch h
  stray := rfl

/-- A sound world in which no function gets out of the part of the forest where it was made. -/
structure World.Rooted (w : World) : Prop extends w.Sound where
  /-- Every scope lies under an outermost one. -/
  places : ∀ {e}, e < w.forest.size → ∃ r, w.forest.Under r e
  /-- A function remembers a scope under the same outermost scope as the one in which it is
      bound. -/
  kin : ∀ {e n d r}, w.forest.own? e n = some d → w.forest.Under r e →
    d.value.Callable (w.forest.Under r)

theorem World.rooted_empty (scopeText : String) (files : FileTree) (cues : List Stage.Cue) :
    (World.empty scopeText files cues).Rooted where
  toSound := World.sound_empty scopeText files cues
  places h := nomatch h
  kin h := nomatch h

/-- Another forest, with more scopes and values that stay where they belong. -/
theorem World.Rooted.withForest {w : World} (h : w.Rooted) {f : Forest} (hgrown : w.forest ≤ f)
    (hplaces : ∀ {e}, w.forest.size ≤ e → e < f.size → ∃ r, f.Under r e)
    (hown : ∀ {e n d}, f.own? e n = some d →
      (∀ {r}, f.Under r e → d.value.Callable (f.Under r)) ∨ w.forest.own? e n = some d) :
    World.Rooted { w with forest := f } := by
  have hplace : ∀ {e}, e < f.size → ∃ r, f.Under r e := by
    intro e he
    by_cases hold : e < w.forest.size
    · obtain ⟨r, hr⟩ := h.places hold
      exact ⟨r, hr.mono hgrown⟩
    · exact hplaces (Nat.le_of_not_lt hold) he
  have hkin : ∀ {e n d r}, f.own? e n = some d → f.Under r e →
      d.value.Callable (f.Under r) := by
    intro e n d r hd hr
    rcases hown hd with hnew | hold
    · exact hnew hr
    · -- a scope that was there before lies under the outermost scope that it lay under
      obtain ⟨r', hr'⟩ := h.places (Forest.lt_size_of_own? hold)
      obtain rfl := hr.unique (hr'.mono hgrown)
      exact (h.kin hold hr').mono fun _ => Forest.Under.mono hgrown
  refine ⟨h.toSound.withForest (Forest.size_le_of_le hgrown) fun {e n d} hd => .inl ?_, hplace, hkin⟩
  obtain ⟨r, hr⟩ := hplace (Forest.lt_size_of_own? hd)
  exact (hkin hd hr).mono fun _ => Forest.Under.lt_size

/-! ## §2. The invariant -/

/-- Rules that refuse more than others, always with a given fault, and are the same otherwise. -/
structure Rules.Restricts (rules rules' : Rules) (f : Fault) : Prop where
  /-- Loops may go round equally often. -/
  rounds : rules'.rounds = rules.rounds
  /-- Names are set again by both or by neither. -/
  restores : rules'.restores = rules.restores
  /-- Libraries are the same. -/
  libraries : rules'.libraries = rules.libraries
  /-- They do nothing, if they may be loaded at all. -/
  inert : rules.Loads → rules.libraries.Inert
  /-- What is not refused by the first is refused by neither. -/
  refuses : ∀ action,
    rules.refuses action = some f ∨ rules.refuses action = none ∧ rules'.refuses action = none

/-- Compares runs in rooted worlds that have evolved from where they started. -/
def evolutionComparison (start : World) (f : Fault) : Comparison where
  world w w' := w = w' ∧ w.Rooted ∧ Evolves start w
  fault := Eq
  escapes _ g := g = f

/-- A rooted world that has evolved from where it started, for evaluation under one outermost
    scope. -/
def evolution (start : World) (rules rules' : Rules) (f : Fault) (root : ScopeId) : Condition where
  rules := rules
  rules' := rules'
  escapes _ g := g = f
  world w := w.Rooted ∧ Evolves start w
  inside k e := k.Under root e
  home k e := ∃ r, k.Under r e
  good _ := True
  assignable _ := True

section Steps

variable {start w : World} {rules rules' : Rules} {f : Fault} {k : Forest}

theorem evolution_newScope (h : w.Rooted) (hstart : Evolves start w) (rules : Rules)
    {parent : Option ScopeId} (hparent : ∀ p, parent = some p → p < w.forest.size) :
    World.Rooted { w with forest := w.forest.newScope rules w.addons parent } ∧
      Evolves start { w with forest := w.forest.newScope rules w.addons parent } := by
  have hgrown := w.forest.le_newScope rules w.addons parent
  have hnew : (w.forest.newScope rules w.addons parent).parent? w.forest.size = some parent := by
    rw [Forest.parent?_newScope, if_pos rfl]
  refine ⟨h.withForest hgrown (fun {e} hle hlt => ?_) fun {e n d} hd => ?_,
    hstart.tail (.scope hparent rfl rfl)⟩
  · -- only one scope is new
    rw [Forest.size_newScope] at hlt
    obtain rfl : e = w.forest.size := Nat.le_antisymm (Nat.le_of_lt_succ hlt) hle
    cases parent with
    | none => exact ⟨_, .root hnew⟩
    | some p =>
      obtain ⟨r, hr⟩ := h.places (hparent p rfl)
      exact ⟨r, .child hnew (hr.mono hgrown)⟩
  · rcases w.forest.own?_newScope_cases rules w.addons hd with ⟨b, hb, rfl⟩ | hd
    · exact .inl fun _ => h.newBindings hb _
    · exact .inr hd

/-- Making a scope, outermost or inside one that exists. -/
theorem evolution_makeScope (rules : Rules) (room : Room) {parent : Option ScopeId}
    (hparent : ∀ p, parent = some p → p < k.size) :
    (evolutionComparison start f).Lockstep k (fun j a b => a = b ∧ a < j.size)
      (makeScope rules room parent) (makeScope rules room parent) := by
  refine Comparison.makeScope_lockstep (A := fun j e => e < j.size) (fun _ => rfl) room
    (fun _ _ _ hij => Forest.lt_size_of_le hij) parent ?_ ?_ ?_
  · rintro w _ ⟨rfl, -⟩
    rfl
  · rintro w _ ⟨rfl, hw, hstart⟩ hkw
    exact ⟨rfl, ⟨rfl, evolution_newScope hw hstart rules fun p hp =>
      Forest.lt_size_of_le hkw (hparent p hp)⟩, w.forest.lt_size_newScope rules w.addons parent⟩
  · rintro w _ ⟨rfl, hw, -⟩
    have hnone := addonFault?_eq_none.2 fun a ha => (hw.addons a ha).1
    exact ⟨hnone, hnone⟩

theorem evolution_register {key v : Value} {n : Name} (hkey : key.toName = .ok n)
    (hv : ∀ inside, v.Callable inside) :
    (evolutionComparison start f).Lockstep k Anything (register key v) (register key v) := by
  refine Comparison.register_lockstep (fun _ => rfl) key v ?_ ?_
  · rintro w _ ⟨rfl, hw, hstart⟩
    have hmore : World.Rooted { w with addons := w.addons ++ [(key, v)] } :=
      { hw with
        addons := fun a ha => by
          rcases List.mem_append.1 ha with ha | ha
          · exact hw.addons a ha
          · obtain rfl := List.mem_singleton.1 ha
            exact ⟨⟨n, hkey⟩, hv⟩ }
    -- nothing is in the way, so every scope gets to know it
    have hreach : World.reach { w with addons := w.addons ++ [(key, v)] } = w.forest.size := by
      unfold World.reach
      rw [hmore.obstacle?_eq]
      rfl
    rw [hreach]
    refine ⟨rfl, hmore.withForest (w.forest.le_refresh _ _) (fun {e} hle hlt => ?_)
      fun {e n d} hd => ?_, hstart.tail (.register hkey rfl rfl)⟩
    · rw [Forest.size_refresh] at hlt
      exact absurd hlt (Nat.not_lt_of_le hle)
    · rcases Forest.own?_refresh_cases _ _ hd with ⟨b, hb, rfl⟩ | hd
      · exact .inl fun _ => hmore.addonBindings hb _
      · exact .inr hd
  · rintro w _ ⟨rfl, -⟩
    rfl

theorem evolution_load {libraries : Libraries} (hlibraries : libraries.Inert) (text : String) :
    (evolutionComparison start f).Lockstep k Anything (Library.load libraries text)
      (Library.load libraries text) := by
  refine Comparison.load_lockstep (fun _ => rfl) hlibraries text ?_ ?_ fun j _ name fn =>
    evolution_register rfl (Value.callable_tagged (by decide) _)
  · rintro w _ ⟨rfl, -⟩
    rfl
  · rintro w _ ⟨rfl, hw, hstart⟩
    exact ⟨rfl, { hw with homes := hw.homes }, hstart.tail (.aside rfl rfl)⟩

theorem evolution_set (h : w.Rooted) (hstart : Evolves start w) {root e : ScopeId}
    (he : w.forest.Under root e) (key : Value) (n : Name) {d : Datum}
    (hd : d.value.Callable (w.forest.Under root)) :
    World.Rooted { w.noteSpelling e n key with forest := w.forest.set e n d } ∧
      Evolves start { w.noteSpelling e n key with forest := w.forest.set e n d } := by
  obtain ⟨spellings, hspellings⟩ := w.noteSpelling_eq e n key
  rw [hspellings]
  have hspelt : World.Rooted { w with spellings } := { h with }
  have hgrown := w.forest.le_set e n d
  refine ⟨hspelt.withForest hgrown (fun {x} hle hlt => ?_) fun {x m d'} hd' => ?_,
    hstart.tail (.set he.lt_size rfl rfl)⟩
  · rw [Forest.size_set] at hlt
    exact absurd hlt (Nat.not_lt_of_le hle)
  · -- what is set is set under the same outermost scope
    rcases (Forest.Under.closedOutwards w.forest root).own?_set he hd' with ⟨hx, rfl⟩ | hd'
    · refine .inl fun {r} hr => ?_
      obtain rfl := hr.unique (hx.mono hgrown)
      exact hd.mono fun _ => Forest.Under.mono hgrown
    · exact .inr hd'

end Steps

/-- **Evaluation evolves the world it started in**, and goes the same way by rules that refuse
    less, until something is refused. -/
def evolutionInvariant (start : World) {rules rules' : Rules} {f : Fault}
    (h : rules.Restricts rules' f) (root : ScopeId) : Invariant where
  toCondition := evolution start rules rules' f root
  fault_refl _ := rfl
  rounds_eq := h.rounds
  closed := Condition.closed_of_all _ (fun _ => trivial) (fun _ => trivial) (fun _ => trivial)
    fun _ => trivial
  inside_mono hjk he := he.mono hjk
  home_mono hjk := fun ⟨r, hr⟩ => ⟨r, hr.mono hjk⟩
  home_inside he := ⟨root, he⟩
  found hw he hd := by
    obtain ⟨x, hx, hown⟩ := (Forest.Under.closedOutwards _ root).get? he hd
    exact ⟨hw.1.kin hown hx, trivial⟩
  nameable hw a ha := (hw.1.addons a ha).1
  homes _ _ _ _ hw hwindow := hw.1.places (hw.1.homes hwindow)
  print _ hw := ⟨{ hw.1 with }, hw.2.tail (.aside rfl rfl)⟩
  stage _ hw hhomes :=
    ⟨{ hw.1 with homes := fun hwindow => (hhomes _ _ hwindow).elim fun _ hr => hr.lt_size },
      hw.2.tail (.aside rfl rfl)⟩
  set hw he _ _ hd := evolution_set hw.1 hw.2 he _ _ hd.1
  scope {w p} hw hp := by
    refine ⟨w.forest.newScope_congr _ _ h.restores _,
      evolution_newScope hw.1 hw.2 rules fun _ hq => Option.some.inj hq ▸ hp.lt_size, ?_⟩
    have hparent : (w.forest.newScope rules w.addons (some p)).parent? w.forest.size
        = some (some p) := by
      rw [Forest.parent?_newScope, if_pos rfl]
    exact .child hparent (hp.mono (w.forest.le_newScope rules w.addons (some p)))
  calls k fn args _ := Condition.stops_or_permits (fun _ => rfl) (h.refuses (.call fn args)) k
  source k text := (Condition.stops_or_permits (fun _ => rfl) (h.refuses (.source text)) k).imp id
    fun hpermits => ⟨hpermits, fun _ _ => trivial⟩
  load hloads k text :=
    (Condition.stops_or_permits (fun _ => rfl) (h.refuses (.load text)) k).imp id fun hpermits => by
      refine ⟨hpermits, ?_⟩
      show Comparison.Lockstep _ k Anything (Library.load rules.libraries text)
        (Library.load rules'.libraries text)
      rw [h.libraries]
      exact evolution_load (h.inert hloads) text

/-- Every scope, and so every window's, lies under an outermost scope. -/
theorem evolution_cover (start : World) {rules rules' : Rules} {f : Fault}
    (h : rules.Restricts rules' f) : Invariant.Cover (evolutionInvariant start h) :=
  ⟨fun _ _ => rfl, fun _ _ => ⟨rfl, rfl⟩, fun hhome => hhome⟩

/-! ## §3. Whole runs -/

/-- Rules that refuse nothing. -/
theorem Rules.restricts_self {rules : Rules} (h : ∀ action, rules.refuses action = none)
    (hlibraries : rules.libraries.Inert) (f : Fault) : rules.Restricts rules f :=
  ⟨rfl, rfl, rfl, fun _ => hlibraries, fun action => .inr ⟨h action, h action⟩⟩

/-- A run in lockstep with itself leaves a rooted world, evolved from where it started. -/
theorem evolves_after {α : Type} {A : Fault → Forest → α → α → Prop} {x : Run α} {w : World}
    (h : ∀ f, (evolutionComparison w f).Lockstep w.forest (A f) x x) (hw : w.Rooted) :
    (x.after w).Rooted ∧ Evolves w (x.after w) :=
  Run.holds_after (P := fun u => u.Rooted ∧ Evolves w u)
    fun f => h f w w ⟨rfl, hw, .refl⟩ le_rfl

/-- Refusing actions with one fault or another differs only where they are refused. -/
theorem Rules.restricts_refusing {rules rules' : Rules} {forbidden : Action → Bool} (f : Fault)
    (h : ∀ action, rules.refuses action = none)
    (h' : ∀ action, forbidden action = false → rules'.refuses action = none)
    (hrounds : rules'.rounds = rules.rounds) (hrestores : rules'.restores = rules.restores)
    (hlibraries : rules'.libraries = rules.libraries) (hinert : rules.libraries.Inert) :
    (rules.refusing forbidden f).Restricts rules' f := by
  refine ⟨hrounds, hrestores, hlibraries, fun _ => hinert, fun action => ?_⟩
  unfold Rules.refusing
  cases hforbidden : forbidden action with
  | true => exact .inl (if_pos hforbidden)
  | false => exact .inr ⟨by simp [hforbidden, h], h' action hforbidden⟩

/-- **A run that is not stopped avoids what is forbidden.**  It is enough to look at one fault. -/
theorem avoids_runText {forbidden : Action → Bool} {rules : Rules}
    (hrefuses : ∀ action, rules.refuses action = none) (hlibraries : rules.libraries.Inert)
    {depth : Nat} {room : Room} {e : ScopeId} {text : String} {w : World} (hw : w.Rooted)
    (he : e < w.forest.size) {f : Fault}
    (h : ∀ w', runText (eval (rules.refusing forbidden f) depth) room e text w ≠ .error f w') :
    Avoids forbidden rules (fun rules => runText (eval rules depth) room e text) w := by
  -- the run by any rules that refuse less is the one that was not stopped
  have hsame : ∀ rules', (rules.refusing forbidden f).Restricts rules' f →
      runText (eval rules' depth) room e text w
        = runText (eval (rules.refusing forbidden f) depth) room e text w := by
    intro rules' hrules
    obtain ⟨r, hr⟩ := hw.places he
    let i := evolutionInvariant w hrules r
    rcases i.outcome (fun _ _ hfault => hfault.symm)
      ((evolution_cover w hrules).runText_lockstep r depth room hr fun _ _ => trivial)
      (fun _ _ _ hab => i.passes_eq hab) ⟨hw, .refl⟩ le_rfl with ⟨_, w', hw', rfl⟩ | ⟨heq, -⟩
    · exact absurd hw' (h w')
    · exact heq
  intro g
  have hother := hsame (rules.refusing forbidden g)
    (Rules.restricts_refusing f hrefuses (fun action hno => by simp [Rules.refusing, hno, hrefuses])
      rfl rfl rfl hlibraries)
  have hplain := hsame rules (Rules.restricts_refusing f hrefuses (fun action _ => hrefuses action)
    rfl rfl rfl hlibraries)
  exact hother.trans hplain.symm

/-- With room to read it, running a text without fault is evaluating its statements. -/
theorem runText_eq_evalItems (inner : Evaluator) {room : Room} (e : ScopeId) {text : String}
    (hroom : room.holds (2 + readingLevels) = true)
    (hfault : (Grammar.Program.ofText grammarDepth text).fault = none) :
    runText inner room e text
      = evalItems inner room e (.list (Grammar.Program.ofText grammarDepth text).nodes) := by
  have hdescend : room.descend 2 = .ok (room.below 2) ∧
      ∃ below, (room.below 2).descend readingLevels = .ok below := by
    cases room with
    | unlimited => exact ⟨rfl, .unlimited, rfl⟩
    | levels n =>
      have hn : 2 + readingLevels ≤ n := of_decide_eq_true hroom
      refine ⟨if_pos (decide_eq_true (by omega)), _, if_pos (decide_eq_true ?_)⟩
      omega
  obtain ⟨hdescend, below, hbelow⟩ := hdescend
  unfold runText evalItems runProgram
  rw [hdescend, hfault]
  show (liftM ((room.below 2).descend readingLevels) >>= fun _ => _ : Run Datum) = _
  rw [hbelow]
  exact bind_pure (m := Run) _

/-- Whether a run gives a result. -/
def Run.succeeds {α : Type} (x : Run α) (w : World) : Bool :=
  match x w with
  | .ok _ _ => true
  | .error _ _ => false

theorem Run.ne_error_of_succeeds {α : Type} {x : Run α} {w : World} (h : x.succeeds w = true)
    (f : Fault) (w' : World) : x w ≠ .error f w' := by
  intro herror
  unfold Run.succeeds at h
  rw [herror] at h
  cases h

end Scrawl
