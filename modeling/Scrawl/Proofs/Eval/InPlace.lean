/-
  Scrawl.Proofs.Eval.InPlace — running a body inside of one bare scope or of another.

  A function remembers a scope that was made for it, and nothing is ever set in that scope: names are
  set from the scopes in which bodies are run.  So if two such scopes lie side by side, it makes no
  difference inside of which of them a body is run.  The two runs go in lockstep, in worlds that differ
  in where one scope lies (`moving`), and come out the same (`runInside_beside`).
-/

import Scrawl.Proofs.Eval.StandardValues
import Scrawl.Proofs.Scope.Moving

namespace Scrawl

open Comparison (Anything)

/-! ## §1. Scopes that stay bare -/

section Bare

variable {w : World}

/-- A new inner scope owns nothing, as the names that are set are known around it. -/
theorem World.Standing.bare_newScope (h : w.Standing) (rules : Rules) {p : ScopeId}
    (hp : p < w.forest.size) :
    (w.forest.newScope rules w.addons (some p)).Bare w.forest.size := by
  have hchange : Change w { w with forest := w.forest.newScope rules w.addons (some p) } :=
    .scope (fun _ hq => Option.some.inj hq ▸ hp) rfl rfl
  have hnew : ∀ n, w.forest.owns w.forest.size n ≠ true := fun n ho =>
    Nat.lt_irrefl _ (World.lt_size_of_owns ho)
  have hparent : (w.forest.newScope rules w.addons (some p)).parent? w.forest.size
      = some (some p) := by
    rw [Forest.parent?_newScope, if_pos rfl]
  refine fun n => Bool.eq_false_iff.2 fun ho => ?_
  rcases Forest.owns_newScope_cases ho with ho' | ⟨-, ⟨b, hb, rfl⟩, -⟩
  · exact hnew n ho'
  · have hknown : World.Known { w with
        forest := w.forest.newScope rules w.addons (some p) } b.1 := by
      rcases List.mem_append.1 hb with hb | hb
      · exact .inl ⟨b, hb, rfl⟩
      · obtain ⟨a, ha, hname, -⟩ := mem_addonBindings hb
        exact .inr ⟨a, ha, hname⟩
    exact hnew _ (hchange.owned_before h hparent hknown ho)

/-- An inner scope that owns nothing is not reached by add-ons either. -/
theorem World.Standing.bare_refresh (h : w.Standing) {key v : Value} {n : Name}
    (hkey : key.toName = .ok n) {x p : ScopeId} (hx : w.forest.parent? x = some (some p))
    (hbare : w.forest.Bare x) :
    (w.forest.refresh (w.addons ++ [(key, v)]) w.forest.size).Bare x := by
  have hchange : Change w { w with
      addons := w.addons ++ [(key, v)]
      forest := w.forest.refresh (w.addons ++ [(key, v)]) w.forest.size } :=
    .register hkey rfl rfl
  refine fun m => Bool.eq_false_iff.2 fun ho => ?_
  rcases Forest.owns_refresh_cases ho with ho' | ⟨-, ⟨b, hb, rfl⟩, -⟩
  · exact Bool.eq_false_iff.1 (hbare m) ho'
  · obtain ⟨a, ha, hname, -⟩ := mem_addonBindings hb
    have hparent := (w.forest.parent?_refresh (w.addons ++ [(key, v)]) w.forest.size x).trans hx
    exact Bool.eq_false_iff.1 (hbare _)
      (hchange.owned_before h hparent (.inr ⟨a, ha, hname⟩) ho)

end Bare

/-! ## §2. Worlds with a scope moved -/

/-- A world that has evolved from one where it started, and the same world with the scope `s` moved
    from `a` to `b`, which lie side by side and are used for nothing. -/
structure Moved (start : World) (rules : Rules) (q a b s : ScopeId) (w w' : World) : Prop where
  /-- Nothing else is different. -/
  moved : w' = { w with forest := w.forest.move s b }
  /-- Functions remember scopes that exist. -/
  housed : (housing start rules).world w
  /-- Where the scopes lie. -/
  beside : w.forest.Beside q a b s
  /-- Nothing has been set in the two scopes. -/
  bare : w.forest.Bare a ∧ w.forest.Bare b
  /-- No window was made in them. -/
  homes : ∀ (n : Nat) (window : Stage.Window), w.stage.windows[n]? = some window →
    window.home < w.forest.size ∧ window.home ≠ a ∧ window.home ≠ b

/-- Evaluation in a world and in the same one with a scope moved, from any other than the two
    scopes. -/
def movedRelations (start : World) (rules : Rules) (q a b s : ScopeId) : Relations :=
  (housing start rules).relations (Moved start rules q a b s)
    (fun k e => e < k.size ∧ e ≠ a ∧ e ≠ b) (fun k e => e < k.size ∧ e ≠ a ∧ e ≠ b)

section Steps

variable {start : World} {rules : Rules} {q a b s : ScopeId} {k : Forest} {w w' : World}

theorem Moved.standing (h : Moved start rules q a b s w w') (hstart : start.Standing) :
    w.Standing :=
  h.housed.2.standing hstart

theorem Moved.lt_size (h : Moved start rules q a b s w w') :
    a < w.forest.size ∧ b < w.forest.size :=
  ⟨Forest.lt_size_of_parent? h.beside.first, Forest.lt_size_of_parent? h.beside.second⟩

theorem Moved.visits_eq (h : Moved start rules q a b s w w') (hstart : start.Standing)
    (e : ScopeId) (n : Name) : w'.forest.visits e n = w.forest.visits e n := by
  rw [h.moved]
  exact h.beside.visits_move (h.standing hstart).ordered h.bare.1 h.bare.2 e n

theorem Moved.get?_eq (h : Moved start rules q a b s w w') (hstart : start.Standing)
    (e : ScopeId) (n : Name) : w'.forest.get? e n = w.forest.get? e n := by
  rw [h.moved]
  exact h.beside.get?_move (h.standing hstart).ordered h.bare.1 h.bare.2 e n

theorem Moved.scopeLevels_eq (h : Moved start rules q a b s w w') (hstart : start.Standing)
    (p : ScopeId) : w'.scopeLevels (some p) = w.scopeLevels (some p) := by
  rw [h.moved]
  unfold World.scopeLevels
  dsimp only
  rw [h.beside.length_chain_move (h.standing hstart).ordered]

/-- A name is set, from any other than the two scopes. -/
theorem Moved.set (h : Moved start rules q a b s w w') (hstart : start.Standing) {e : ScopeId}
    (he : e < w.forest.size ∧ e ≠ a ∧ e ≠ b) (key : Value) (n : Name) {d : Datum}
    (hd : d.value.Callable (· < w.forest.size)) :
    Moved start rules q a b s { w.noteSpelling e n key with forest := w.forest.set e n d }
      { w'.noteSpelling e n key with forest := w'.forest.set e n d } := by
  have hordered := (h.standing hstart).ordered
  have hset := h.beside.set_move hordered h.bare.1 h.bare.2 e n d
  have hhas : (w.forest.move s b).has e n = w.forest.has e n :=
    congrArg Option.isSome (h.beside.owner?_move hordered h.bare.1 h.bare.2 e n)
  obtain ⟨spellings, hspellings⟩ := w.noteSpelling_eq e n key
  refine ⟨?_, ⟨h.housed.1.set e key n hd, h.housed.2.tail (.set he.1 rfl ?_)⟩, ?_, ?_, ?_⟩
  · rw [h.moved, w.noteSpelling_withForest hhas]
    dsimp only
    rw [hset]
  · rw [hspellings]
  · exact h.beside.of_le (w.forest.le_set e n d)
  · exact ⟨h.bare.1.set he.2.1 n d, h.bare.2.set he.2.2 n d⟩
  · rw [hspellings]
    dsimp only
    rw [Forest.size_set]
    exact h.homes

/-- A scope is made, inside of any that exists. -/
theorem Moved.newScope (h : Moved start rules q a b s w w') (hstart : start.Standing)
    {p : ScopeId} (hp : p < w.forest.size) :
    Moved start rules q a b s
      { w with forest := w.forest.newScope rules w.addons (some p) }
      { w' with forest := w'.forest.newScope rules w'.addons (some p) } := by
  have hparent : ∀ p', some p = some p' → p' < w.forest.size := fun _ hq => Option.some.inj hq ▸ hp
  have hbare : (w.forest.newScope rules w.addons (some p)).Bare a ∧
      (w.forest.newScope rules w.addons (some p)).Bare b :=
    ⟨h.bare.1.newScope h.lt_size.1 _ _ _, h.bare.2.newScope h.lt_size.2 _ _ _⟩
  have hsize := w.forest.lt_size_newScope rules w.addons (some p)
  refine ⟨?_, ⟨h.housed.1.newScope rules (some p), h.housed.2.tail (.scope hparent rfl rfl)⟩,
    h.beside.of_le (w.forest.le_newScope rules w.addons (some p)), hbare, ?_⟩
  · rw [h.moved]
    dsimp only
    rw [h.beside.newScope_move (h.standing hstart).ordered hparent hbare.1 hbare.2]
  · intro n window hwindow
    obtain ⟨hlt, hne⟩ := h.homes n window hwindow
    exact ⟨Nat.lt_trans hlt hsize, hne⟩

/-- An add-on is registered. -/
theorem Moved.register (h : Moved start rules q a b s w w') (hstart : start.Standing)
    {key v : Value} {n : Name} (hkey : key.toName = .ok n) (hv : ∀ inside, v.Callable inside) :
    Moved start rules q a b s
      { w with
        addons := w.addons ++ [(key, v)]
        forest := w.forest.refresh (w.addons ++ [(key, v)])
          (World.reach { w with addons := w.addons ++ [(key, v)] }) }
      { w' with
        addons := w'.addons ++ [(key, v)]
        forest := w'.forest.refresh (w'.addons ++ [(key, v)])
          (World.reach { w' with addons := w'.addons ++ [(key, v)] }) } := by
  have hstanding := h.standing hstart
  obtain ⟨hreach, hhoused⟩ := (h.housed.1.withAddon hkey (hv _)).refresh
  -- nothing is in the way in either world, so every scope is reached
  have hreach' : World.reach { w' with addons := w'.addons ++ [(key, v)] } = w.forest.size := by
    rw [← hreach, h.moved]
    unfold World.reach
    dsimp only
    rw [Forest.size_move]
    rfl
  have hbare := And.intro (hstanding.bare_refresh (v := v) hkey h.beside.first h.bare.1)
    (hstanding.bare_refresh (v := v) hkey h.beside.second h.bare.2)
  rw [hreach, hreach']
  refine ⟨?_, ⟨hhoused, h.housed.2.tail (.register hkey rfl rfl)⟩,
    h.beside.of_le (w.forest.le_refresh _ _), hbare, ?_⟩
  · rw [h.moved]
    dsimp only
    rw [h.beside.refresh_move hstanding.ordered hbare.1 hbare.2]
  · intro n window hwindow
    rw [Forest.size_refresh]
    exact h.homes n window hwindow

end Steps

/-! ## §3. The simulation -/

section Simulation

variable {start : World} (hstart : start.Standing) (rules : Rules)
  (hrefuses : ∀ action, rules.refuses action = none) (hlibraries : rules.libraries.Inert)
  (q a b s : ScopeId)

include hstart hlibraries in
theorem moved_load (k : Forest) (text : String) :
    (movedRelations start rules q a b s).Lockstep k Anything (Library.load rules.libraries text)
      (Library.load rules.libraries text) := by
  refine Comparison.load_lockstep (fun _ => rfl) hlibraries text ?_ ?_ fun j _ name fn =>
    Comparison.register_lockstep (fun _ => rfl) _ _ ?_ ?_
  · intro w w' h
    rw [h.moved]
  · intro w w' h
    refine ⟨by rw [h.moved], ⟨{ h.housed.1 with }, h.housed.2.tail (.aside rfl rfl)⟩, h.beside,
      h.bare, h.homes⟩
  · intro w w' h
    exact h.register hstart rfl (Value.callable_tagged (by decide) _)
  · intro w w' h
    rw [h.moved]
    rfl

include hstart hrefuses hlibraries in
/-- **Evaluation does not depend on where a scope lies**, if it is moved between two bare scopes side by
    side. -/
def moving : Simulation where
  toRelations := movedRelations start rules q a b s
  toLook := (Condition.closed_of_all _ (fun _ => trivial) (fun _ => trivial) (fun _ => trivial)
    fun _ => trivial).look (fun _ => rfl) (fun hjk he => Forest.lt_size_of_le hjk he) fun he => he.1
  fault_refl _ := rfl
  rounds_eq := rfl
  scope_mono hij he := ⟨Forest.lt_size_of_le hij he.1, he.2⟩
  home_mono hij he := ⟨Forest.lt_size_of_le hij he.1, he.2⟩
  remembered_mono hij he := Forest.lt_size_of_le hij he
  home_scope he := he
  remembered_scope he := he.1
  world_same h := by
    rw [h.moved]
    exact ⟨rfl, rfl, rfl⟩
  world_print line h :=
    ⟨by rw [h.moved], ⟨{ h.housed.1 with }, h.housed.2.tail (.aside rfl rfl)⟩, h.beside, h.bare,
      h.homes⟩
  world_homes _ _ _ h := h.homes
  world_stage stage h hhomes :=
    ⟨by rw [h.moved], ⟨{ h.housed.1 with homes := fun hwindow => (hhomes _ _ hwindow).1 },
      h.housed.2.tail (.aside rfl rfl)⟩, h.beside, h.bare, hhomes⟩
  lookup_lockstep {k e} room name he := by
    refine Comparison.lookup_lockstep (fun _ => rfl) room (fun i j d d' hij hd => ?_) e name ?_
    · exact ⟨⟨hd.1.1, hd.1.2.1.mono fun _ => Forest.lt_size_of_le hij, trivial⟩, hd.2⟩
    · intro w w' h hkw
      refine ⟨h.visits_eq hstart e name, ?_⟩
      rw [h.get?_eq hstart]
      cases hd : w.forest.get? e name with
      | none => exact .none
      | some d =>
        -- what is found is owned somewhere, and remembers a scope that exists
        obtain ⟨x, -, hown⟩ := List.exists_of_findSome?_eq_some hd
        exact .some ⟨⟨rfl, h.housed.1.bindings hown, trivial⟩, rfl⟩
  assign_lockstep {k e key d d'} room he _ hd := by
    obtain ⟨⟨hvalue, hcallable, -⟩, hmark⟩ := hd
    obtain rfl : d' = d := by
      cases d
      cases d'
      exact congrArg₂ Datum.mk hvalue.symm hmark
    refine Comparison.assign_lockstep (fun _ => rfl) room e key _ _ ?_ ?_
    · exact fun w w' h n => h.visits_eq hstart e n
    · intro n _ w w' h hkw
      exact h.set hstart ⟨Forest.lt_size_of_le hkw he.1, he.2⟩ key n
        (hcallable.mono fun _ => Forest.lt_size_of_le hkw)
  makeScope_lockstep {k e} room he := by
    refine Comparison.makeScope_lockstep (A := fun j x => x < j.size ∧ x ≠ a ∧ x ≠ b) (fun _ => rfl)
      room (fun i j x hij hx => ⟨Forest.lt_size_of_le hij hx.1, hx.2⟩) (some e) ?_ ?_ ?_
    · exact fun w w' h => h.scopeLevels_eq hstart e
    · intro w w' h hkw
      refine ⟨?_, h.newScope hstart (Forest.lt_size_of_le hkw he),
        w.forest.lt_size_newScope rules w.addons (some e), ?_⟩
      · rw [h.moved, Forest.size_move]
      -- the new scope is neither of the two
      · exact ⟨Nat.ne_of_gt h.lt_size.1, Nat.ne_of_gt h.lt_size.2⟩
    · intro w w' h
      have hnone := addonFault?_eq_none.2 h.housed.1.nameable
      exact ⟨hnone, by rw [h.moved]; exact hnone⟩
  load_lockstep _ k text :=
    .permit (.inr ⟨hrefuses _, hrefuses _, moved_load hstart rules hlibraries q a b s k text⟩)
  permits _ _ := .inr ⟨hrefuses _, hrefuses _, fun _ _ _ => trivial⟩
  source _ _ := .inr ⟨hrefuses _, hrefuses _, fun _ _ => ⟨rfl, trivial⟩⟩

end Simulation

/-! ## §4. Running a body -/

/-- Runs a body in a new scope inside another one. -/
def runInside (rules : Rules) (inner : Evaluator) (room : Room) (p : ScopeId) (body : Value) :
    Run Datum := do
  let s ← makeScope rules room (some p)
  evalItems inner room s body

/-- Two worlds in which every scope has the same variables and sees the same, and all else is the
    same. -/
structure World.Alike (w w' : World) : Prop where
  /-- All but the scopes. -/
  aside : w' = { w with forest := w'.forest }
  /-- There are as many scopes. -/
  size : w'.forest.size = w.forest.size
  /-- They own the same. -/
  own : ∀ e n, w'.forest.own? e n = w.forest.own? e n
  /-- They see the same. -/
  sees : ∀ e n, w'.forest.get? e n = w.forest.get? e n

/-- Two runs come out the same, up to their results: both give one or both fail in the same way, and
    leave worlds that are alike. -/
inductive SameOutcome {α β : Type} :
    EStateM.Result Fault World α → EStateM.Result Fault World β → Prop
  /-- Both give a result. -/
  | ok {a : α} {b : β} {w w' : World} (h : w.Alike w') : SameOutcome (.ok a w) (.ok b w')
  /-- Both fail. -/
  | error {f : Fault} {w w' : World} (h : w.Alike w') : SameOutcome (.error f w) (.error f w')

theorem World.Alike.refl (w : World) : w.Alike w := ⟨rfl, rfl, fun _ _ => rfl, fun _ _ => rfl⟩

/-- Results do not count. -/
theorem SameOutcome.map_right {α β γ : Type} {r : EStateM.Result Fault World α} {y : Run β}
    {w : World} (h : SameOutcome r (y w)) (c : γ) : SameOutcome r ((y >>= fun _ => pure c) w) := by
  generalize hy : y w = outcome at h
  cases h with
  | ok halike =>
    rw [Run.bind_of_ok hy]
    exact .ok halike
  | error halike =>
    rw [Run.bind_of_error hy]
    exact .error halike

theorem Moved.alike {start : World} (hstart : start.Standing) {rules : Rules} {q a b s : ScopeId}
    {w w' : World} (h : Moved start rules q a b s w w') : w.Alike w' where
  aside := by rw [h.moved]
  size := by rw [h.moved, Forest.size_move]
  own e n := by rw [h.moved, Forest.own?_move]
  sees := h.get?_eq hstart

theorem SameOutcome.of_agrees {start : World} (hstart : start.Standing) {rules : Rules}
    {q a b s : ScopeId} {k : Forest} {α β : Type} {A : Forest → α → β → Prop}
    {r : EStateM.Result Fault World α} {r' : EStateM.Result Fault World β}
    (h : (movedRelations start rules q a b s).Agrees k A r r') : SameOutcome r r' := by
  cases h with
  | ok hw _ _ => exact .ok (hw.alike hstart)
  | error hw _ hfault =>
    obtain rfl : _ = _ := hfault
    exact .error (hw.alike hstart)
  | escape hescape => exact hescape.elim

/-- A scope that a function made in `e` may remember: it lies in `e`, and is used for nothing. -/
structure World.InPlace (w : World) (e home : ScopeId) : Prop where
  /-- Where it lies. -/
  lies : w.forest.parent? home = some (some e)
  /-- Nothing has been set in it. -/
  bare : w.forest.Bare home
  /-- No window was made in it. -/
  windows : ∀ (n : Nat) (window : Stage.Window), w.stage.windows[n]? = some window →
    window.home ≠ home

section Beside

variable {w : World} (hhoused : w.Housed) (hstanding : w.Standing) (rules : Rules)
include hhoused hstanding

/-- A new scope is of this kind, and so is whichever was before. -/
theorem World.InPlace.newScope {e : ScopeId} (he : e < w.forest.size) :
    World.InPlace { w with forest := w.forest.newScope rules w.addons (some e) } e w.forest.size ∧
      ∀ home, w.InPlace e home →
        World.InPlace { w with forest := w.forest.newScope rules w.addons (some e) } e home := by
  refine ⟨⟨?_, hstanding.bare_newScope rules he, ?_⟩, fun home h => ⟨?_, ?_, h.windows⟩⟩
  · show (w.forest.newScope rules w.addons (some e)).parent? w.forest.size = _
    rw [Forest.parent?_newScope, if_pos rfl]
  · exact fun n window hwindow => Nat.ne_of_lt (hhoused.homes hwindow)
  · exact w.forest.le_newScope rules w.addons (some e) _ _ h.lies
  · exact h.bare.newScope (Forest.lt_size_of_parent? h.lies) _ _ _

/-- **It makes no difference inside of which of two such scopes a body is run.** -/
theorem runInside_beside (hrefuses : ∀ action, rules.refuses action = none)
    (hlibraries : rules.libraries.Inert) (depth : Nat) (room : Room) {q a b : ScopeId}
    (ha : w.InPlace q a) (hb : w.InPlace q b) (body : Value) :
    SameOutcome (runInside rules (eval rules depth) room a body w)
      (runInside rules (eval rules depth) room b body w) := by
  have hlevels : w.scopeLevels (some b) = w.scopeLevels (some a) := by
    unfold World.scopeLevels
    dsimp only
    rw [hstanding.ordered.chain_child ha.lies, hstanding.ordered.chain_child hb.lies]
    rfl
  cases hroom : room.holds (w.scopeLevels (some a)) with
  | false =>
    -- both scopes lie as deep, so there is room for neither run
    have htooDeep : ∀ p, w.scopeLevels (some p) = w.scopeLevels (some a) →
        runInside rules (eval rules depth) room p body w = .error .tooDeep w := by
      intro p hp
      exact Run.bind_of_error (makeScope_tooDeep rules (hp ▸ hroom)) _
    rw [htooDeep a rfl, htooDeep b hlevels]
    exact .error (.refl w)
  | true =>
    have hsizes := And.intro (Forest.lt_size_of_parent? ha.lies) (Forest.lt_size_of_parent? hb.lies)
    have hbare := And.intro (ha.bare.newScope hsizes.1 rules w.addons (some a))
      (hb.bare.newScope hsizes.2 rules w.addons (some a))
    have hkept := w.forest.le_newScope rules w.addons (some a)
    have hsize := w.forest.lt_size_newScope rules w.addons (some a)
    -- the two worlds in which the body is run differ in where its scope lies
    have hmoved : Moved w rules q a b w.forest.size
        { w with forest := w.forest.newScope rules w.addons (some a) }
        { w with forest := w.forest.newScope rules w.addons (some b) } := by
      refine ⟨?_, ⟨hhoused.newScope rules (some a), .single (.scope ?_ rfl rfl)⟩, ⟨hkept _ _ ha.lies,
        hkept _ _ hb.lies, ?_, hsizes.2⟩, hbare, ?_⟩
      · rw [Forest.newScope_beside hstanding.ordered ha.lies hb.lies hbare.1 hbare.2]
      · exact fun p hp => Option.some.inj hp ▸ hsizes.1
      · rw [Forest.parent?_newScope, if_pos rfl]
      · exact fun n window hwindow => ⟨Nat.lt_trans (hhoused.homes hwindow) hsize,
          ha.windows n window hwindow, hb.windows n window hwindow⟩
    have hmade := makeScope_eq hhoused.nameable rules hroom
    have hmade' := makeScope_eq hhoused.nameable rules (hlevels ▸ hroom)
    unfold runInside
    rw [Run.bind_of_ok hmade, Run.bind_of_ok hmade']
    let m := moving hstanding rules hrefuses hlibraries q a b w.forest.size
    have hnodes : m.nodes body body := Condition.nodes_self (fun _ => rfl) fun _ _ _ _ => trivial
    exact .of_agrees hstanding (m.evalItems_lockstep (m.eval_lockstep id depth)
      ⟨hsize, Nat.ne_of_gt hsizes.1, Nat.ne_of_gt hsizes.2⟩ room hnodes _ _ hmoved le_rfl)

end Beside

end Scrawl
