/-
  Scrawl.Proofs.Eval.Invariant — invariants of evaluation.

  An invariant says which worlds, scopes, nodes, values and names are in order.  If everything that
  evaluation does once keeps worlds in order, then evaluation does (`Invariant.simulation`): it is a
  simulation of evaluation by itself, in which related worlds are equal.  The two evaluations may go
  by different rules, as long as these make no difference to worlds that are in order.
-/

import Scrawl.Proofs.Eval.SimulatedNodes
import Scrawl.Proofs.Eval.WorldSteps

namespace Scrawl

open Comparison (Anything)

/-! ## §1. Functions in circulation -/

/-- If a value is a function of the program, it remembers one of certain scopes. -/
def Value.Callable (inside : ScopeId → Prop) (v : Value) : Prop :=
  v.tag = .ok (.text "function") → ∃ params body home, v = .function params body home ∧ inside home

theorem Value.Callable.mono {inside inside' : ScopeId → Prop} (himp : ∀ e, inside e → inside' e)
    {v : Value} (h : v.Callable inside) : v.Callable inside' := by
  intro htag
  obtain ⟨params, body, home, hv, hhome⟩ := h htag
  exact ⟨params, body, home, hv, himp home hhome⟩

theorem Value.callable_text (s : String) (inside : ScopeId → Prop) :
    (Value.text s).Callable inside :=
  fun htag => text_tag_absurd (by decide) htag

/-- A value with the text of another tag is no function. -/
theorem Value.callable_tagged {tag : String} (hne : tag ≠ "function") (parts : List Value)
    (inside : ScopeId → Prop) : Value.Callable inside (.tuple (.text tag :: parts)) :=
  fun htag => tag_absurd hne htag

/-! ## §2. Invariants -/

/-- What is to be kept, and by which rules. -/
structure Condition where
  /-- The rules of evaluation. -/
  rules : Rules
  /-- The rules it is compared with. -/
  rules' : Rules
  /-- Which faults the two may end with. -/
  fault : Fault → Fault → Prop := Eq
  /-- The faults with which evaluation may leave the comparison, and in which worlds. -/
  escapes : World → Fault → Prop
  /-- The worlds that are in order. -/
  world : World → Prop
  /-- The scopes of a forest in which evaluation goes on. -/
  inside : Forest → ScopeId → Prop := fun k e => e < k.size
  /-- The scopes of a forest in which windows may have been made. -/
  home : Forest → ScopeId → Prop := inside
  /-- The nodes that are in order. -/
  good : Value → Prop
  /-- The values that are in order. -/
  value : Value → Prop := good
  /-- The payloads of values that are in order. -/
  payload : Value → Prop := fun _ => True
  /-- What may be set. -/
  assignable : Value → Prop

namespace Condition

variable (c : Condition)

/-- Compares evaluation by the two rules, in worlds that are in order. -/
def comparison : Comparison where
  world w w' := w = w' ∧ c.world w
  fault := c.fault
  escapes := c.escapes

/-- A value that may be in circulation while there is the forest `k`. -/
def circulates (k : Forest) (v : Value) : Prop := v.Callable (c.inside k) ∧ c.value v

/-- A parameter list of which everything may be set. -/
def parameters (p : Value) : Prop :=
  ∀ items, p.items = .ok items → ∀ q ∈ items, ∀ key, q.payload = .ok key → c.assignable key

/-- A list of nodes that are in order. -/
def nodes (b : Value) : Prop := ∀ items, b.items = .ok items → ∀ m ∈ items, c.good m

/-- Something makes the two stop. -/
def stops (k : Forest) (action : Action) : Prop :=
  c.comparison.Stops c.rules c.rules' k action action

/-- Something is refused by neither of the rules. -/
def permits (action : Action) : Prop :=
  c.rules.refuses action = none ∧ c.rules'.refuses action = none

variable {c} in
/-- An action that is refused with a fault set aside for that, or by neither of the rules. -/
theorem stops_or_permits {f : Fault} (hescapes : ∀ w, c.escapes w f) {action : Action}
    (h : c.rules.refuses action = some f ∨ c.permits action) (k : Forest) :
    c.stops k action ∨ c.permits action :=
  h.imp (fun hf => .leaves hf fun w _ _ _ => hescapes w) id

/-- Nodes and values that are in order have parts that are, and evaluation makes only such. -/
structure Closed : Prop where
  -- the parts of nodes that are in order are in order
  /-- Operands. -/
  good_operation : ∀ {n}, c.good n → n.tag = .ok (.text "operation") →
    (∀ m, n.item 2 = .ok m → c.good m) ∧ ∀ m, n.item 3 = .ok m → c.good m
  /-- What an assignment sets, and what to. -/
  good_assignment : ∀ {n}, c.good n → n.tag = .ok (.text "assignment") →
    (∀ t key, n.item 1 = .ok t → t.item 1 = .ok key → c.assignable key) ∧
      ∀ m, n.item 2 = .ok m → c.good m
  /-- A callee and its arguments. -/
  good_call : ∀ {n}, c.good n → n.tag = .ok (.text "call") →
    (∀ m, n.item 1 = .ok m → c.good m) ∧ ∀ b, n.item 2 = .ok b → c.nodes b
  /-- Parameters and body. -/
  good_function : ∀ {n}, c.good n → n.tag = .ok (.text "function") →
    (∀ p, n.item 1 = .ok p → c.parameters p) ∧
      ∀ b, n.item 2 = .ok b → c.nodes b
  -- the nodes that evaluation makes are in order
  /-- Values, which are evaluated again. -/
  good_value : ∀ {v}, c.value v → c.good v
  /-- Calls without arguments. -/
  good_block : ∀ {v}, c.value v → c.good (.callNode v (.tuple []))
  /-- A window's calls of its functions. -/
  good_news : ∀ name args, (∀ a ∈ args, a.IsNews) →
    c.good (.callNode (.symbolNode name) (.list args))
  -- the values that evaluation makes are in order
  /-- Functions. -/
  value_function : ∀ {n p b}, c.good n → n.tag = .ok (.text "function") → n.item 1 = .ok p →
    n.item 2 = .ok b → ∀ home, c.value (.function p b home)
  /-- What operators are applied to, and what they give. -/
  value_payload : ∀ {v p}, c.value v → v.payload = .ok p → c.payload p
  value_operate : ∀ {op apply p q r}, operator? op = some apply → c.payload p → c.payload q →
    apply p q = .ok r → c.value (.number r)
  /-- Values of any other kind. -/
  value_float : ∀ x, c.value (.number (.float x))
  value_int : ∀ i, c.value (.number (.int i))
  value_string : ∀ s, c.value (.string s)
  value_text : ∀ s, c.value (.text s)
  value_nothing : c.value .nothing
  value_blank : c.value .blank

/-- Where all is in order there is nothing to show. -/
theorem closed_of_all (hgood : ∀ v, c.good v) (hvalue : ∀ v, c.value v)
    (hpayload : ∀ p, c.payload p) (hassignable : ∀ key, c.assignable key) : c.Closed where
  good_operation _ _ := ⟨fun m _ => hgood m, fun m _ => hgood m⟩
  good_assignment _ _ := ⟨fun _ key _ _ => hassignable key, fun m _ => hgood m⟩
  good_call _ _ := ⟨fun m _ => hgood m, fun _ _ _ _ m _ => hgood m⟩
  good_function _ _ := ⟨fun _ _ _ _ _ _ key _ => hassignable key, fun _ _ _ _ m _ => hgood m⟩
  good_value _ := hgood _
  good_block _ := hgood _
  good_news _ _ _ := hgood _
  value_function _ _ _ _ _ := hvalue _
  value_payload _ _ := hpayload _
  value_operate _ _ _ _ := hvalue _
  value_float _ := hvalue _
  value_int _ := hvalue _
  value_string _ := hvalue _
  value_text _ := hvalue _
  value_nothing := hvalue _
  value_blank := hvalue _

/-- Two evaluations that look at the same nodes and values, with worlds that are related in some way,
    and with given scopes in which both evaluate and in which windows may have been made. -/
def relations (world : World → World → Prop) (scope home : Forest → ScopeId → Prop) : Relations where
  world := world
  fault := c.fault
  escapes := c.escapes
  rules := c.rules
  rules' := c.rules'
  scope := scope
  home := home
  remembered := c.inside
  value k v v' := v = v' ∧ c.circulates k v
  node n n' := n = n' ∧ c.good n
  payload p p' := p = p' ∧ c.payload p
  plain _ := True
  assignable := c.assignable

section Look

variable {c} {world : World → World → Prop} {scope home : Forest → ScopeId → Prop}
  (hfault : ∀ f, c.fault f f)
include hfault

/-- A computation without a world is the same in both. -/
theorem matches_self {α : Type} {A : α → α → Prop} {x : Except Fault α}
    (h : ∀ a, x = .ok a → A a a) : (c.relations world scope home).Matches A x x :=
  .refl hfault h

theorem matches_eq {α : Type} (x : Except Fault α) :
    (c.relations world scope home).Matches Eq x x :=
  matches_self hfault fun _ _ => rfl

theorem nodes_self {b : Value} (h : c.nodes b) : (c.relations world scope home).nodes b b :=
  matches_self hfault fun items hitems => List.forall₂_same.2 fun m hm => ⟨rfl, h items hitems m hm⟩

theorem parameters_self {p : Value} (h : c.parameters p) :
    (c.relations world scope home).parameters p p :=
  ⟨matches_eq hfault _, matches_self hfault fun items hitems => List.forall₂_same.2 fun q hq =>
    matches_self hfault fun key hkey => ⟨rfl, h items hitems q hq key hkey⟩⟩

/-- **The same nodes and values look alike**, whatever happens to worlds. -/
theorem Closed.look (h : c.Closed) (hinside : ∀ {j k e}, j ≤ k → c.inside j e → c.inside k e)
    (hscope : ∀ {k e}, scope k e → c.inside k e) : (c.relations world scope home).Look where
  node_tag := by
    rintro n _ ⟨rfl, -⟩
    exact matches_eq hfault _
  node_writable := by
    rintro n _ ⟨rfl, -⟩
    rfl
  node_arity := by
    rintro n _ ⟨rfl, -⟩ count text required
    exact hfault _
  node_number := by
    rintro n _ ⟨rfl, -⟩ -
    exact matches_self hfault fun p _ => matches_eq hfault p.toFloat
  node_string := by
    rintro n _ ⟨rfl, -⟩ -
    exact matches_eq hfault _
  node_operation := by
    rintro n _ ⟨rfl, hn⟩ htag
    obtain ⟨hleft, hright⟩ := h.good_operation hn htag
    exact ⟨matches_eq hfault _, matches_self hfault fun m hm => ⟨rfl, hleft m hm⟩,
      matches_self hfault fun m hm => ⟨rfl, hright m hm⟩⟩
  node_symbol := by
    rintro n _ ⟨rfl, -⟩ -
    exact matches_eq hfault _
  node_assignment := by
    rintro n _ ⟨rfl, hn⟩ htag
    obtain ⟨htarget, hvalue⟩ := h.good_assignment hn htag
    exact ⟨matches_self hfault fun t ht => matches_self hfault fun key hkey => ⟨rfl, htarget t key ht hkey⟩,
      matches_self hfault fun m hm => ⟨rfl, hvalue m hm⟩⟩
  node_call := by
    rintro n _ ⟨rfl, hn⟩ htag
    obtain ⟨hcallee, hargs⟩ := h.good_call hn htag
    exact ⟨matches_self hfault fun m hm => ⟨rfl, hcallee m hm⟩,
      matches_self hfault fun b hb => nodes_self hfault (hargs b hb)⟩
  node_function := by
    rintro n _ ⟨rfl, hn⟩ htag
    exact matches_self hfault fun p hp => matches_self hfault fun b hb k home hhome =>
      ⟨rfl, fun _ => ⟨p, b, home, rfl, hscope hhome⟩, h.value_function hn htag hp hb home⟩
  node_value hv := ⟨hv.1, h.good_value hv.2.2⟩
  node_block := by
    rintro k v _ ⟨rfl, hv⟩
    exact ⟨rfl, h.good_block hv.2⟩
  node_news name args hargs := ⟨rfl, h.good_news name args hargs⟩
  value_mono hij hv := ⟨hv.1, hv.2.1.mono fun _ => hinside hij, hv.2.2⟩
  value_isNil := by
    rintro k v _ ⟨rfl, -⟩
    rfl
  value_payload := by
    rintro k v _ ⟨rfl, hv⟩
    exact matches_self hfault fun p hp => ⟨rfl, h.value_payload hv.2 hp⟩
  value_operate := by
    rintro op apply p _ q _ hop ⟨rfl, hp⟩ ⟨rfl, hq⟩
    exact matches_self hfault fun r hr k =>
      ⟨rfl, Value.callable_tagged (by decide) _ _, h.value_operate hop hp hq hr⟩
  payload_isOne := by
    rintro p _ ⟨rfl, -⟩
    rfl
  payload_equal := by
    rintro p _ q _ ⟨rfl, -⟩ ⟨rfl, -⟩
    rfl
  value_float _ x := ⟨rfl, Value.callable_tagged (by decide) _ _, h.value_float x⟩
  value_int _ n := ⟨rfl, Value.callable_tagged (by decide) _ _, h.value_int n⟩
  value_string _ s := ⟨rfl, Value.callable_tagged (by decide) _ _, h.value_string s⟩
  value_text _ s := ⟨rfl, Value.callable_text s _, h.value_text s⟩
  value_nothing _ := ⟨rfl, Value.callable_tagged (by decide) _ _, h.value_nothing⟩
  value_blank _ := ⟨rfl, nofun, h.value_blank⟩
  value_function := by
    rintro k v _ ⟨rfl, hcallable, hv⟩ htag
    obtain ⟨_, _, home, rfl, hhome⟩ := hcallable htag
    obtain ⟨hparams, hbody⟩ := h.good_function (h.good_value hv) htag
    exact ⟨matches_self hfault fun p hp => parameters_self hfault (hparams p hp),
      matches_self hfault fun b hb => nodes_self hfault (hbody b hb), home, rfl, rfl, hhome⟩
  value_native := by
    rintro k v _ ⟨rfl, -⟩ -
    exact matches_eq hfault _
  plain_eq hv _ := hv.1.symm
  plain_float _ := trivial
  plain_string _ := trivial
  plain_nothing := trivial
  plain_tag _ _ _ := .inr (.inr (.inr fun _ => trivial))

end Look

end Condition

/-- A condition that everything evaluation does keeps. -/
structure Invariant extends Condition where
  /-- Both may end with the same fault. -/
  fault_refl : ∀ f, fault f f
  /-- Both loop equally often. -/
  rounds_eq : rules'.rounds = rules.rounds
  /-- What nodes and values are in order. -/
  closed : toCondition.Closed
  -- scopes that are made later change nothing for those that are there
  inside_mono : ∀ {j k e}, j ≤ k → inside j e → inside k e
  home_mono : ∀ {j k e}, j ≤ k → home j e → home k e
  /-- Windows may be made where evaluation goes on. -/
  home_inside : ∀ {k e}, inside k e → home k e
  -- what is found in worlds that are in order
  /-- Values of variables may be in circulation. -/
  found : ∀ {w e n d}, world w → inside w.forest e → w.forest.get? e n = some d →
    toCondition.circulates w.forest d.value
  /-- Add-ons have names. -/
  nameable : ∀ {w}, world w → ∀ a ∈ w.addons, ∃ n, a.1.toName = .ok n
  /-- Windows were made where they may have been, if anything is done to them at all. -/
  homes : rules.Draws → ∀ {w} {n : Nat} {window : Stage.Window}, world w →
    w.stage.windows[n]? = some window → home w.forest window.home
  -- what is done to worlds that are in order
  /-- Something is printed. -/
  print : ∀ {w} line, world w → world { w with printed := w.printed ++ line ++ "\n" }
  /-- Something happens on the stage. -/
  stage : ∀ {w} stage, world w →
    (∀ (n : Nat) (window : Stage.Window), stage.windows[n]? = some window →
      home w.forest window.home) →
    world { w with stage }
  /-- A name is set. -/
  set : ∀ {w e key n d}, world w → inside w.forest e → assignable key → key.toName = .ok n →
    toCondition.circulates w.forest d.value →
    world { w.noteSpelling e n key with forest := w.forest.set e n d }
  /-- A scope is made inside another one, to the same effect by both rules, and evaluation may go on
      there. -/
  scope : ∀ {w p}, world w → inside w.forest p →
    w.forest.newScope rules' w.addons (some p) = w.forest.newScope rules w.addons (some p) ∧
      world { w with forest := w.forest.newScope rules w.addons (some p) } ∧
      inside (w.forest.newScope rules w.addons (some p)) w.forest.size
  /-- Calls of functions of the language are permitted, or the two stop there. -/
  calls : ∀ k fn args, (∀ a ∈ args, toCondition.circulates k a) →
    toCondition.stops k (.call fn args) ∨ toCondition.permits (.call fn args)
  /-- Files that may be run are in order. -/
  source : ∀ k text, toCondition.stops k (.source text) ∨ toCondition.permits (.source text) ∧
    ∀ n ∈ (Grammar.Program.ofText grammarDepth text).nodes, good n
  /-- Libraries that may be loaded keep worlds in order. -/
  load : rules.Loads → ∀ k text, toCondition.stops k (.load text) ∨
    toCondition.permits (.load text) ∧
      toCondition.comparison.Lockstep k Anything (Library.load rules.libraries text)
        (Library.load rules'.libraries text)

namespace Invariant

variable (i : Invariant)

/-! ## §3. What is done to the world -/

section Steps

variable {k : Forest} {e : ScopeId} (room : Room)

/-- A value that may be in circulation, in both evaluations. -/
def passes (k : Forest) (d d' : Datum) : Prop :=
  (d.value = d'.value ∧ i.circulates k d.value) ∧ d'.mark = d.mark

theorem circulates_mono {j : Forest} {v : Value} (hjk : j ≤ k) (h : i.circulates j v) :
    i.circulates k v :=
  ⟨h.1.mono fun _ => i.inside_mono hjk, h.2⟩

theorem lookup_lockstep (he : i.inside k e) (name : Name) :
    i.comparison.Lockstep k (fun j => Option.Rel (i.passes j))
      (lookup room e name) (lookup room e name) := by
  refine Comparison.lookup_lockstep i.fault_refl room
    (fun _ _ _ _ hij h => ⟨⟨h.1.1, i.circulates_mono hij h.1.2⟩, h.2⟩) e name ?_
  rintro w _ ⟨rfl, hw⟩ hkw
  refine ⟨rfl, ?_⟩
  cases hd : w.forest.get? e name with
  | none => exact .none
  | some d => exact .some ⟨⟨rfl, i.found hw (i.inside_mono hkw he) hd⟩, rfl⟩

theorem passes_eq {d d' : Datum} (h : i.passes k d d') : d' = d := by
  obtain ⟨⟨hvalue, -⟩, hmark⟩ := h
  cases d
  cases d'
  exact congrArg₂ Datum.mk hvalue.symm hmark

theorem assign_lockstep (he : i.inside k e) {key : Value} (hkey : i.assignable key) {d d' : Datum}
    (hd : i.passes k d d') :
    i.comparison.Lockstep k Anything (assign room e key d) (assign room e key d') := by
  obtain rfl := i.passes_eq hd
  refine Comparison.assign_lockstep i.fault_refl room e key _ _ ?_ ?_
  · rintro w _ ⟨rfl, -⟩ n
    rfl
  · rintro n hn w _ ⟨rfl, hw⟩ hkw
    exact ⟨rfl, i.set hw (i.inside_mono hkw he) hkey hn (i.circulates_mono hkw hd.1.2)⟩

theorem makeScope_lockstep (he : i.inside k e) :
    i.comparison.Lockstep k (fun j a b => a = b ∧ i.inside j a)
      (makeScope i.rules room (some e)) (makeScope i.rules' room (some e)) := by
  refine Comparison.makeScope_lockstep (A := i.inside) i.fault_refl room
    (fun _ _ _ => i.inside_mono) (some e) ?_ ?_ ?_
  · rintro w _ ⟨rfl, -⟩
    rfl
  · rintro w _ ⟨rfl, hw⟩ hkw
    obtain ⟨hsame, hnew, hinside⟩ := i.scope hw (i.inside_mono hkw he)
    rw [hsame]
    exact ⟨rfl, ⟨rfl, hnew⟩, hinside⟩
  · rintro w _ ⟨rfl, hw⟩
    have hnone := addonFault?_eq_none.2 (i.nameable hw)
    exact ⟨hnone, hnone⟩

end Steps

/-! ## §4. Evaluation -/

/-- Evaluation and itself, in worlds that are in order. -/
def relations : Relations := i.toCondition.relations i.comparison.world i.inside i.home

/-- **Evaluation keeps worlds in order.** -/
def simulation : Simulation where
  toRelations := i.relations
  toLook := i.closed.look i.fault_refl i.inside_mono id
  fault_refl := i.fault_refl
  rounds_eq := i.rounds_eq
  scope_mono := i.inside_mono
  home_mono := i.home_mono
  remembered_mono := i.inside_mono
  home_scope := i.home_inside
  remembered_scope he := he
  world_same := by
    rintro w _ ⟨rfl, -⟩
    exact ⟨rfl, rfl, rfl⟩
  world_print := by
    rintro w _ line ⟨rfl, hw⟩
    exact ⟨rfl, i.print line hw⟩
  world_homes hdraws _ _ h _ _ hwindow := i.homes hdraws h.2 hwindow
  world_stage := by
    rintro w _ stage ⟨rfl, hw⟩ hhomes
    exact ⟨rfl, i.stage stage hw hhomes⟩
  lookup_lockstep room name he := i.lookup_lockstep room he name
  assign_lockstep room he hkey hd := i.assign_lockstep room he hkey hd
  makeScope_lockstep room he := i.makeScope_lockstep room he
  load_lockstep hloads k text := .permit ((i.load hloads k text).imp id fun ⟨hpermits, hload⟩ =>
    ⟨hpermits.1, hpermits.2, hload⟩)
  permits := by
    intro k args args' fn hargs
    obtain rfl : args = args' := List.forall₂_eq_eq_eq ▸ hargs.imp fun a b hab => hab.1
    have hcirculates : ∀ a ∈ args, i.circulates k a :=
      fun a ha => (List.forall₂_same.1 hargs a ha).2
    exact (i.calls k fn args hcirculates).imp id fun hpermits =>
      ⟨hpermits.1, hpermits.2, fun _ _ _ => trivial⟩
  source k text := (i.source k text).imp id fun ⟨hpermits, hgood⟩ =>
    ⟨hpermits.1, hpermits.2, fun n hn => ⟨rfl, hgood n hn⟩⟩

/-! ## §5. Whole runs -/

/-- Invariants of the same evaluations, one or the other of which has evaluation going on wherever a
    window may have been made. -/
def Cover {ι : Type} (i : ι → Invariant) : Prop := Simulation.Cover fun x => (i x).simulation

/-- An invariant that has evaluation going on itself wherever a window may have been made. -/
theorem cover_self (hhome : ∀ {k e}, i.home k e → i.inside k e) : Cover fun _ : Unit => i :=
  i.simulation.cover_self hhome

section Runs

variable {ι : Type} {i : ι → Invariant} (h : Cover i) (x : ι) {k : Forest} {e : ScopeId}
  (depth : Nat) (room : Room)
include h

theorem Cover.eval_lockstep (he : (i x).inside k e) {n : Value} (hn : (i x).good n) :
    (i x).comparison.Lockstep k (i x).passes (eval (i x).rules depth room e n)
      (eval (i x).rules' depth room e n) :=
  (Simulation.Cover.eval_lockstep h depth x x k room e n n he ⟨rfl, hn⟩).weaken
    fun _ _ _ _ hd => hd.1

theorem Cover.evalItems_lockstep (he : (i x).inside k e) {tree : Value} (htree : (i x).nodes tree) :
    (i x).comparison.Lockstep k (i x).passes (evalItems (eval (i x).rules depth) room e tree)
      (evalItems (eval (i x).rules' depth) room e tree) :=
  (i x).simulation.evalItems_lockstep (Simulation.Cover.eval_lockstep h depth x x) he room
    (Condition.nodes_self (i x).fault_refl htree)

theorem Cover.runText_lockstep (he : (i x).inside k e) {text : String}
    (htext : ∀ n ∈ (Grammar.Program.ofText grammarDepth text).nodes, (i x).good n) :
    (i x).comparison.Lockstep k (i x).passes (runText (eval (i x).rules depth) room e text)
      (runText (eval (i x).rules' depth) room e text) :=
  (i x).simulation.runText_lockstep (Simulation.Cover.eval_lockstep h depth x x) he room
    fun n hn => ⟨rfl, htext n hn⟩

theorem Cover.play_lockstep (hdraws : (i x).rules.Draws) (window : Nat) (cue : Stage.Cue) :
    (i x).comparison.Lockstep k Anything (Stage.play (eval (i x).rules depth) room window cue)
      (Stage.play (eval (i x).rules' depth) room window cue) := by
  have htells := Simulation.Cover.tells h (Simulation.Cover.eval_lockstep h depth x) x
  exact (i x).simulation.play_lockstep hdraws htells room window cue

end Runs

end Invariant

/-- What holds of the world before a run and is kept holds of the world that it leaves behind.  The
    run may end with the very fault that stands for a refusal, but not with two of them. -/
theorem Run.holds_after {α : Type} {P : World → Prop} {k : Forest}
    {A : Fault → Forest → α → α → Prop} {x : Run α} {w : World}
    (h : ∀ f, Comparison.Agrees ⟨fun u v => u = v ∧ P u, Eq, fun _ g => g = f⟩ k (A f) (x w) (x w)) :
    P (x.after w) := by
  have hagrees := Comparison.Agrees.settle (A := Anything) fun f =>
    (h f).weaken fun _ _ _ _ _ => trivial
  unfold Run.after
  generalize x w = r at hagrees
  cases hagrees with
  | ok hw' _ _ => exact hw'.2
  | error hw' _ _ => exact hw'.2
  | escape hescape => exact hescape.elim

/-- Unless the comparison is left, two runs in lockstep with equal results are the same, and leave a
    world that is in order. -/
theorem Condition.outcome (c : Condition) {α : Type} {k : Forest} {A : Forest → α → α → Prop}
    (hfault : ∀ f g, c.fault f g → g = f) {x y : Run α} (h : c.comparison.Lockstep k A x y)
    (hA : ∀ j a b, A j a b → b = a) {w : World}
    (hw : c.world w) (hk : k ≤ w.forest) :
    (∃ f w', x w = .error f w' ∧ c.escapes w' f) ∨ y w = x w ∧ c.world (x.after w) := by
  have hagrees := h w w ⟨rfl, hw⟩ hk
  unfold Run.after
  generalize x w = r at hagrees
  generalize y w = r' at hagrees
  cases hagrees with
  | ok hw' _ hab =>
    obtain ⟨rfl, hw'⟩ := hw'
    obtain rfl := hA _ _ _ hab
    exact .inr ⟨rfl, hw'⟩
  | error hw' _ hfg =>
    obtain ⟨rfl, hw'⟩ := hw'
    obtain rfl := hfault _ _ hfg
    exact .inr ⟨rfl, hw'⟩
  | escape hescape => exact .inl ⟨_, _, rfl, hescape⟩

/-- Outcomes that are the same unless a run ends with a given fault, whichever that is, are the
    same. -/
theorem eq_of_forall_fault {α : Type} {r r' : EStateM.Result Fault World α}
    (h : ∀ f, (∃ w, r = .error f w) ∨ r' = r) : r' = r := by
  rcases h .endless with ⟨w, hr⟩ | heq
  · rcases h .tooDeep with ⟨w', hr'⟩ | heq
    · exact nomatch hr.symm.trans hr'
    · exact heq
  · exact heq

end Scrawl
