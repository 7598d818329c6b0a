/-
  Scrawl.Proofs.Eval.Shaping — evaluation keeps to the shapes of programs.

  Nodes that come from a text have a twin in the packed form of the program, and the values that they
  are evaluated to are of a few shapes.  That worlds hold no other values is an invariant
  (`shapingInvariant`), also of two evaluations that are compared up to a call that one of them is
  refused, or both.  So whatever programs do, in whichever order, keeps to the shapes
  (`ProgramStep.wellShaped`).
-/

import Scrawl.Proofs.Eval.Evolution
import Scrawl.Proofs.Eval.PackedWorlds

namespace Scrawl

open Comparison (Anything)
open Grammar (IsName Program)

/-! ## §1. Nodes and values of programs -/

/-- What is in order in a program: nodes with a twin in its packed form, values of the shapes of
    programs, and worlds in which all values are such. -/
def shaping (rules rules' : Rules) (fault : Fault → Fault → Prop)
    (escapes : World → Fault → Prop) : Condition where
  rules := rules
  rules' := rules'
  fault := fault
  escapes := escapes
  world := World.WellShaped
  good n := ∃ n', Twin n n'
  value v := ∃ k, v.Shaped k
  payload := Value.IsOperand
  assignable := IsName

section Nodes

variable {rules rules' : Rules} {fault : Fault → Fault → Prop} {escapes : World → Fault → Prop}

/-- The left one of two computations that match. -/
theorem Comparison.Matches.left {c : Comparison} {α β : Type} {A : α → β → Prop}
    {x : Except Fault α} {y : Except Fault β} (h : c.Matches A x y) {a : α} (ha : x = .ok a) :
    ∃ b, A a b := by
  cases h with
  | ok h =>
    obtain rfl := Except.ok.inj ha
    exact ⟨_, h⟩
  | error _ => exact nomatch ha

theorem forall_twin {ns ns' : List Value} (h : List.Forall₂ Twin ns ns') :
    ∀ n ∈ ns, ∃ n', Twin n n' :=
  ((List.forall₂_and_left _ _).1 (h.imp fun _ n' hn => ⟨⟨n', hn⟩, hn⟩)).1

/-- The statements of a text. -/
theorem program_twins (text : String) :
    ∀ n ∈ (Program.ofText grammarDepth text).nodes, ∃ n', Twin n n' :=
  forall_twin (Twin.list (Grammar.ofText_grammatical grammarDepth text))

theorem shaping_closed : (shaping rules rules' fault escapes).Closed where
  good_operation := by
    rintro n ⟨n', h⟩ htag
    obtain ⟨-, hleft, hright⟩ := h.operation (shaping rules rules' fault escapes).comparison htag
    exact ⟨fun m hm => hleft.left hm, fun m hm => hright.left hm⟩
  good_assignment := by
    rintro n ⟨n', h⟩ htag
    obtain ⟨htarget, hvalue⟩ := h.assignment (shaping rules rules' fault escapes).comparison htag
    refine ⟨fun t key ht hkey => ?_, fun m hm => hvalue.left hm⟩
    obtain ⟨t', ht'⟩ := htarget.left ht
    obtain ⟨_, -, hname⟩ := ht'.left hkey
    exact hname
  good_call := by
    rintro n ⟨n', h⟩ htag
    obtain ⟨hcallee, hargs⟩ := h.call (shaping rules rules' fault escapes).comparison htag
    refine ⟨fun m hm => hcallee.left hm, fun b hb items hitems => ?_⟩
    obtain ⟨b', hb'⟩ := hargs.left hb
    obtain ⟨items', hitems'⟩ := hb'.left hitems
    exact forall_twin hitems'
  good_function := by
    rintro n ⟨n', h⟩ htag
    obtain ⟨names, body, hnames, hbody, hparams, hstatements, -, -⟩ := h.function_parts htag
    constructor
    · intro p hp items hitems q hq key hkey
      obtain rfl := Except.ok.inj (hparams.symm.trans hp)
      obtain rfl := Except.ok.inj hitems
      obtain ⟨m, hm, rfl⟩ := List.mem_map.1 hq
      obtain rfl := Except.ok.inj hkey
      exact hnames _ hm
    · intro b hb items hitems
      obtain rfl := Except.ok.inj (hstatements.symm.trans hb)
      obtain rfl := Except.ok.inj hitems
      exact forall_twin (Twin.list hbody)
  good_value := fun ⟨_, h⟩ => ⟨_, .value h⟩
  good_block := fun ⟨_, h⟩ => ⟨_, .block h⟩
  good_news _ _ hargs := ⟨_, .news hargs⟩
  value_function := by
    rintro n p b ⟨n', h⟩ htag hp hb home
    obtain ⟨names, body, hnames, hbody, hparams, hstatements, -, -⟩ := h.function_parts htag
    obtain rfl := Except.ok.inj (hparams.symm.trans hp)
    obtain rfl := Except.ok.inj (hstatements.symm.trans hb)
    exact ⟨home + 1, .function hnames hbody (Nat.lt_succ_self home)⟩
  value_payload := fun ⟨_, h⟩ hp => h.payload hp
  value_operate hop hp hq hr := ⟨0, .number (operator_payload hop hp hq hr)⟩
  value_float x := ⟨0, .number (.float x)⟩
  value_int i := ⟨0, .number (.int i)⟩
  value_string s := ⟨0, .string s⟩
  value_text s := ⟨0, .text s⟩
  value_nothing := ⟨0, .nothing⟩
  value_blank := ⟨0, .blank⟩

/-- A value that has a shape, and remembers a scope that exists if it is a function. -/
theorem Value.shaped_iff {k : Nat} {v : Value} :
    v.Shaped k ↔ v.Callable (· < k) ∧ ∃ j, v.Shaped j := by
  constructor
  · intro h
    refine ⟨fun htag => ?_, k, h⟩
    obtain ⟨names, body, home, rfl, -, -, hhome⟩ := h.function_parts htag
    exact ⟨_, _, home, rfl, hhome⟩
  · rintro ⟨hcallable, j, h⟩
    -- only functions refer to scopes
    cases h with
    | number h => exact .number h
    | string s => exact .string s
    | nothing => exact .nothing
    | native fn => exact .native fn
    | text s => exact .text s
    | blank => exact .blank
    | function hnames hbody _ =>
      obtain ⟨_, _, home, heq, hhome⟩ := hcallable rfl
      cases heq
      exact .function hnames hbody hhome

end Nodes

/-! ## §2. The invariant -/

section Steps

variable {rules rules' : Rules} {fault : Fault → Fault → Prop} {escapes : World → Fault → Prop}
  {k : Forest} (hfault : ∀ f, fault f f)
include hfault

theorem shaping_register (name : String) (fn : Native) :
    (shaping rules rules' fault escapes).comparison.Lockstep k Anything
      (register (.text name) (.nativeValue fn)) (register (.text name) (.nativeValue fn)) := by
  refine Comparison.register_lockstep hfault _ _ ?_ ?_
  · rintro w _ ⟨rfl, hw⟩
    exact ⟨rfl, (hw.moreAddons name fn).refresh _⟩
  · rintro w _ ⟨rfl, -⟩
    rfl

theorem shaping_load {libraries : Libraries} (hlibraries : libraries.Inert) (text : String) :
    (shaping rules rules' fault escapes).comparison.Lockstep k Anything (Library.load libraries text)
      (Library.load libraries text) := by
  refine Comparison.load_lockstep hfault hlibraries text ?_ ?_ fun j _ name fn =>
    shaping_register hfault name fn
  · rintro w _ ⟨rfl, -⟩
    rfl
  · rintro w _ ⟨rfl, hw⟩
    exact ⟨rfl, { hw with homes := hw.homes }⟩

/-- Making a scope, outermost or inside one that exists. -/
theorem shaping_makeScope (room : Room) (parent : Option ScopeId) :
    (shaping rules rules fault escapes).comparison.Lockstep k (fun j a b => a = b ∧ a < j.size)
      (makeScope rules room parent) (makeScope rules room parent) := by
  refine Comparison.makeScope_lockstep (A := fun j e => e < j.size) hfault room
    (fun _ _ _ hij => Forest.lt_size_of_le hij) parent ?_ ?_ ?_
  · rintro w _ ⟨rfl, -⟩
    rfl
  · rintro w _ ⟨rfl, hw⟩ -
    exact ⟨rfl, ⟨rfl, hw.newScope rules parent⟩, w.forest.lt_size_newScope rules w.addons parent⟩
  · rintro w _ ⟨rfl, hw⟩
    exact ⟨hw.addonFault?_eq, hw.addonFault?_eq⟩

end Steps

/-- Rules that differ at most in what calls they refuse, where the two evaluations stop. -/
structure Rules.Differ (rules rules' : Rules) (fault : Fault → Fault → Prop)
    (escapes : World → Fault → Prop) : Prop where
  /-- Both may end with the same fault. -/
  fault_refl : ∀ f, fault f f
  /-- Loops may go round equally often. -/
  rounds : rules'.rounds = rules.rounds
  /-- Names are set again by both or by neither. -/
  restores : rules'.restores = rules.restores
  /-- Libraries are the same. -/
  libraries : rules'.libraries = rules.libraries
  /-- They do nothing. -/
  inert : rules.libraries.Inert
  /-- Calls with arguments that have shapes. -/
  calls : ∀ k fn args, (∀ a ∈ args, a.Shaped k.size) →
    (shaping rules rules' fault escapes).stops k (.call fn args) ∨
      (shaping rules rules' fault escapes).permits (.call fn args)
  /-- Files may be run, and libraries loaded. -/
  files : ∀ text, (shaping rules rules' fault escapes).permits (.source text) ∧
    (shaping rules rules' fault escapes).permits (.load text)
  /-- So may drawing functions be called. -/
  draws : rules.Draws

/-- **Evaluation keeps to the shapes of programs.** -/
def shapingInvariant {rules rules' : Rules} {fault : Fault → Fault → Prop}
    {escapes : World → Fault → Prop} (h : rules.Differ rules' fault escapes) : Invariant where
  toCondition := shaping rules rules' fault escapes
  fault_refl := h.fault_refl
  rounds_eq := h.rounds
  closed := shaping_closed
  inside_mono hjk he := Forest.lt_size_of_le hjk he
  home_mono hjk he := Forest.lt_size_of_le hjk he
  home_inside he := he
  found hw _ hd := Value.shaped_iff.1 (hw.get? hd)
  nameable hw := hw.nameable
  homes _ _ _ _ hw hwindow := hw.homes hwindow
  print _ hw := { hw with }
  stage _ hw hhomes := { hw with homes := fun hwindow => hhomes _ _ hwindow }
  set {w e key n d} hw _ _ _ hd := by
    obtain ⟨spellings, hspellings⟩ := w.noteSpelling_eq e n key
    rw [hspellings]
    exact { hw.set e n (Value.shaped_iff.2 hd) with }
  scope {w p} hw _ := ⟨w.forest.newScope_congr _ _ h.restores _, hw.newScope rules (some p),
    w.forest.lt_size_newScope rules w.addons (some p)⟩
  calls k fn args hargs := h.calls k fn args fun a ha => Value.shaped_iff.2 (hargs a ha)
  source k text := .inr ⟨(h.files text).1, program_twins text⟩
  load _ k text := by
    refine .inr ⟨(h.files text).2, ?_⟩
    show Comparison.Lockstep _ k Anything (Library.load rules.libraries text)
      (Library.load rules'.libraries text)
    rw [h.libraries]
    exact shaping_load h.fault_refl h.inert text

theorem shaping_cover {rules rules' : Rules} {fault : Fault → Fault → Prop}
    {escapes : World → Fault → Prop} (h : rules.Differ rules' fault escapes) :
    Invariant.Cover fun _ : Unit => shapingInvariant h :=
  Invariant.cover_self _ id

/-- Rules that refuse nothing, wherever the comparison may be left. -/
theorem Rules.differ_of_refuses {rules : Rules} (h : ∀ action, rules.refuses action = none)
    (hlibraries : rules.libraries.Inert) (escapes : World → Fault → Prop) :
    rules.Differ rules Eq escapes where
  fault_refl _ := rfl
  rounds := rfl
  restores := rfl
  libraries := rfl
  inert := hlibraries
  calls _ _ _ _ := .inr ⟨h _, h _⟩
  files _ := ⟨⟨h _, h _⟩, h _, h _⟩
  draws := Rules.draws_of_refuses h

/-- Rules that refuse nothing. -/
theorem Rules.differ_self {rules : Rules} (h : ∀ action, rules.refuses action = none)
    (hlibraries : rules.libraries.Inert) : rules.Differ rules Eq fun _ _ => False :=
  Rules.differ_of_refuses h hlibraries _

/-! ## §3. What programs do -/

/-- What goes on in a world with programs. -/
inductive Activity where
  /-- A text is run in a scope. -/
  | run (e : ScopeId) (text : String)
  /-- Something happens to a window. -/
  | play (window : Nat) (cue : Stage.Cue)

namespace Activity

/-- Programs are run in scopes that exist. -/
def Possible (k : Forest) : Activity → Prop
  | run e _ => e < k.size
  | play _ _ => True

/-- What an activity does, by an evaluator. -/
def perform (inner : Evaluator) (room : Room) : Activity → Run Unit
  | run e text => do let _ ← runText inner room e text
  | play window cue => Stage.play inner room window cue

section Lockstep

variable {rules rules' : Rules} {fault : Fault → Fault → Prop} {escapes : World → Fault → Prop}
  (h : rules.Differ rules' fault escapes) {k : Forest} {a : Activity} (ha : a.Possible k)
  (room : Room)
include ha

/-- An activity goes in lockstep by evaluators that do. -/
theorem perform_lockstep {inner inner' : Evaluator}
    (hinner : (shapingInvariant h).simulation.Evaluates inner inner') :
    (shapingInvariant h).comparison.Lockstep k Anything (a.perform inner room)
      (a.perform inner' room) := by
  cases a with
  | run e text =>
    refine .bind ((shapingInvariant h).simulation.runText_lockstep hinner ha room
      fun n hn => ⟨rfl, program_twins text n hn⟩) fun _ _ _ _ _ => ?_
    exact .pure fun _ _ => trivial
  | play window cue =>
    have htells := Simulation.Cover.tells (shaping_cover h) (fun _ => hinner) ()
    exact (shapingInvariant h).simulation.play_lockstep h.draws htells room window cue

/-- An activity by evaluation. -/
theorem eval_lockstep (depth : Nat) :
    (shapingInvariant h).comparison.Lockstep k Anything (a.perform (eval rules depth) room)
      (a.perform (eval rules' depth) room) :=
  a.perform_lockstep h ha room (Simulation.Cover.eval_lockstep (shaping_cover h) depth () ())

end Lockstep

end Activity

/-- What can be done with programs alone: making scopes, and activities.  The programs may load the
    drawing library, and others that do nothing but succeed or fail. -/
inductive ProgramStep : World → World → Prop
  /-- A scope is made, outermost or inside one that exists. -/
  | makeScope {w : World} (rounds : Nat) (libraries : Libraries) (room : Room)
      (parent : Option ScopeId) (hparent : ∀ p, parent = some p → p < w.forest.size) :
      ProgramStep w ((makeScope { rounds, restores := true, libraries } room parent).after w)
  /-- Something goes on, to the end or up to a fault. -/
  | perform {w : World} (rounds depth : Nat) {libraries : Libraries} (hlibraries : libraries.Inert)
      (room : Room) {a : Activity} (ha : a.Possible w.forest) :
      ProgramStep w ((a.perform (eval { rounds, restores := true, libraries } depth) room).after w)

/-- Runs that keep to the shapes of programs and never leave the comparison. -/
theorem wellShaped_outcome {α : Type} {rules : Rules} {x y : Run α} {w : World}
    {A : Forest → α → α → Prop} (hA : ∀ j a b, A j a b → b = a)
    (h : (shaping rules rules Eq fun _ _ => False).comparison.Lockstep w.forest A x y)
    (hw : w.WellShaped) : y w = x w ∧ (x.after w).WellShaped := by
  rcases (shaping rules rules Eq fun _ _ => False).outcome (fun _ _ hfault => hfault.symm) h hA hw
    le_rfl with ⟨_, _, _, hfalse⟩ | hsame
  · exact hfalse.elim
  · exact hsame

/-- Running programs keeps worlds to the shapes of programs. -/
theorem ProgramStep.wellShaped {w w' : World} (h : ProgramStep w w') (hw : w.WellShaped) :
    w'.WellShaped := by
  cases h with
  | makeScope rounds libraries room parent hparent =>
    exact (wellShaped_outcome (fun _ _ _ hab => hab.1.symm) (shaping_makeScope (fun _ => rfl) room
      parent) hw).2
  | @perform rounds depth libraries hlibraries room _ ha =>
    let rules : Rules := { rounds, restores := true, libraries }
    have hdiffer : rules.Differ rules Eq fun _ _ => False :=
      Rules.differ_self (fun _ => rfl) hlibraries
    exact (wellShaped_outcome (fun _ _ _ _ => rfl) (Activity.eval_lockstep hdiffer ha room depth)
      hw).2

/-- So all that programs bring about from nothing keeps to them. -/
theorem World.wellShaped_of_programs {scopeText : String} {files : FileTree} {cues : List Stage.Cue}
    {w : World} (h : Relation.ReflTransGen ProgramStep (World.empty scopeText files cues) w) :
    w.WellShaped := by
  induction h with
  | refl => exact World.wellShaped_empty scopeText files cues
  | tail _ hstep ih => exact hstep.wellShaped ih

end Scrawl
