/-
  Scrawl.Proofs.Eval.Simulation — what it takes for two evaluations to go in lockstep.

  Evaluation does few things to the world and looks at nodes and values in few ways.  A
  `Simulation` says how the worlds, nodes and values of two evaluations are related and that each of
  these few things respects the relations.  Everything that evaluation is built from then goes in
  lockstep, and so does evaluation to any depth (`Simulation.eval_lockstep`).

  An invariant of evaluation is a simulation of evaluation by itself, with related worlds equal.
-/

import Mathlib.Tactic.Order
import Scrawl.Eval.Node
import Scrawl.Proofs.Eval.Lockstep

namespace Scrawl

open Comparison (Same Anything)

/-! ## §1. Relations -/

/-- The functions of the language that only evaluate their arguments again, call them or compare
    them, and never look at their text. -/
def Native.isControl : Native → Bool
  | .choose => true
  | .loop => true
  | .equals => true
  | _ => false

/-- What a window tells its functions: texts and whole numbers. -/
def Value.IsNews (v : Value) : Prop := (∃ s, v = .string s) ∨ ∃ i, v = .number (.int i)

/-- How the parts of two evaluations are related. -/
structure Relations extends Comparison where
  /-- The rules of the first evaluation. -/
  rules : Rules
  /-- The rules of the second one. -/
  rules' : Rules
  /-- The scopes of a forest in which both evaluate. -/
  scope : Forest → ScopeId → Prop
  /-- The scopes of a forest in which windows may have been made. -/
  home : Forest → ScopeId → Prop
  /-- The scopes of a forest that functions may remember. -/
  remembered : Forest → ScopeId → Prop := scope
  /-- Related values, while there is this forest. -/
  value : Forest → Value → Value → Prop
  /-- Related nodes. -/
  node : Value → Value → Prop
  /-- Related payloads of related values. -/
  payload : Value → Value → Prop
  /-- The values that are the same in both evaluations and are turned into such by evaluating them
      again. -/
  plain : Value → Prop
  /-- What may be set. -/
  assignable : Value → Prop

namespace Relations

variable (r : Relations)

/-- Related values in circulation. -/
def datum (k : Forest) (d d' : Datum) : Prop := r.value k d.value d'.value ∧ d'.mark = d.mark

/-- A name that both evaluations may set. -/
def target (key key' : Value) : Prop := key' = key ∧ r.assignable key

/-- Related parameter lists: as many, with the same names. -/
def parameters (p p' : Value) : Prop :=
  r.Matches Eq p.length p'.length ∧
    r.Matches (List.Forall₂ fun q q' => r.Matches r.target q.payload q'.payload) p.items p'.items

/-- Related lists of nodes. -/
def nodes (b b' : Value) : Prop := r.Matches (List.Forall₂ r.node) b.items b'.items

/-- Every window of a stage was made in a scope in which it may have been. -/
def homes (k : Forest) (stage : Stage) : Prop :=
  ∀ (n : Nat) (window : Stage.Window), stage.windows[n]? = some window → r.home k window.home

/-- A result of evaluation; that of a plain node is plain. -/
def result (n : Value) (k : Forest) (d d' : Datum) : Prop :=
  r.datum k d d' ∧ (r.plain n → r.plain d.value)

/-- Two evaluators go in lockstep on related nodes. -/
def Evaluates (inner inner' : Evaluator) : Prop :=
  ∀ k room e n n', r.scope k e → r.node n n' →
    r.Lockstep k (r.result n) (inner room e n) (inner' room e n')

/-- Two evaluators go in lockstep on what a window tells its functions. -/
def Tells (inner inner' : Evaluator) : Prop :=
  ∀ k room e name args, r.home k e → (∀ a ∈ args, Value.IsNews a) →
    r.Lockstep k Anything (callNamed inner room e name (.list args))
      (callNamed inner' room e name (.list args))

end Relations

/-- Rules that permit some call of a drawing function. -/
def Rules.Draws (rules : Rules) : Prop :=
  ∃ load op args, rules.refuses (.call (.drawing load op) args) = none

theorem Rules.draws_of_refuses {rules : Rules} (h : ∀ action, rules.refuses action = none) :
    rules.Draws :=
  ⟨0, .create, [], h _⟩

/-- Rules that permit some call of a function that loads libraries. -/
def Rules.Loads (rules : Rules) : Prop :=
  ∃ fn args, (fn = .library ∨ fn = .libraryRaw) ∧ rules.refuses (.call fn args) = none

/-! ## §2. Simulations -/

/-- Related nodes and values look alike wherever evaluation looks at them. -/
structure Relations.Look (r : Relations) : Prop where
  -- how nodes are looked at
  /-- Related nodes have the same tag. -/
  node_tag : ∀ {n n'}, r.node n n' → r.Matches Eq n.tag n'.tag
  /-- Related nodes can both be written, or neither. -/
  node_writable : ∀ {n n'}, r.node n n' → n'.isWritable = n.isWritable
  /-- The text of a callee is all that faults about wrong numbers of arguments may differ in. -/
  node_arity : ∀ {n n'}, r.node n n' → ∀ count text required,
    r.fault (.wrongArity count (n.plainText text) required)
      (.wrongArity count (n'.plainText text) required)
  /-- Related numbers are the same number, if they are one. -/
  node_number : ∀ {n n'}, r.node n n' → n.tag = .ok (.text "number") →
    r.Matches (fun p p' => r.Matches Eq p.toFloat p'.toFloat)
      n.payload n'.payload
  /-- Related strings are the same. -/
  node_string : ∀ {n n'}, r.node n n' → n.tag = .ok (.text "string") →
    r.Matches Eq n.payload n'.payload
  /-- Related operations have the same operator and related operands. -/
  node_operation : ∀ {n n'}, r.node n n' → n.tag = .ok (.text "operation") →
    r.Matches Eq (n.item 1) (n'.item 1) ∧
      r.Matches r.node (n.item 2) (n'.item 2) ∧
      r.Matches r.node (n.item 3) (n'.item 3)
  /-- Related symbols have the same name. -/
  node_symbol : ∀ {n n'}, r.node n n' → n.tag = .ok (.text "symbol") →
    r.Matches Eq (n.item 1) (n'.item 1)
  /-- Related assignments set the same name, to what related nodes give. -/
  node_assignment : ∀ {n n'}, r.node n n' → n.tag = .ok (.text "assignment") →
    r.Matches (fun t t' => r.Matches r.target (t.item 1) (t'.item 1))
        (n.item 1) (n'.item 1) ∧
      r.Matches r.node (n.item 2) (n'.item 2)
  /-- Related calls have related callees and arguments. -/
  node_call : ∀ {n n'}, r.node n n' → n.tag = .ok (.text "call") →
    r.Matches r.node (n.item 1) (n'.item 1) ∧
      r.Matches r.nodes (n.item 2) (n'.item 2)
  /-- What related functions are made into is related. -/
  node_function : ∀ {n n'}, r.node n n' → n.tag = .ok (.text "function") →
    r.Matches (fun p p' => r.Matches
        (fun b b' => ∀ k home, r.scope k home → r.value k (.function p b home) (.function p' b' home))
        (n.item 2) (n'.item 2))
      (n.item 1) (n'.item 1)
  /-- Related values are related as nodes. -/
  node_value : ∀ {k v v'}, r.value k v v' → r.node v v'
  /-- So are calls of related values without arguments. -/
  node_block : ∀ {k v v'}, r.value k v v' →
    r.node (.callNode v (.tuple [])) (.callNode v' (.tuple []))
  /-- A window's call of a function by name is related to itself. -/
  node_news : ∀ name args, (∀ a ∈ args, a.IsNews) →
    r.node (.callNode (.symbolNode name) (.list args)) (.callNode (.symbolNode name) (.list args))
  -- how values are looked at, and the values evaluation makes
  /-- What holds of a value holds of it later. -/
  value_mono : ∀ {i j v v'}, i ≤ j → r.value i v v' → r.value j v v'
  /-- Related values are both nothing, or neither is. -/
  value_isNil : ∀ {k v v'}, r.value k v v' → v'.isNil = v.isNil
  /-- Related values have related payloads. -/
  value_payload : ∀ {k v v'}, r.value k v v' → r.Matches r.payload v.payload v'.payload
  /-- Operators give related numbers. -/
  value_operate : ∀ {op apply p p' q q'}, operator? op = some apply → r.payload p p' →
    r.payload q q' → r.Matches (fun a a' => ∀ k, r.value k (.number a) (.number a'))
      (apply p q) (apply p' q')
  /-- Related payloads are both one, or neither is. -/
  payload_isOne : ∀ {p p'}, r.payload p p' → p'.isOne = p.isOne
  /-- Comparing related payloads gives the same. -/
  payload_equal : ∀ {p p' q q'}, r.payload p p' → r.payload q q' → p'.equal q' = p.equal q
  /-- What evaluation makes by itself is related to itself. -/
  value_float : ∀ k x, r.value k (.number (.float x)) (.number (.float x))
  value_int : ∀ k i, r.value k (.number (.int i)) (.number (.int i))
  value_string : ∀ k t, r.value k (.string t) (.string t)
  value_text : ∀ k t, r.value k (.text t) (.text t)
  value_nothing : ∀ k, r.value k .nothing .nothing
  value_blank : ∀ k, r.value k .blank .blank
  /-- Related functions have related parameters and bodies, and the same scope. -/
  value_function : ∀ {k v v'}, r.value k v v' → v.tag = .ok (.text "function") →
    r.Matches r.parameters (v.item 1) (v'.item 1) ∧
      r.Matches r.nodes (v.item 2) (v'.item 2) ∧
      ∃ home, v.item 3 = .ok (.scope home) ∧ v'.item 3 = .ok (.scope home) ∧ r.remembered k home
  /-- Related functions of the language are the same. -/
  value_native : ∀ {k v v'}, r.value k v v' → v.tag = .ok (.text "native") →
    r.Matches Eq (v.item 1) (v'.item 1)
  /-- A plain value is related only to itself. -/
  plain_eq : ∀ {k v v'}, r.value k v v' → r.plain v → v' = v
  /-- Plain numbers, strings and nothing evaluate to such. -/
  plain_float : ∀ x, r.plain (.number (.float x))
  plain_string : ∀ t, r.plain (.string t)
  plain_nothing : r.plain .nothing
  /-- Other nodes are plain only if all values are. -/
  plain_tag : ∀ {v tag t}, r.plain v → v.tag = .ok tag → Tag.of? tag = some t →
    t = .number ∨ t = .string ∨ t = .none ∨ ∀ u, r.plain u

/-- Relations that everything evaluation does respects. -/
structure Simulation extends Relations, Relations.Look toRelations where
  /-- Every fault is related to itself. -/
  fault_refl : ∀ f, fault f f
  /-- Both loop equally often. -/
  rounds_eq : rules'.rounds = rules.rounds
  -- what is done to the world
  /-- What holds of a scope holds of it later. -/
  scope_mono : ∀ {i j e}, i ≤ j → scope i e → scope j e
  home_mono : ∀ {i j e}, i ≤ j → home i e → home j e
  remembered_mono : ∀ {i j e}, i ≤ j → remembered i e → remembered j e
  /-- Windows may be made where both evaluate. -/
  home_scope : ∀ {k e}, scope k e → home k e
  /-- Functions may remember where both evaluate. -/
  remembered_scope : ∀ {k e}, scope k e → remembered k e
  /-- Related worlds have the same files, stage and way to write a scope. -/
  world_same : ∀ {w w'}, world w w' →
    w'.files = w.files ∧ w'.stage = w.stage ∧ w'.scopeText = w.scopeText
  /-- Related worlds stay so when the same is printed. -/
  world_print : ∀ {w w'} line, world w w' →
    world { w with printed := w.printed ++ line ++ "\n" }
      { w' with printed := w'.printed ++ line ++ "\n" }
  /-- Windows were made where they may have been, if anything is done to them at all. -/
  world_homes : rules.Draws → ∀ {w w'}, world w w' → toRelations.homes w.forest w.stage
  /-- Related worlds stay so when the same happens on the stage. -/
  world_stage : ∀ {w w'} stage, world w w' → toRelations.homes w.forest stage →
    world { w with stage } { w' with stage }
  /-- Looking a name up gives related values. -/
  lookup_lockstep : ∀ {k e} room name, scope k e →
    toComparison.Lockstep k (fun j => Option.Rel (toRelations.datum j))
      (lookup room e name) (lookup room e name)
  /-- Names can be set to related values. -/
  assign_lockstep : ∀ {k e key d d'} room, scope k e → assignable key →
    toRelations.datum k d d' →
    toComparison.Lockstep k Anything (assign room e key d) (assign room e key d')
  /-- Scopes can be made inside those that functions remember, and both evaluate there. -/
  makeScope_lockstep : ∀ {k e} room, remembered k e →
    toComparison.Lockstep k (fun j a b => a = b ∧ scope j a)
      (makeScope rules room (some e)) (makeScope rules' room (some e))
  /-- Libraries can be loaded, if they are at all. -/
  load_lockstep : rules.Loads → ∀ k text,
    toComparison.Lockstep k Anything (loadLibrary rules text) (loadLibrary rules' text)
  /-- A call of a function of the language is permitted in both evaluations, with arguments that
      are plain if it may look at their text, or they stop there. -/
  permits : ∀ {k args args'} fn, List.Forall₂ (value k) args args' →
    toComparison.Stops rules rules' k (.call fn args) (.call fn args') ∨
      rules.refuses (.call fn args) = none ∧ rules'.refuses (.call fn args') = none ∧
        (fn.isControl = false → ∀ a ∈ args, plain a)
  /-- A file may be run in both evaluations, and its statements are related to themselves, or they
      stop there. -/
  source : ∀ k text, toComparison.Stops rules rules' k (.source text) (.source text) ∨
    rules.refuses (.source text) = none ∧ rules'.refuses (.source text) = none ∧
      ∀ n ∈ (Grammar.Program.ofText grammarDepth text).nodes, node n n

end Scrawl
