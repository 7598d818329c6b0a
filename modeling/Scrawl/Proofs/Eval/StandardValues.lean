/-
  Scrawl.Proofs.Eval.StandardValues — how redefinitions of standard names are undone.

  A program can set any name, those of the language and of add-ons included.  Registering an add-on
  gives every add-on its value back, in every scope there is (`register_reaches_all`).  Making a scope
  inside another one gives them back, and the names of the language, around that one; every function
  call and every function literal makes such a scope (`makeScope_restores`).
-/

import Scrawl.Proofs.Eval.Circulation
import Scrawl.Proofs.Eval.Histories
import Scrawl.Proofs.Scope.StandardValues

namespace Scrawl

/-! ## §1. Registering -/

/-- **Registering an add-on reaches everyone**: in every world that a host can bring about, it
    succeeds, and then every scope resolves the name to the value registered and every name of an
    add-on to the value last registered under it, whatever programs have made of them, while own
    variables with other names are as they were. -/
theorem register_reaches_all {scopeText : String} {files : FileTree} {cues : List Stage.Cue}
    {w : World} (h : History (World.empty scopeText files cues) w) {key : Value} {n : Name}
    (hkey : key.toName = .ok n) (v : Value) :
    ∃ w', register key v w = .ok () w' ∧ w.AddonReached key v n w' := by
  obtain ⟨hhoused, hstanding⟩ := h.lawful
  refine ⟨_, register_eq hkey hhoused.nameable hhoused.stray v, ?_⟩
  have hchange : Change w { w with
      addons := w.addons ++ [(key, v)]
      forest := w.forest.refresh (w.addons ++ [(key, v)]) w.forest.size } :=
    .register hkey rfl rfl
  exact World.addonReached hkey (hchange.nameable hhoused.nameable) rfl rfl

/-- An assignment of a text to a name. -/
def settingNode (name text : String) : Value :=
  .tuple [.text "assignment", .symbolNode (.text name), .string text]

/-- A scope inside another one, in which a name has been set. -/
def settingWorld (name text : String) : World :=
  (eval .standard 2 .unlimited 1 (settingNode name text)).after nestedWorld

theorem settingWorld_history (name text : String) :
    History (World.empty "" ⟨[]⟩ []) (settingWorld name text) :=
  .tail (.tail (.single (.step (.makeScope _ .idle .unlimited none nofun)))
      (.step (.makeScope _ .idle .unlimited (some 0) fun p hp =>
        Option.some.inj hp ▸ by decide +kernel)))
    (.step (.eval _ 2 Libraries.idle_inert .unlimited (by decide +kernel) _))

/-- An add-on reaches a scope that has a variable of its own with that name. -/
theorem shadowed_reached :
    History (World.empty "" ⟨[]⟩ []) (settingWorld "shout" "x") ∧
      (settingWorld "shout" "x").forest.owns 1 (.text "shout") = true ∧
      ∃ w', register (.text "shout") (.nativeValue .print) (settingWorld "shout" "x") = .ok () w' ∧
        (settingWorld "shout" "x").AddonReached (.text "shout") (.nativeValue .print)
          (.text "shout") w' := by
  have hhistory := settingWorld_history "shout" "x"
  exact ⟨hhistory, by decide +kernel, register_reaches_all hhistory rfl (.nativeValue .print)⟩

/-! ## §2. Making scopes -/

/-- With enough room a scope is made. -/
theorem makeScope_eq {w : World} (hnameable : ∀ a ∈ w.addons, ∃ n, a.1.toName = .ok n)
    (rules : Rules) {room : Room} {parent : Option ScopeId}
    (hroom : room.holds (w.scopeLevels parent) = true) :
    makeScope rules room parent w
      = .ok w.forest.size { w with forest := w.forest.newScope rules w.addons parent } := by
  have hdescend : room.descend (w.scopeLevels parent) = .ok (room.below (w.scopeLevels parent)) :=
    if_pos hroom
  have hnames : addonFault? w.addons = none := addonFault?_eq_none.2 hnameable
  unfold makeScope
  refine (Run.bind_of_ok rfl _).trans ?_
  rw [hdescend]
  refine (Run.bind_of_ok rfl _).trans ((Run.bind_of_ok rfl _).trans ((Run.bind_of_ok rfl _).trans ?_))
  dsimp only
  rw [hnames]
  rfl

/-- Without it there is none. -/
theorem makeScope_tooDeep {w : World} (rules : Rules) {room : Room} {parent : Option ScopeId}
    (hroom : room.holds (w.scopeLevels parent) = false) :
    makeScope rules room parent w = .error .tooDeep w := by
  unfold makeScope
  refine (Run.bind_of_ok rfl _).trans ?_
  rw [Room.descend_of_not_holds hroom]
  rfl

/-- With enough room a scope is made inside another one, and gives standard names their values. -/
theorem World.Standing.exists_scope {w : World} (h : w.Standing) {rules : Rules}
    (hrules : rules.restores = true) {room : Room} {p : ScopeId} (hp : p < w.forest.size)
    (hroom : room.holds (w.scopeLevels (some p)) = true) :
    ∃ u, makeScope rules room (some p) w = .ok w.forest.size u ∧ w.ScopeMade p u :=
  ⟨_, makeScope_eq h.nameable rules hroom, h.scopeMade hrules hp⟩

/-- A function literal makes a scope inside the one in which it is evaluated. -/
theorem eval_function_eq {rules : Rules} {room : Room} {p e : ScopeId} {w w' : World}
    (hroom : room.holds 1 = true) (hmade : makeScope rules (room.below 1) (some p) w = .ok e w')
    {node params body : Value} (htag : node.tag = .ok (.text "function"))
    (hparams : node.item 1 = .ok params) (hbody : node.item 2 = .ok body) (depth : Nat) :
    eval rules (depth + 1) room p node w = .ok (.plain (.function params body e)) w' := by
  have hdescend : room.descend 1 = .ok (room.below 1) := if_pos hroom
  unfold eval evalLayer evalFunction
  rw [hdescend, htag, hparams, hbody]
  exact Run.bind_of_ok hmade fun home => pure (Datum.plain (.function params body home))

/-- A function that is given as many arguments as it has parameters is run in a new scope inside the one
    that it remembers. -/
theorem callFunction_of_arity {params : Value} {args : List Datum}
    (harity : params.length = .ok args.length) (rules : Rules) (inner : Evaluator) (room : Room)
    (callee body : Value) (p : ScopeId) :
    callFunction rules inner room callee (.function params body p) args
      = (do
          let e ← makeScope rules room (some p)
          bindParams room e ((← params.items).zip args)
          evalItems inner room e body : Run Datum) := by
  have hchecked : checkArity callee args.length args.length false = pure () := by
    unfold checkArity wrongArity?
    rw [if_neg Bool.false_ne_true, if_pos (beq_self_eq_true args.length)]
  unfold callFunction
  show (liftM params.length >>= fun count => checkArity callee count args.length false >>= fun _ =>
    makeScope rules room (some p) >>= fun e => _ : Run Datum) = _
  rw [harity]
  show (checkArity callee args.length args.length false >>= fun _ =>
    makeScope rules room (some p) >>= fun e => _ : Run Datum) = _
  rw [hchecked]
  rfl

/-- A function call makes a scope inside the one that the function remembers, and goes on there. -/
theorem callFunction_eq {rules : Rules} {room : Room} {p e : ScopeId} {w w' : World}
    (hmade : makeScope rules room (some p) w = .ok e w') {params : Value} {args : List Datum}
    (harity : params.length = .ok args.length) (inner : Evaluator) (callee body : Value) :
    callFunction rules inner room callee (.function params body p) args w
      = (do
          bindParams room e ((← params.items).zip args)
          evalItems inner room e body : Run Datum) w' := by
  rw [callFunction_of_arity harity]
  exact Run.bind_of_ok hmade _

/-- **Making a scope inside another one undoes redefinitions**: in every world that a host can bring
    about, the new scope owns nothing and resolves every name of the language and of an add-on to its
    standard value, which is given back to the nearest owner around it; nothing else changes.  Every
    function literal makes a scope inside the one it is evaluated in, and every function call inside
    the one that the function remembers, before anything else is done. -/
theorem makeScope_restores {scopeText : String} {files : FileTree} {cues : List Stage.Cue}
    {w : World} (h : History (World.empty scopeText files cues) w) {p : ScopeId}
    (hp : p < w.forest.size) (rounds : Nat) (libraries : Libraries) :
    ∃ w', w.ScopeMade p w' ∧
      (∀ room : Room, room.holds (w.scopeLevels (some p)) = true →
        makeScope { rounds, restores := true, libraries } room (some p) w = .ok w.forest.size w') ∧
      (∀ (depth : Nat) (room : Room) (node params body : Value),
        room.holds (1 + w.scopeLevels (some p)) = true →
        node.tag = .ok (.text "function") → node.item 1 = .ok params → node.item 2 = .ok body →
        eval { rounds, restores := true, libraries } (depth + 1) room p node w
          = .ok (.plain (.function params body w.forest.size)) w') ∧
      ∀ (inner : Evaluator) (room : Room) (callee params body : Value) (args : List Datum),
        room.holds (w.scopeLevels (some p)) = true → params.length = .ok args.length →
        callFunction { rounds, restores := true, libraries } inner room callee
            (.function params body p) args w
          = (do
              bindParams room w.forest.size ((← params.items).zip args)
              evalItems inner room w.forest.size body : Run Datum) w' := by
  obtain ⟨hhoused, hstanding⟩ := h.lawful
  have hmakes : ∀ room : Room, room.holds (w.scopeLevels (some p)) = true →
      makeScope { rounds, restores := true, libraries } room (some p) w
        = .ok w.forest.size { w with
            forest := w.forest.newScope { rounds, restores := true, libraries } w.addons (some p) } :=
    fun room hroom => makeScope_eq hhoused.nameable _ hroom
  refine ⟨_, hstanding.scopeMade rfl hp, hmakes, ?_, ?_⟩
  · intro depth room node params body hroom htag hparams hbody
    rw [Room.holds_add, Bool.and_eq_true] at hroom
    exact eval_function_eq hroom.1 (hmakes _ hroom.2) htag hparams hbody depth
  · intro inner room callee params body args hroom harity
    exact callFunction_eq (hmakes room hroom) harity inner callee body

/-- A name of the language that a program has set from an inner scope is given back when the next
    scope is made. -/
theorem redefined_restored :
    History (World.empty "" ⟨[]⟩ []) (settingWorld "print" "x") ∧
      ((settingWorld "print" "x").forest.own? 0 (.text "print")).any
        (·.value.equal (.string "x")) = true ∧
      ∃ w', (settingWorld "print" "x").ScopeMade 1 w' ∧
        makeScope { rounds := 1, restores := true, libraries := .idle } .unlimited (some 1)
          (settingWorld "print" "x") = .ok (settingWorld "print" "x").forest.size w' := by
  have hhistory := settingWorld_history "print" "x"
  obtain ⟨w', hmade, hmakes, -⟩ := makeScope_restores hhistory (p := 1) (by decide +kernel) 1 .idle
  exact ⟨hhistory, by decide +kernel, w', hmade, hmakes .unlimited rfl⟩

end Scrawl
