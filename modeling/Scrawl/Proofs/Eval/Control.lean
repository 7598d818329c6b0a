/-
  Scrawl.Proofs.Eval.Control — functions that decide what is run.

  The functions for branches and loops get values and evaluate them once more.  A number or a string
  gives itself then, and a function of the program a new one, which remembers a scope inside the one
  where the call is made (`Shaped.evalPayload_cases`).  So a branch runs its block where it is called,
  whatever the block remembers (`choose_runs_in_place`), and a loop that goes on once goes on until its
  body fails (`loop_never_ends`).
-/

import Scrawl.Proofs.Eval.Again
import Scrawl.Proofs.Eval.Calls
import Scrawl.Proofs.Eval.Circulation
import Scrawl.Proofs.Eval.InPlace
import Scrawl.Proofs.Eval.Midway

namespace Scrawl

/-! ## §1. Values evaluated again -/

section Again

variable {rules : Rules} {depth : Nat} {room : Room} {e : ScopeId} {w w' : World}

/-- A number gives itself, as a floating point number. -/
theorem evalPayload_number {p : Value} {x : Float} (hx : p.toFloat = .ok x)
    (hroom : room.holds 1 = true) :
    evalPayload (eval rules (depth + 1)) room e (.number p) w = .ok (.float x) w := by
  unfold evalPayload
  rw [eval_number hroom, hx]
  rfl

/-- A string gives itself. -/
theorem evalPayload_string (s : String) (hroom : room.holds 1 = true) :
    evalPayload (eval rules (depth + 1)) room e (.string s) w = .ok (.text s) w := by
  unfold evalPayload
  rw [eval_string hroom]
  rfl

/-- Without room nothing can be evaluated. -/
theorem evalPayload_tooDeep (h : depth = 0 ∨ room.holds 1 = false) (v : Value) :
    evalPayload (eval rules depth) room e v w = .error .tooDeep w :=
  Run.bind_of_error (eval_tooDeep h v w) _

/-- A function literal that has been evaluated has been given a new scope to remember. -/
theorem eval_function_eq_ok {node : Value} {d : Datum} (htag : node.tag = .ok (.text "function"))
    (h : eval rules (depth + 1) room e node w = .ok d w') :
    ∃ inside params body home, node.item 1 = .ok params ∧ d = .plain (.function params body home) ∧
      makeScope rules inside (some e) w = .ok home w' := by
  obtain ⟨inside, -, hlayer⟩ := Run.lift_bind_eq_ok h
  obtain ⟨tag, htag', hnode⟩ := Run.lift_bind_eq_ok hlayer
  obtain rfl := Except.ok.inj (htag.symm.trans htag')
  obtain ⟨params, hparams, hrest⟩ := Run.lift_bind_eq_ok hnode
  obtain ⟨body, -, hrest⟩ := Run.lift_bind_eq_ok hrest
  obtain ⟨home, u, hmade, hpure⟩ := Run.bind_eq_ok hrest
  cases hpure
  exact ⟨inside, params, body, home, hparams, rfl, hmade⟩

/-- **What a value of a program gives when it is evaluated again**, if it gives a payload at all: the
    same at any time, or the parameters of a function, for which a scope is made. -/
theorem Value.Shaped.evalPayload_cases {k : Nat} {v p : Value} (h : v.Shaped k)
    (hp : evalPayload (eval rules depth) room e v w = .ok p w') :
    (∀ u, evalPayload (eval rules depth) room e v u = .ok p u) ∨
      ∃ names inside home, p = .list names ∧ makeScope rules inside (some e) w = .ok home w' := by
  have hlook : ¬ (depth = 0 ∨ room.holds 1 = false) := by
    intro hfull
    rw [evalPayload_tooDeep hfull] at hp
    cases hp
  rw [not_or, Bool.not_eq_false] at hlook
  obtain ⟨depth, rfl⟩ := Nat.exists_eq_succ_of_ne_zero hlook.1
  have hroom := hlook.2
  obtain ⟨d, u, hd, hlifted⟩ := Run.bind_eq_ok hp
  obtain ⟨hpayload, rfl⟩ : d.value.payload = .ok p ∧ w' = u := Run.ofExcept_eq_ok hlifted
  cases h with
  | number _ =>
    rw [eval_number hroom] at hd
    obtain ⟨x, hx, hpure⟩ := Run.lift_bind_eq_ok hd
    cases hpure
    obtain rfl : Value.float x = p := Except.ok.inj hpayload
    exact .inl fun u => evalPayload_number hx hroom
  | string s =>
    cases hp.symm.trans (evalPayload_string s hroom)
    exact .inl fun u => evalPayload_string s hroom
  | nothing =>
    rw [eval_nothing hroom] at hd
    cases hd
    cases hpayload
  | function _ _ _ =>
    rw [eval_function_again hroom] at hd
    obtain ⟨fresh, _, hmade, hpure⟩ := Run.bind_eq_ok hd
    cases hpure
    exact .inr ⟨_, _, fresh, (Except.ok.inj hpayload).symm, hmade⟩
  -- the others cannot be evaluated
  | native fn =>
    rw [eval_native hroom] at hd
    cases hd
  | blank =>
    rw [eval_blank hroom] at hd
    cases hd
  | text s =>
    rw [eval_text hroom] at hd
    cases hd

end Again

/-! ## §2. Blocks -/

section Blocks

variable {rules : Rules} {depth : Nat} {room : Room} {e : ScopeId}

/-- A block that is a function without parameters is run inside of a new scope, whatever it
    remembers. -/
theorem callBlock_function (hroom : room.holds 3 = true) (body : Value) (home : ScopeId) :
    callBlock (eval rules (depth + 2)) room e (.function (.list []) body home)
      = (do let fresh ← makeScope rules (room.below 3) (some e)
            let _ ← runInside rules (eval rules (depth + 1)) (room.below 2) fresh body : Run Unit) := by
  show (evalLayer rules (eval rules (depth + 1)) room e
    (.callNode (.function (.list []) body home) (.tuple [])) >>= fun _ => pure () : Run Unit) = _
  rw [evalLayer_callNode hroom rfl, eval_function_again (Room.holds_below hroom (by decide)),
    Room.below_below, bind_assoc, bind_assoc]
  rfl

/-- A branch whose condition is a number that counts as one calls its first block. -/
theorem branch_of_one {p : Value} {x : Float} (hx : p.toFloat = .ok x)
    (hone : (Value.float x).isOne = true) (hroom : room.holds 1 = true) (whenTrue whenFalse : Value) :
    branch (eval rules (depth + 1)) room e (.number p) whenTrue whenFalse
      = callBlock (eval rules (depth + 1)) room e whenTrue := by
  funext w
  refine (Run.bind_of_ok (evalPayload_number hx hroom) _).trans ?_
  rw [if_pos hone]

/-- A call of a function without parameters runs its body inside the scope that it remembers. -/
theorem callFunction_block (inner : Evaluator) (room : Room) (callee body : Value) (home : ScopeId) :
    callFunction rules inner room callee (.function (.list []) body home) []
      = runInside rules inner room home body :=
  rfl

/-- A branch whose condition counts as one calls its block with a new scope to remember. -/
theorem choose_eq (hroom : room.holds 3 = true) {p : Value} {x : Float} (hx : p.toFloat = .ok x)
    (hone : (Value.float x).isOne = true) (body : Value) (home : ScopeId) (whenFalse : Value) :
    Native.choose.apply rules (eval rules (depth + 2)) room e
        [.number p, .function (.list []) body home, whenFalse]
      = (do let fresh ← makeScope rules (room.below 3) (some e)
            let _ ← runInside rules (eval rules (depth + 1)) (room.below 2) fresh body
            return .plain .nothing : Run Datum) := by
  show (branch (eval rules (depth + 2)) room e (.number p) (.function (.list []) body home)
    whenFalse >>= fun _ => pure (.plain .nothing) : Run Datum) = _
  rw [branch_of_one hx hone (Room.holds_of_le hroom (by decide)), callBlock_function hroom, bind_assoc]
  exact bind_congr fun fresh => bind_assoc _ _ _

end Blocks

/-- A block written in place remembers a scope that is used for nothing. -/
theorem eval_function_inPlace {w : World} (hhoused : w.Housed) (hstanding : w.Standing)
    {rules : Rules} {depth : Nat} {room : Room} {e : ScopeId} (he : e < w.forest.size) {node : Value}
    {d : Datum} {w' : World} (htag : node.tag = .ok (.text "function"))
    (h : eval rules (depth + 1) room e node w = .ok d w') : w'.InPlace e w.forest.size := by
  obtain ⟨inside, params, body, home, -, -, hmade⟩ := eval_function_eq_ok htag h
  obtain ⟨-, -, rfl⟩ := makeScope_eq_ok hmade
  exact (World.InPlace.newScope hhoused hstanding rules he).1

/-- **A branch runs its block where it is called**, at any moment of what a host does and whatever
    function without parameters the block is: it calls the block as if it remembered a new scope, inside
    the one where the branch is called.  If the block remembers such a scope itself, as one written in
    place does, this comes out the same as calling it, apart from the scope that is made, beside libraries
    that do nothing but succeed or fail. -/
theorem choose_runs_in_place {scopeText : String} {files : FileTree} {cues : List Stage.Cue} {w : World}
    (h : Midway (World.empty scopeText files cues) w) {rules : Rules}
    (hrefuses : ∀ action, rules.refuses action = none) {e : ScopeId} (he : e < w.forest.size)
    {room : Room} (hroom : room.holds 3 = true) {p : Value} {x : Float} (hx : p.toFloat = .ok x)
    (hone : (Value.float x).isOne = true) (depth : Nat) (callee body whenFalse : Value)
    (home : ScopeId) :
    Native.choose.apply rules (eval rules (depth + 2)) room e
        [.number p, .function (.list []) body home, whenFalse] w
      = (do let fresh ← makeScope rules (room.below 3) (some e)
            let _ ← callFunction rules (eval rules (depth + 1)) (room.below 2) callee
              (.function (.list []) body fresh) []
            return .plain .nothing : Run Datum) w ∧
      (rules.libraries.Inert → w.InPlace e home → SameOutcome
        ((do let _ ← makeScope rules (room.below 3) (some e)
             callFunction rules (eval rules (depth + 1)) (room.below 2) callee
               (.function (.list []) body home) [] : Run Datum) w)
        (Native.choose.apply rules (eval rules (depth + 2)) room e
          [.number p, .function (.list []) body home, whenFalse] w)) := by
  obtain ⟨hhoused, hstanding⟩ := h.lawful
  simp only [callFunction_block]
  rw [choose_eq hroom hx hone]
  refine ⟨rfl, fun hlibraries hplace => ?_⟩
  cases hmade : makeScope rules (room.below 3) (some e) w with
  | error f v =>
    rw [Run.bind_of_error hmade, Run.bind_of_error hmade]
    exact .error (.refl v)
  | ok fresh v =>
    rw [Run.bind_of_ok hmade, Run.bind_of_ok hmade]
    obtain ⟨-, rfl, rfl⟩ := makeScope_eq_ok hmade
    -- the two scopes lie side by side in the world with the new one
    obtain ⟨hnew, hkept⟩ := World.InPlace.newScope hhoused hstanding rules he
    have hchange : Change w { w with forest := w.forest.newScope rules w.addons (some e) } :=
      .scope (fun _ hp => Option.some.inj hp ▸ he) rfl rfl
    exact (runInside_beside (hhoused.newScope rules (some e)) (hchange.standing hstanding) rules
      hrefuses hlibraries (depth + 1) (room.below 2) (hkept home hplace) hnew body).map_right _

/-- A block has been written in the outermost scope, which prints. -/
def blockWorld : World :=
  (eval .standard 2 .unlimited 0 (functionNode [] [namedCall "print" [.string "hi"]])).after
    programWorld

/-- A branch runs this block to the same effect as a call does. -/
theorem block_runs_in_place :
    blockWorld.InPlace 0 1 ∧ SameOutcome
      ((do let _ ← makeScope .standard .unlimited (some 0)
           callFunction .standard (eval .standard 19) .unlimited .nothing
             (.function (.list []) (.list [namedCall "print" [.string "hi"]]) 1) [] : Run Datum)
        blockWorld)
      (Native.choose.apply .standard (eval .standard 20) .unlimited 0
        [.number (.float 1), .function (.list []) (.list [namedCall "print" [.string "hi"]]) 1, .nothing]
        blockWorld) := by
  have hfirst : 0 < programWorld.forest.size := by decide +kernel
  have hprogram : History (World.empty "" ⟨[]⟩ []) programWorld :=
    .single (.step (.makeScope 1 .idle .unlimited none nofun))
  have hhistory : History (World.empty "" ⟨[]⟩ []) blockWorld :=
    .tail hprogram (.step (.eval _ 2 Libraries.idle_inert .unlimited hfirst _))
  have hplace : blockWorld.InPlace 0 1 := by
    obtain ⟨hhoused, hstanding⟩ := hprogram.lawful
    have hsize : programWorld.forest.size = 1 := by decide +kernel
    obtain ⟨d, w', heval⟩ := Run.eq_ok_of_fault? (w := programWorld)
      (x := eval .standard 2 .unlimited 0 (functionNode [] [namedCall "print" [.string "hi"]]))
      (by decide +kernel)
    unfold blockWorld Run.after
    rw [heval, ← hsize]
    exact eval_function_inPlace hhoused hstanding hfirst rfl heval
  have hrefuses : ∀ action, Rules.standard.refuses action = none := fun _ => rfl
  have hinside : 0 < blockWorld.forest.size := by decide +kernel
  have hroom : Room.unlimited.holds 3 = true := rfl
  have hx : (Value.float 1).toFloat = .ok 1 := rfl
  have hone : (Value.float 1).isOne = true := by decide +kernel
  exact ⟨hplace, (choose_runs_in_place (.between hhistory) hrefuses hinside hroom hx hone 18 .nothing
    (.list [namedCall "print" [.string "hi"]]) .nothing 1).2 Libraries.idle_inert hplace⟩

/-- A program has made a function `f` that prints what another one was given. -/
def captured : World :=
  (evalItems (eval .standard 20) .unlimited 0 <| .list
    [setNode "make" (functionNode ["p"] [functionNode [] [namedCall "print" [.symbolNode (.text "p")]]]),
      setNode "f" (namedCall "make" [.string "hi"])]).after programWorld

/-- Hands `f` to a branch. -/
def chooseCaptured : Value :=
  namedCall "if" [.number (.text "1"), .symbolNode (.text "f"), functionNode [] []]

/-- **A closure loses its meaning when it is handed to a branch**: called by name it prints what it was
    made with, and as a block it does not find it. -/
theorem captured_lost :
    (Run.fault? (eval .standard 20 .unlimited 0 (namedCall "f" [])) captured = none ∧
        (Run.after (eval .standard 20 .unlimited 0 (namedCall "f" [])) captured).printed = "hi\n") ∧
      Run.fault? (eval .standard 20 .unlimited 0 chooseCaptured) captured
          = some (.undefinedSymbol "p") ∧
        (Run.after (eval .standard 20 .unlimited 0 chooseCaptured) captured).printed = "" := by
  refine ⟨⟨?_, ?_⟩, ?_, ?_⟩ <;> decide +kernel

/-! ## §3. Loops -/

/-- A block has been called so many times, one after the other, and each call has come back. -/
inductive Calls (inner : Evaluator) (room : Room) (e : ScopeId) (block : Value) :
    Nat → World → World → Prop
  /-- Not at all. -/
  | none (w : World) : Calls inner room e block 0 w w
  /-- Once, and then some more times. -/
  | once {n : Nat} {w v w' : World} (h : callBlock inner room e block w = .ok () v)
      (hrest : Calls inner room e block n v w') : Calls inner room e block (n + 1) w w'

/-- How a loop comes out that never ends by itself: its body has come back some times and fails then,
    or has come back as many times as loops may go. -/
inductive GoesOn (inner : Evaluator) (room : Room) (e : ScopeId) (body : Value) (rounds : Nat)
    (w : World) {α : Type} : EStateM.Result Fault World α → Prop
  /-- The body fails. -/
  | fails {n : Nat} {v v' : World} {f : Fault} (hn : n < rounds)
      (hcalls : Calls inner room e body n w v) (hfails : callBlock inner room e body v = .error f v') :
      GoesOn inner room e body rounds w (.error f v')
  /-- There has been no end to it so far. -/
  | endless {v : World} (hcalls : Calls inner room e body rounds w v) :
      GoesOn inner room e body rounds w (.error .endless v)

section Loops

variable {inner : Evaluator} {room : Room} {e : ScopeId} {condition : Value}

/-- **A loop whose condition is always one goes on and on.** -/
theorem iterate_goesOn {p : Value}
    (hlook : ∀ w, evalPayload inner room e condition w = .ok p w) (hone : p.isOne = true)
    (body : Value) (rounds : Nat) (w : World) :
    GoesOn inner room e body rounds w (iterate inner room e condition body rounds w) := by
  induction rounds generalizing w with
  | zero => exact .endless (.none w)
  | succ rounds ih =>
    have hbody : iterate inner room e condition body (rounds + 1) w
        = (callBlock inner room e body >>= fun _ =>
            iterate inner room e condition body rounds : Run Unit) w := by
      refine (Run.bind_of_ok (hlook w) _).trans ?_
      rw [if_pos hone]
    rw [hbody]
    cases hcall : callBlock inner room e body w with
    | error f v =>
      rw [Run.bind_of_error hcall]
      exact .fails (Nat.succ_pos rounds) (.none w) hcall
    | ok _ v =>
      rw [Run.bind_of_ok hcall]
      -- one round more has been made than from there on
      have hrest := ih v
      generalize iterate inner room e condition body rounds v = outcome at hrest
      cases hrest with
      | fails hn hcalls hfails => exact .fails (Nat.succ_lt_succ hn) (.once hcall hcalls) hfails
      | endless hcalls => exact .endless (.once hcall hcalls)

/-- Nothing comes after such a loop. -/
theorem GoesOn.bind {body : Value} {rounds : Nat} {w : World} {α β : Type} {x : Run α}
    (h : GoesOn inner room e body rounds w (x w)) (f : α → Run β) :
    GoesOn inner room e body rounds w ((x >>= f) w) := by
  generalize hx : x w = outcome at h
  cases h with
  | fails hn hcalls hfails =>
    rw [Run.bind_of_error hx]
    exact .fails hn hcalls hfails
  | endless hcalls =>
    rw [Run.bind_of_error hx]
    exact .endless hcalls

/-- A loop whose condition is not one at the first look ends there. -/
theorem iterate_of_not_one {w w' : World} {p : Value}
    (hp : evalPayload inner room e condition w = .ok p w') (hzero : p.isOne = false) (body : Value)
    (rounds : Nat) : iterate inner room e condition body (rounds + 1) w = .ok () w' := by
  refine (Run.bind_of_ok hp _).trans ?_
  rw [if_neg (Bool.eq_false_iff.1 hzero)]
  rfl

/-- **A loop that comes to an end has not begun**: its condition was not one at the first look, and its
    body does not matter. -/
theorem iterate_eq_ok {rules : Rules} {depth k : Nat} (h : condition.Shaped k) {body : Value}
    {rounds : Nat} {w w' : World}
    (hends : iterate (eval rules depth) room e condition body rounds w = .ok () w') :
    ∃ p, evalPayload (eval rules depth) room e condition w = .ok p w' ∧ p.isOne = false ∧
      ∀ other, iterate (eval rules depth) room e condition other rounds w = .ok () w' := by
  cases rounds with
  | zero => cases hends
  | succ rounds =>
    obtain ⟨p, v, hp, hrest⟩ := Run.bind_eq_ok hends
    by_cases hone : p.isOne = true
    · exfalso
      rcases h.evalPayload_cases hp with hsteady | ⟨names, _, _, rfl, -⟩
      · -- it is one whenever it is looked at
        have hgoesOn := iterate_goesOn hsteady hone body (rounds + 1) w
        rw [hends] at hgoesOn
        cases hgoesOn
      · cases hone
    · rw [if_neg hone] at hrest
      cases hrest
      have hzero := Bool.eq_false_iff.2 hone
      exact ⟨p, hp, hzero, fun other => iterate_of_not_one hp hzero other rounds⟩

/-- **A loop over a number that counts as one goes on and on**, unless there is no room to look at it. -/
theorem iterate_number {rules : Rules} {p : Value} {x : Float} (hx : p.toFloat = .ok x)
    (hone : (Value.float x).isOne = true) (body : Value) (depth rounds : Nat) (w : World) :
    (depth = 0 ∨ room.holds 1 = false) ∧
        iterate (eval rules depth) room e (.number p) body rounds w = .error .tooDeep w ∨
      GoesOn (eval rules depth) room e body rounds w
        (iterate (eval rules depth) room e (.number p) body rounds w) := by
  -- a number needs one level to be looked at, in every round
  by_cases hlook : depth ≠ 0 ∧ room.holds 1 = true
  · obtain ⟨depth, rfl⟩ := Nat.exists_eq_succ_of_ne_zero hlook.1
    have hsteady : ∀ u, evalPayload (eval rules (depth + 1)) room e (.number p) u = .ok (.float x) u :=
      fun u => evalPayload_number hx hlook.2
    exact .inr (iterate_goesOn hsteady hone body rounds w)
  · have hfull : depth = 0 ∨ room.holds 1 = false := by
      rw [not_and_or, not_not, Bool.not_eq_true] at hlook
      exact hlook
    cases rounds with
    | zero => exact .inr (.endless (.none w))
    | succ rounds => exact .inl ⟨hfull, Run.bind_of_error (evalPayload_tooDeep hfull _) _⟩

/-- A loop evaluates its condition and calls its body, round after round. -/
theorem loop_apply (rules : Rules) (inner : Evaluator) (room : Room) (e : ScopeId)
    (condition body : Value) :
    Native.loop.apply rules inner room e [condition, body]
      = (do iterate inner room e condition body rules.rounds
            return .plain .nothing : Run Datum) :=
  rfl

/-- **A loop never ends once its body has been run.**  At any moment of what a host does, have a loop run
    over any value that programs can come across.  If it comes to an end, its condition was not one at
    the first look and its body has not been run, whatever that is: the world is as it was, or one scope
    has been made.  If its condition is a number that counts as one, it goes on and on, unless there is
    no room to look at the condition at all. -/
theorem loop_never_ends {scopeText : String} {files : FileTree} {cues : List Stage.Cue} {w : World}
    (h : Midway (World.empty scopeText files cues) w) (rules : Rules) (hrules : rules.restores = true)
    (he : e < w.forest.size) {k : Nat} (hcondition : condition.Shaped k) (body : Value) (depth : Nat)
    (room : Room) :
    (∀ d w', Native.loop.apply rules (eval rules depth) room e [condition, body] w = .ok d w' →
      (∃ p, evalPayload (eval rules depth) room e condition w = .ok p w' ∧ p.isOne = false) ∧
        (∀ other, Native.loop.apply rules (eval rules depth) room e [condition, other] w = .ok d w') ∧
        (w' = w ∨ w.ScopeMade e w')) ∧
      ∀ p x, condition = .number p → p.toFloat = .ok x → (Value.float x).isOne = true →
        (depth = 0 ∨ room.holds 1 = false) ∧
            Native.loop.apply rules (eval rules depth) room e [condition, body] w
              = .error .tooDeep w ∨
          GoesOn (eval rules depth) room e body rules.rounds w
            (Native.loop.apply rules (eval rules depth) room e [condition, body] w) := by
  simp only [loop_apply]
  constructor
  · intro d w' hends
    obtain ⟨_, v, hiterate, hpure⟩ := Run.bind_eq_ok hends
    cases hpure
    obtain ⟨p, hp, hzero, hother⟩ := iterate_eq_ok hcondition hiterate
    refine ⟨⟨p, hp, hzero⟩, fun other => Run.bind_of_ok (hother other) _, ?_⟩
    -- the only look at the condition has changed nothing, or made a scope for a function
    rcases hcondition.evalPayload_cases hp with hsteady | ⟨_, _, _, -, hmade⟩
    · cases hp.symm.trans (hsteady w)
      exact .inl rfl
    · right
      rw [(makeScope_eq_ok hmade).2.2]
      exact h.lawful.2.scopeMade hrules he
  · rintro p x rfl hx hone
    exact (iterate_number hx hone body depth rules.rounds w).imp
      (fun hfull => ⟨hfull.1, Run.bind_of_error hfull.2 _⟩) fun hgoes => hgoes.bind _

end Loops

/-- A function that does nothing. -/
def idleFunction : Value := .function (.list []) (.list []) 0

/-- Where a program has set a name of the language, a loop over a function ends and gives the name its
    standard value back, and one over the number one goes on. -/
theorem loops_after_setting :
    (∃ d w', Native.loop.apply .standard (eval .standard 5) .unlimited 1 [idleFunction, idleFunction]
        (settingWorld "print" "x") = .ok d w' ∧
      (w' = settingWorld "print" "x" ∨ (settingWorld "print" "x").ScopeMade 1 w')) ∧
      GoesOn (eval .standard 5) .unlimited 1 idleFunction Rules.standard.rounds
        (settingWorld "print" "x")
        (Native.loop.apply .standard (eval .standard 5) .unlimited 1
          [.number (.float 1), idleFunction] (settingWorld "print" "x")) := by
  have hmidway : Midway (World.empty "" ⟨[]⟩ []) (settingWorld "print" "x") :=
    .between (settingWorld_history "print" "x")
  have hinside : 1 < (settingWorld "print" "x").forest.size := by decide +kernel
  have hfunction : idleFunction.Shaped 1 := by
    have hshaped : Value.Shaped 1 (.function (.list (([] : List Value).map Value.symbolNode))
        (.list (Grammar.Tree.listToValues [])) 0) := .function nofun nofun Nat.one_pos
    exact hshaped
  have hnumber : (Value.number (.float 1)).Shaped 0 := .number (.float 1)
  constructor
  · obtain ⟨d, w', hends⟩ := Run.eq_ok_of_fault? (w := settingWorld "print" "x")
      (x := Native.loop.apply .standard (eval .standard 5) .unlimited 1 [idleFunction, idleFunction])
      (by decide +kernel)
    exact ⟨d, w', hends, ((loop_never_ends hmidway .standard rfl hinside hfunction idleFunction 5
      .unlimited).1 d w' hends).2.2⟩
  · have hgoes := (loop_never_ends hmidway .standard rfl hinside hnumber idleFunction 5
      .unlimited).2 (.float 1) 1 rfl rfl (by decide +kernel)
    exact hgoes.resolve_left fun hdeep => absurd hdeep.1 (by decide)

end Scrawl
