/-
  Scrawl.Proofs.Eval.Congruence — relations between runs that the program respects.

  Two runs of the program with different evaluators inside are put together in the same way.  A relation
  between runs that is kept by putting runs together (`Congruence`) therefore holds between the whole
  runs as soon as it holds between the evaluators inside: for one layer of evaluation
  (`Congruence.layer`), and for everything else that calls evaluators.  Only what touches the windows is
  left to the relation itself, and what libraries do (`Congruence.Admits`).
-/

import Scrawl.Eval.Node
import Scrawl.Proofs.Eval.StageMoves
import Scrawl.Proofs.Scope.Growth

namespace Scrawl

/-! ## §1. Relations -/

/-- A relation between runs that is kept when they are put together as the program does it. -/
structure Congruence where
  /-- Two runs are related. -/
  Rel : {α : Type} → Run α → Run α → Prop
  /-- A run that leaves the world alone is related to itself. -/
  reads : ∀ {α : Type} {x : Run α}, x.Reads → Rel x x
  /-- Runs of related parts are related. -/
  bind : ∀ {α β : Type} {x y : Run α} {f g : α → Run β},
    Rel x y → (∀ a, Rel (f a) (g a)) → Rel (x >>= f) (y >>= g)
  /-- So is a change of no file and outside of the stage, where only what happens to new windows and the
      log count as outside. -/
  aside : ∀ {α : Type} {change : World → α × World},
    (∀ w, (change w).2.files = w.files ∧
      ∃ cues calls, (change w).2.stage = { w.stage with cues, calls }) →
      Rel (modifyGet change) (modifyGet change)
  /-- Deciding what will happen in a window's next main loop. -/
  script : ∀ (n : Nat) (cues : List Stage.Cue), Rel
    (Stage.update (·.changeWindow n fun w => { w with script := cues }))
    (Stage.update (·.changeWindow n fun w => { w with script := cues }))
  /-- Scheduling the first redraw of a window that is started. -/
  begins : ∀ n : Nat, Rel
    (do Stage.update (·.changeWindow n fun w => { w with started := w.started + 1 })
        Stage.schedule n)
    (do Stage.update (·.changeWindow n fun w => { w with started := w.started + 1 })
        Stage.schedule n)
  /-- A frame, if the evaluators inside are related. -/
  frame : ∀ {inner inner' : Evaluator},
    (∀ room e node, Rel (inner room e node) (inner' room e node)) →
      ∀ (room : Room) (n : Nat), Rel (Stage.frame inner room n) (Stage.frame inner' room n)
  /-- A call of a drawing function that does not run the program again, noted if it returns. -/
  draws : ∀ (inner : Evaluator) (room : Room) (e : ScopeId) (load : Nat) {op : Drawing},
    op ≠ .start → ∀ args : List Value, Rel
      (do let result ← op.run inner room e load args
          Stage.update (·.note load { op, args, result })
          return Datum.plain result)
      (do let result ← op.run inner room e load args
          Stage.update (·.note load { op, args, result })
          return Datum.plain result)
  /-- Noting that a main loop has ended. -/
  ended : ∀ (load : Nat) (args : List Value) (result : Value), Rel
    (Stage.update (·.note load { op := .start, args, result }))
    (Stage.update (·.note load { op := .start, args, result }))
  /-- Emptying the table of later loadings. -/
  reloads : Rel
    (modify fun w => { w with
      stage := { w.stage with loads := w.stage.loads + 1, shared := .empty } } : Run Unit)
    (modify fun w => { w with
      stage := { w.stage with loads := w.stage.loads + 1, shared := .empty } })

/-- Two evaluators that give related runs. -/
def Congruence.Related (R : Congruence) (inner inner' : Evaluator) : Prop :=
  ∀ room e node, R.Rel (inner room e node) (inner' room e node)

/-- Libraries whose loading is related to itself. -/
def Congruence.Admits (R : Congruence) (libraries : Libraries) : Prop :=
  ∀ text, R.Rel (libraries text) (libraries text)

theorem readSource_reads (path : String) : (readSource path).Reads := by
  unfold readSource
  refine .bind .get fun w => .bind (.lift _) fun bytes => ?_
  cases Codec.sourceText bytes with
  | ok text => exact .pure _
  | error fault => exact .throw _

theorem window_reads (n : Nat) : (Stage.window n).Reads := by
  unfold Stage.window
  refine .bind .get fun w => ?_
  split
  · exact .pure _
  · exact .throw _

theorem Rules.permit_reads (rules : Rules) (action : Action) : (rules.permit action).Reads := by
  unfold Rules.permit
  split
  · exact .throw _
  · exact .pure _

theorem checkArity_reads (callee : Value) (params args : Nat) (offset : Bool) :
    (checkArity callee params args offset).Reads := by
  unfold checkArity
  split
  · exact .bind (plainText_reads _) fun _ => .throw _
  · exact .pure _

namespace Congruence

variable (R : Congruence) {α β : Type}

theorem pure (a : α) : R.Rel (Pure.pure a) (Pure.pure a) := R.reads (.pure a)

theorem throw (f : Fault) : R.Rel (MonadExcept.throw f : Run α) (MonadExcept.throw f) :=
  R.reads (.throw f)

theorem lift (x : Except Fault α) : R.Rel (liftM x : Run α) (liftM x) := R.reads (.lift x)

/-- A change of the world that is seen neither on the stage nor in a file. -/
theorem modifyGet {change : World → α × World}
    (h : ∀ w, (change w).2.files = w.files ∧ (change w).2.stage = w.stage) :
    R.Rel (MonadStateOf.modifyGet change : Run α) (MonadStateOf.modifyGet change) :=
  R.aside fun w => ⟨(h w).1, w.stage.cues, w.stage.calls, (h w).2⟩

theorem modifies {change : World → World}
    (h : ∀ w, (change w).files = w.files ∧ (change w).stage = w.stage) :
    R.Rel (modify change : Run Unit) (modify change) :=
  R.modifyGet h

theorem get {f g : World → Run β} (h : ∀ w, R.Rel (f w) (g w)) :
    R.Rel (MonadState.get >>= f) (MonadState.get >>= g) :=
  R.bind (R.reads .get) h

theorem andThen {x y : Run α} {x' y' : Run β} (h : R.Rel x y) (h' : R.Rel x' y') :
    R.Rel (x >>= fun _ => x') (y >>= fun _ => y') :=
  R.bind h fun _ => h'

theorem forM {f g : α → Run Unit} (h : ∀ a, R.Rel (f a) (g a)) (as : List α) :
    R.Rel (as.forM f) (as.forM g) := by
  induction as with
  | nil => exact R.pure ()
  | cons a as ih => exact R.andThen (h a) ih

theorem mapM {f g : α → Run β} (h : ∀ a, R.Rel (f a) (g a)) (as : List α) :
    R.Rel (as.mapM f) (as.mapM g) := by
  induction as with
  | nil => exact R.pure []
  | cons a as ih =>
    rw [List.mapM_cons, List.mapM_cons]
    exact R.bind (h a) fun _ => R.bind ih fun _ => R.pure _

theorem foldlM {f g : β → α → Run β} (h : ∀ b a, R.Rel (f b a) (g b a)) (as : List α) (b : β) :
    R.Rel (as.foldlM f b) (as.foldlM g b) := by
  induction as generalizing b with
  | nil => exact R.pure b
  | cons a as ih =>
    rw [List.foldlM_cons, List.foldlM_cons]
    exact R.bind (h b a) ih

/-! ## §2. Names and scopes -/

theorem assign (room : Room) (e : ScopeId) (key : Value) (d : Datum) :
    R.Rel (Scrawl.assign room e key d) (Scrawl.assign room e key d) := by
  unfold Scrawl.assign
  refine R.bind (R.lift _) fun n => R.get fun w => R.bind (R.lift _) fun _ => R.modifies fun w => ?_
  obtain ⟨spellings, hspellings⟩ := w.noteSpelling_eq e n key
  show (w.noteSpelling e n key).files = w.files ∧ (w.noteSpelling e n key).stage = w.stage
  rw [hspellings]
  exact ⟨rfl, rfl⟩

theorem makeScope (rules : Rules) (room : Room) (parent : Option ScopeId) :
    R.Rel (Scrawl.makeScope rules room parent) (Scrawl.makeScope rules room parent) := by
  unfold Scrawl.makeScope
  refine R.get fun w => R.bind (R.lift _) fun _ => R.bind (R.modifyGet fun _ => ⟨rfl, rfl⟩) fun e =>
    R.get fun w => ?_
  split
  · split
    · exact R.throw _
    · exact R.pure _
  · exact R.pure _

theorem enterScope (rules : Rules) (room : Room) (home : Value) :
    R.Rel (Scrawl.enterScope rules room home) (Scrawl.enterScope rules room home) := by
  unfold Scrawl.enterScope
  split
  · exact R.makeScope rules room _
  · exact R.makeScope rules room _
  · exact R.andThen (R.modifies fun _ => ⟨rfl, rfl⟩) (R.throw _)

theorem register (key v : Value) : R.Rel (Scrawl.register key v) (Scrawl.register key v) := by
  unfold Scrawl.register
  refine R.andThen (R.modifies fun _ => ⟨rfl, rfl⟩) (R.get fun w => ?_)
  split
  · exact R.throw _
  · exact R.pure _

theorem merge (e other : ScopeId) (all : Bool) :
    R.Rel (Scrawl.merge e other all) (Scrawl.merge e other all) := by
  unfold Scrawl.merge
  refine R.get fun w => ?_
  dsimp only
  split
  · exact R.throw _
  · exact R.pure _

theorem permit (rules : Rules) (action : Action) :
    R.Rel (rules.permit action) (rules.permit action) :=
  R.reads (rules.permit_reads action)

theorem load {libraries : Libraries} (hlibraries : R.Admits libraries) (text : String) :
    R.Rel (Library.load libraries text) (Library.load libraries text) := by
  unfold Library.load
  split
  · exact R.andThen R.reloads (R.get fun _ => R.forM (fun _ => R.register _ _) _)
  · exact hlibraries text

theorem loadLibrary {rules : Rules} (hlibraries : R.Admits rules.libraries) (text : String) :
    R.Rel (Scrawl.loadLibrary rules text) (Scrawl.loadLibrary rules text) :=
  R.andThen (R.permit rules _) (R.load hlibraries text)

theorem call (c : Stage.Call) : R.Rel (Stage.call c) (Stage.call c) := by
  unfold Stage.call
  split
  · exact R.aside fun w => ⟨rfl, _, _, rfl⟩
  · exact R.throw _

/-! ## §3. Evaluators -/

section Evaluators

variable {R}
variable {inner inner' : Evaluator} (hinner : R.Related inner inner') (room : Room) (e : ScopeId)
include hinner

theorem nodes (nodes : List Value) :
    R.Rel (evalNodes inner room e nodes) (evalNodes inner' room e nodes) :=
  R.foldlM (fun _ node => hinner room e node) nodes _

theorem items (body : Value) :
    R.Rel (evalItems inner room e body) (evalItems inner' room e body) :=
  R.bind (R.lift _) fun room => R.bind (R.lift _) fun list => nodes hinner room e list

theorem payload (node : Value) :
    R.Rel (evalPayload inner room e node) (evalPayload inner' room e node) :=
  R.bind (hinner room e node) fun _ => R.lift _

theorem named (name args : Value) :
    R.Rel (callNamed inner room e name args) (callNamed inner' room e name args) :=
  R.bind (hinner room e _) fun _ => R.pure _

theorem text (text : String) :
    R.Rel (runText inner room e text) (runText inner' room e text) := by
  refine R.bind (R.lift _) fun room => R.bind (R.lift _) fun _ => ?_
  refine R.bind (nodes hinner room e _) fun result => ?_
  split
  · exact R.throw _
  · exact R.pure _

/-! ## §4. Events and main loops -/

theorem tellKey (window : Stage.Window) (event : Stage.Event) :
    R.Rel (Stage.tellKey inner room window event) (Stage.tellKey inner' room window event) := by
  unfold Stage.tellKey
  split
  · exact R.pure _
  · exact R.bind (R.reads (plainText_reads _)) fun _ => R.bind (R.lift _) fun _ =>
      named hinner room _ _ _

theorem tellClick (window : Stage.Window) (event : Stage.Event) :
    R.Rel (Stage.tellClick inner room window event)
      (Stage.tellClick inner' room window event) := by
  unfold Stage.tellClick
  split
  · exact R.pure _
  · exact R.bind (R.lift _) fun _ => R.bind (R.lift _) fun _ => R.bind (R.lift _) fun _ =>
      named hinner room _ _ _

theorem handle (n : Nat) (event : Stage.Event) :
    R.Rel (Stage.handle inner room n event) (Stage.handle inner' room n event) := by
  refine R.bind (R.lift _) fun room => R.bind (R.reads (window_reads n)) fun window =>
    R.bind (R.lift _) fun _ => ?_
  split
  · exact tellKey hinner room window event
  · exact tellClick hinner room window event
  · exact R.bind (R.reads (shown_reads _)) fun _ => R.throw _

theorem play (n : Nat) (cue : Stage.Cue) :
    R.Rel (Stage.play inner room n cue) (Stage.play inner' room n cue) := by
  cases cue with
  | frame => exact R.frame hinner room n
  | event event => exact handle hinner room n event

theorem mainLoop (n : Nat) :
    R.Rel (Stage.mainLoop inner room n) (Stage.mainLoop inner' room n) :=
  R.bind (R.lift _) fun room => R.andThen (R.call _) <| R.bind (R.reads (window_reads n)) fun _ =>
    R.andThen (R.script n []) (R.forM (play hinner room n) _)

theorem start (n : Nat) : R.Rel (Stage.start inner room n) (Stage.start inner' room n) := by
  have hstart : ∀ inner, Stage.start inner room n
      = (do Stage.update (·.changeWindow n fun w => { w with started := w.started + 1 })
            Stage.schedule n) >>= fun _ => Stage.mainLoop inner room n :=
    fun inner => (bind_assoc _ _ _).symm
  rw [hstart, hstart]
  exact R.andThen (R.begins n) (mainLoop hinner room n)

/-! ## §5. Functions of the language -/

theorem block (block : Value) :
    R.Rel (callBlock inner room e block) (callBlock inner' room e block) :=
  R.bind (hinner room e _) fun _ => R.pure _

theorem branch (condition whenTrue whenFalse : Value) :
    R.Rel (Scrawl.branch inner room e condition whenTrue whenFalse)
      (Scrawl.branch inner' room e condition whenTrue whenFalse) :=
  R.bind (payload hinner room e condition) fun _ => block hinner room e _

theorem iterate (condition body : Value) (rounds : Nat) :
    R.Rel (Scrawl.iterate inner room e condition body rounds)
      (Scrawl.iterate inner' room e condition body rounds) := by
  induction rounds with
  | zero => exact R.throw _
  | succ rounds ih =>
    refine R.bind (payload hinner room e condition) fun p => ?_
    split
    · exact R.andThen (block hinner room e body) ih
    · exact R.pure _

/-- A call of a drawing function. -/
theorem drawing (load : Nat) (op : Drawing) (args : List Value) :
    R.Rel (do let result ← op.run inner room e load args
              Stage.update (·.note load { op, args, result })
              return Datum.plain result)
      (do let result ← op.run inner' room e load args
          Stage.update (·.note load { op, args, result })
          return Datum.plain result) := by
  by_cases hop : op = .start
  · -- the main loop may run the program again
    subst hop
    refine R.bind ?_ fun result => R.andThen (R.ended load args result) (R.pure _)
    unfold Drawing.run
    split
    case h_2 =>
      exact R.bind (R.reads (Stage.windowArg_reads load _)) fun n =>
        R.andThen (start hinner room n) (R.pure _)
    case h_12 => exact R.throw _
    all_goals contradiction
  · -- no other function calls the evaluators
    have hinner : op.run inner room e load args = op.run inner' room e load args := by
      unfold Drawing.run
      split
      case h_2 => exact absurd rfl hop
      all_goals rfl
    rw [hinner]
    exact R.draws inner' room e load hop args

theorem native {rules : Rules} (hlibraries : R.Admits rules.libraries) (fn : Native)
    (args : List Value) :
    R.Rel (fn.run rules inner room e args) (fn.run rules inner' room e args) := by
  have hpayload := payload hinner room e
  have htext : ∀ v, R.Rel (plainText v) (plainText v) := fun v => R.reads (plainText_reads v)
  have hprint : ∀ line, R.Rel (printLine line) (printLine line) := fun _ =>
    R.modifies fun _ => ⟨rfl, rfl⟩
  unfold Native.run
  split
  · -- print
    exact R.bind (hpayload _) fun p => R.bind (htext p) fun line =>
      R.andThen (hprint line) (hinner room e _)
  · -- print_raw
    exact R.bind (htext _) fun line => R.andThen (hprint line) (hinner room e _)
  · -- str
    exact R.bind (hpayload _) fun p => R.bind (htext p) fun _ => R.pure _
  · -- concat
    exact R.bind (hpayload _) fun a => R.bind (htext a) fun _ =>
      R.bind (hpayload _) fun b => R.bind (htext b) fun _ => R.pure _
  · -- import
    exact R.bind (hpayload _) fun p => R.bind (htext p) fun path =>
      R.bind (R.reads (readSource_reads path)) fun source => R.andThen (R.permit rules _) <|
        R.bind (R.lift _) fun room => R.bind (text hinner room e source) fun _ => R.pure _
  · -- library
    exact R.bind (hpayload _) fun p => R.bind (htext p) fun path => R.get fun w =>
      R.bind (R.lift _) fun bytes => R.bind (R.lift _) fun source =>
        R.andThen (R.loadLibrary hlibraries source) (R.pure _)
  · -- library_raw
    exact R.bind (hpayload _) fun p => R.bind (htext p) fun packed => R.bind (R.lift _) fun source =>
      R.andThen (R.loadLibrary hlibraries source) (R.pure _)
  · -- if
    exact R.andThen (branch hinner room e _ _ _) (R.pure _)
  · -- while
    exact R.andThen (iterate hinner room e _ _ rules.rounds) (R.pure _)
  · -- equals
    exact R.bind (hpayload _) fun a => R.bind (hpayload _) fun b => R.pure _
  · exact drawing hinner room e _ _ _
  · exact R.throw _

theorem apply {rules : Rules} (hlibraries : R.Admits rules.libraries) (fn : Native)
    (args : List Value) :
    R.Rel (fn.apply rules inner room e args) (fn.apply rules inner' room e args) := by
  unfold Native.apply
  dsimp only
  split
  · exact R.throw _
  · split
    · exact R.throw _
    · exact native hinner room e hlibraries fn args

/-! ## §6. Nodes -/

omit hinner in
theorem checkArity (callee : Value) (params args : Nat) (offset : Bool) :
    R.Rel (Scrawl.checkArity callee params args offset)
      (Scrawl.checkArity callee params args offset) :=
  R.reads (checkArity_reads callee params args offset)

omit hinner in
theorem bindParams (pairs : List (Value × Datum)) :
    R.Rel (Scrawl.bindParams room e pairs) (Scrawl.bindParams room e pairs) := by
  induction pairs with
  | nil => exact R.pure _
  | cons pair rest ih =>
    exact R.bind (R.lift _) fun key => R.andThen (R.assign room e key _) ih

theorem callFunction (rules : Rules) (callee fn : Value) (args : List Datum) :
    R.Rel (Scrawl.callFunction rules inner room callee fn args)
      (Scrawl.callFunction rules inner' room callee fn args) :=
  R.bind (R.lift _) fun _ => R.bind (R.lift _) fun count =>
    R.andThen (checkArity callee count args.length false) <|
      R.bind (R.lift _) fun body => R.bind (R.lift _) fun home =>
        R.bind (R.enterScope rules room home) fun e => R.bind (R.lift _) fun _ =>
          R.andThen (bindParams room e _) (items hinner room e body)

theorem callNative {rules : Rules} (hlibraries : R.Admits rules.libraries) (callee fn : Value)
    (args : List Datum) :
    R.Rel (Scrawl.callNative rules inner room e callee fn args)
      (Scrawl.callNative rules inner' room e callee fn args) :=
  R.bind (R.lift _) fun _ => R.bind (R.lift _) fun native =>
    R.andThen (checkArity callee _ args.length true) <| R.andThen (R.permit rules _) <|
      R.bind (R.lift _) fun room => apply hinner room e hlibraries native _

theorem evalCall {rules : Rules} (hlibraries : R.Admits rules.libraries) (node : Value) :
    R.Rel (Scrawl.evalCall rules inner room e node) (Scrawl.evalCall rules inner' room e node) := by
  refine R.bind (R.lift _) fun room => R.bind (R.lift _) fun callee =>
    R.bind (hinner room e callee) fun d => R.bind (R.lift _) fun list =>
      R.bind (R.lift _) fun nodes => R.bind (R.lift _) fun argRoom =>
        R.bind (R.mapM (hinner argRoom e) nodes) fun args => R.bind (R.lift _) fun tag => ?_
  split
  · exact callFunction hinner room rules callee _ args
  · split
    · exact callNative hinner room e hlibraries callee _ args
    · exact R.throw _

theorem evalOperation (node : Value) :
    R.Rel (Scrawl.evalOperation inner room e node) (Scrawl.evalOperation inner' room e node) := by
  refine R.bind (R.lift _) fun left => R.bind (hinner room e left) fun _ =>
    R.bind (R.lift _) fun right => R.bind (hinner room e right) fun _ => R.bind (R.lift _) fun op => ?_
  split
  · exact R.bind (R.lift _) fun _ => R.bind (R.lift _) fun _ => R.bind (R.lift _) fun _ => R.pure _
  · exact R.bind (R.reads (plainText_reads _)) fun _ => R.throw _

omit hinner in
theorem evalSymbol (node : Value) :
    R.Rel (Scrawl.evalSymbol room e node) (Scrawl.evalSymbol room e node) := by
  refine R.bind (R.lift _) fun name => R.bind (R.lift _) fun n =>
    R.bind (R.reads (lookup_reads room e n)) fun found => ?_
  split
  · split
    · exact R.bind (R.reads (plainText_reads _)) fun _ => R.throw _
    · exact R.pure _
  · exact R.bind (R.reads (plainText_reads _)) fun _ => R.throw _

theorem evalAssignment (node : Value) :
    R.Rel (Scrawl.evalAssignment inner room e node) (Scrawl.evalAssignment inner' room e node) :=
  R.bind (R.lift _) fun _ => R.bind (R.lift _) fun name => R.bind (R.lift _) fun value =>
    R.bind (hinner room e value) fun d => R.andThen (R.assign room e name d) (R.pure _)

/-- **One layer of evaluation is related** if the evaluators inside are, and libraries that may be
    loaded. -/
theorem layer {rules : Rules} (hlibraries : R.Admits rules.libraries) :
    R.Related (evalLayer rules inner) (evalLayer rules inner') := by
  intro room e node
  refine R.bind (R.lift _) fun room => R.bind (R.lift _) fun tag => ?_
  split
  · exact R.bind (R.lift _) fun _ => R.bind (R.lift _) fun _ => R.pure _
  · exact R.bind (R.lift _) fun _ => R.bind (R.reads (plainText_reads _)) fun _ => R.pure _
  · exact R.pure _
  · exact evalOperation hinner room e node
  · exact evalSymbol room e node
  · exact evalAssignment hinner room e node
  · exact evalCall hinner room e hlibraries node
  · exact R.bind (R.lift _) fun _ => R.bind (R.lift _) fun _ =>
      R.bind (R.makeScope rules room _) fun _ => R.pure _
  · exact R.bind (R.reads (plainText_reads _)) fun _ => R.throw _

end Evaluators

end Congruence

end Scrawl
