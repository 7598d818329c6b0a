/-
  Scrawl.Proofs.Eval.SimulatedNatives — the functions of the language go in lockstep.

  Given two evaluators that go in lockstep, so does everything that is built on them: lists of
  nodes, programs, windows and their events, and the functions of the language.
-/

import Scrawl.Proofs.Eval.Simulation

namespace Scrawl

open Comparison (Same Anything)

namespace Simulation

variable (s : Simulation) {inner inner' : Evaluator} {k : Forest} {e : ScopeId}

/-! ## §1. Common steps -/

/-- A computation without a world, done by both. -/
theorem lift_same {α : Type} (x : Except Fault α) :
    s.Lockstep k Same (liftM x : Run α) (liftM x : Run α) :=
  .liftSame s.fault_refl x

theorem throw_same {α β : Type} {A : Forest → α → β → Prop} (f : Fault) :
    s.Lockstep k A (throw f : Run α) (throw f : Run β) :=
  .throw (s.fault_refl f)

/-- A result that is related to another one however many scopes there are. -/
theorem plain_lockstep {v v' : Value} (h : ∀ j, s.value j v v') :
    s.Lockstep k s.datum (pure (.plain v)) (pure (.plain v')) :=
  .pure fun j _ => ⟨h j, rfl⟩

theorem datum_mono {i j : Forest} {d d' : Datum} (hij : i ≤ j) (h : s.datum i d d') :
    s.datum j d d' :=
  ⟨s.value_mono hij h.1, h.2⟩

/-- What depends only on how a scope is written is the same in both. -/
theorem written_lockstep (writable : Bool) (text : String → String) :
    s.Lockstep k Same
      (if writable then (do return text (← get).scopeText) else throw .numberTooLong : Run String)
      (if writable then (do return text (← get).scopeText) else throw .numberTooLong) := by
  cases writable with
  | false => exact s.throw_same _
  | true =>
    refine .get fun w w' hw _ => ?_
    rw [(s.world_same hw).2.2]
    exact .pure fun _ _ => rfl

theorem plainText_lockstep (v : Value) : s.Lockstep k Same (plainText v) (plainText v) :=
  s.written_lockstep v.isWritable fun t => v.plainText t

theorem shown_lockstep (v : Value) : s.Lockstep k Same (shown v) (shown v) :=
  s.written_lockstep v.isWritable fun t => v.shown t

theorem printLine_lockstep (line : String) :
    s.Lockstep k Anything (printLine line) (printLine line) :=
  .modify fun _ _ hw _ => ⟨s.world_print line hw, le_rfl⟩

/-- Evaluating related nodes in turn. -/
theorem evalNodes_lockstep (hinner : s.Evaluates inner inner') (he : s.scope k e) (room : Room)
    {ns ns' : List Value} (h : List.Forall₂ s.node ns ns') :
    s.Lockstep k s.datum (evalNodes inner room e ns) (evalNodes inner' room e ns') := by
  have hnothing : s.datum k (.plain .nothing) (.plain .nothing) := ⟨s.value_nothing k, rfl⟩
  unfold evalNodes
  refine .foldlM (B := s.datum) (fun _ _ _ _ => s.datum_mono) ?_ h hnothing
  intro j hj n n' hn
  exact (hinner j room e n n' (s.scope_mono hj he) hn).weaken fun _ _ _ _ h => h.1

theorem evalItems_lockstep (hinner : s.Evaluates inner inner') (he : s.scope k e) (room : Room)
    {b b' : Value} (h : s.nodes b b') :
    s.Lockstep k s.datum (evalItems inner room e b) (evalItems inner' room e b') := by
  unfold evalItems
  refine .bindSame (s.lift_same _) fun j hj room' => ?_
  refine .bind (.lift h) fun i hi ns ns' hns => ?_
  exact s.evalNodes_lockstep hinner (s.scope_mono (le_trans hj hi) he) room' hns

/-- The payload of what related values evaluate to. -/
theorem evalPayload_lockstep (hinner : s.Evaluates inner inner') (he : s.scope k e) (room : Room)
    {v v' : Value} (h : s.value k v v') :
    s.Lockstep k (fun _ => s.payload) (evalPayload inner room e v)
      (evalPayload inner' room e v') := by
  unfold evalPayload
  refine .bind (hinner k room e v v' he (s.node_value h)) fun j _ d d' hd => ?_
  exact .lift (s.value_payload hd.1.1)

/-- The payload of what a plain value evaluates to is the same in both. -/
theorem evalPayload_plain (hinner : s.Evaluates inner inner') (he : s.scope k e) (room : Room)
    {v v' : Value} (h : s.value k v v') (hv : s.plain v) :
    s.Lockstep k Same (evalPayload inner room e v)
      (evalPayload inner' room e v') := by
  unfold evalPayload
  refine .bind (hinner k room e v v' he (s.node_value h)) fun j _ d d' hd => ?_
  rw [s.plain_eq hd.1.1 (hd.2 hv)]
  exact s.lift_same _

/-- A window's call of a function by name, where both evaluate. -/
theorem callNamed_lockstep (hinner : s.Evaluates inner inner') (he : s.scope k e) (room : Room)
    (name : Value) {args : List Value} (hargs : ∀ a ∈ args, a.IsNews) :
    s.Lockstep k Anything (callNamed inner room e name (.list args))
      (callNamed inner' room e name (.list args)) := by
  unfold callNamed
  refine .bind (hinner k room e _ _ he (s.node_news name args hargs)) fun j _ _ _ _ => ?_
  exact .pure fun _ _ => trivial

/-! ## §2. Programs -/

/-- Lists of nodes that are related to themselves. -/
theorem forall₂_self {ns : List Value} (h : ∀ n ∈ ns, s.node n n) : List.Forall₂ s.node ns ns :=
  List.forall₂_same.2 h

theorem runProgram_lockstep (hinner : s.Evaluates inner inner') (he : s.scope k e) (room : Room)
    {p : Grammar.Program} (h : ∀ n ∈ p.nodes, s.node n n) :
    s.Lockstep k s.datum (runProgram inner room e p) (runProgram inner' room e p) := by
  unfold runProgram
  refine .bind (s.evalNodes_lockstep hinner he room (s.forall₂_self h)) fun j _ d d' hd => ?_
  cases p.fault with
  | some f => exact s.throw_same f
  | none => exact .pure fun i hi => s.datum_mono hi hd

theorem runText_lockstep (hinner : s.Evaluates inner inner') (he : s.scope k e) (room : Room)
    {text : String} (h : ∀ n ∈ (Grammar.Program.ofText grammarDepth text).nodes, s.node n n) :
    s.Lockstep k s.datum (runText inner room e text) (runText inner' room e text) := by
  unfold runText
  refine .bindSame (s.lift_same _) fun j hj room' => ?_
  refine .bind (s.lift_same _) fun i hi _ _ _ => ?_
  exact s.runProgram_lockstep hinner (s.scope_mono (le_trans hj hi) he) room' h

/-- A source file is the same text in both. -/
theorem readSource_lockstep (path : String) :
    s.Lockstep k Same (readSource path) (readSource path) := by
  unfold readSource
  refine .get fun w w' hw _ => ?_
  rw [(s.world_same hw).1]
  refine .bindSame (s.lift_same _) fun j hj bytes => ?_
  cases Codec.sourceText bytes with
  | error fault => exact s.throw_same _
  | ok text => exact .pure fun _ _ => rfl

/-! ## §3. The stage -/

/-- Changes of windows that leave alone where each was made. -/
theorem homes_changeWindow {stage : Stage} (h : s.homes k stage) (n : Nat)
    {change : Stage.Window → Stage.Window} (hchange : ∀ w, (change w).home = w.home) :
    s.homes k (stage.changeWindow n change) := by
  intro m window hwindow
  simp only [Stage.changeWindow, Array.getElem?_modify] at hwindow
  split at hwindow
  · obtain ⟨old, hold, rfl⟩ := Option.map_eq_some_iff.1 hwindow
    rw [hchange]
    exact h m old hold
  · exact h m window hwindow

section Windows

variable (hdraws : s.rules.Draws)
include hdraws

theorem update_lockstep {change : Stage → Stage}
    (h : ∀ j, k ≤ j → ∀ stage, s.homes j stage → s.homes j (change stage)) :
    s.Lockstep k Anything (Stage.update change) (Stage.update change) := by
  refine .modify fun w w' hw hk => ⟨?_, le_rfl⟩
  rw [(s.world_same hw).2.1]
  exact s.world_stage _ hw (h _ hk _ (s.world_homes hdraws hw))

/-- Changing a window, but not where it was made. -/
theorem changeWindow_lockstep (n : Nat) {change : Stage.Window → Stage.Window}
    (hchange : ∀ w, (change w).home = w.home) :
    s.Lockstep k Anything (Stage.update (·.changeWindow n change))
      (Stage.update (·.changeWindow n change)) :=
  s.update_lockstep hdraws fun _ _ _ hstage => s.homes_changeWindow hstage n hchange

theorem call_lockstep (c : Stage.Call) :
    s.Lockstep k Anything (Stage.call c) (Stage.call c) := by
  unfold Stage.call
  split
  · exact s.update_lockstep hdraws fun _ _ _ hstage => hstage
  · exact s.throw_same _

theorem window_lockstep (n : Nat) :
    s.Lockstep k (fun j a b => a = b ∧ s.home j a.home) (Stage.window n) (Stage.window n) := by
  unfold Stage.window
  refine .get fun w w' hw _ => ?_
  rw [(s.world_same hw).2.1]
  cases hn : w.stage.windows[n]? with
  | none => exact s.throw_same _
  | some window =>
    exact .pure fun j hj => ⟨rfl, s.home_mono hj (s.world_homes hdraws hw n window hn)⟩

theorem schedule_lockstep (n : Nat) :
    s.Lockstep k Anything (Stage.schedule n) (Stage.schedule n) :=
  .andThen (s.call_lockstep hdraws _) fun _ _ => s.changeWindow_lockstep hdraws n fun _ => rfl

/-! ## §4. Frames and events -/

variable (htells : s.Tells inner inner') (room : Room)
include htells

theorem redraw_lockstep (n : Nat) :
    s.Lockstep k Anything (Stage.redraw inner room n) (Stage.redraw inner' room n) := by
  unfold Stage.redraw
  refine .bind (s.window_lockstep hdraws n) ?_
  rintro j hj window _ ⟨rfl, hhome⟩
  refine .andThen (s.call_lockstep hdraws _) fun i hi => ?_
  refine .andThen (s.call_lockstep hdraws _) fun l hl => ?_
  refine .andThen (htells _ room _ _ _ (s.home_mono (le_trans hi hl) hhome)
    fun _ h => nomatch h) fun _ _ => ?_
  exact s.schedule_lockstep hdraws n

theorem frame_lockstep (n : Nat) :
    s.Lockstep k Anything (Stage.frame inner room n) (Stage.frame inner' room n) := by
  unfold Stage.frame
  refine .bindSame (s.lift_same _) fun j hj room' => ?_
  refine .bind (s.window_lockstep hdraws n) ?_
  rintro i hi window _ ⟨rfl, -⟩
  refine .andThen (s.changeWindow_lockstep hdraws n fun _ => rfl) fun l hl => ?_
  refine .forM (R := Eq) (fun _ _ m _ hm => ?_) (List.forall₂_refl _)
  subst hm
  exact s.redraw_lockstep hdraws htells room' m

omit hdraws in
theorem tellKey_lockstep {window : Stage.Window} (hhome : s.home k window.home)
    (event : Stage.Event) :
    s.Lockstep k Anything (Stage.tellKey inner room window event)
      (Stage.tellKey inner' room window event) := by
  unfold Stage.tellKey
  cases window.onKey with
  | none => exact .pure fun _ _ => trivial
  | some name =>
    refine .bindSame (s.plainText_lockstep event.char) fun j hj char => ?_
    refine .bindSame (s.lift_same _) fun i hi keycode => ?_
    refine htells _ room _ _ _ (s.home_mono (le_trans hj hi) hhome) ?_
    intro a ha
    rcases List.mem_pair.1 ha with rfl | rfl
    · exact .inl ⟨char, rfl⟩
    · exact .inr ⟨keycode, rfl⟩

omit hdraws in
theorem tellClick_lockstep {window : Stage.Window} (hhome : s.home k window.home)
    (event : Stage.Event) :
    s.Lockstep k Anything (Stage.tellClick inner room window event)
      (Stage.tellClick inner' room window event) := by
  unfold Stage.tellClick
  cases window.onClick with
  | none => exact .pure fun _ _ => trivial
  | some name =>
    refine .bindSame (s.lift_same _) fun j hj button => ?_
    refine .bindSame (s.lift_same _) fun i hi x => ?_
    refine .bindSame (s.lift_same _) fun l hl y => ?_
    have hkl : k ≤ l := le_trans hj (le_trans hi hl)
    refine htells _ room _ _ _ (s.home_mono hkl hhome) ?_
    intro a ha
    simp only [List.mem_cons, List.not_mem_nil, or_false] at ha
    rcases ha with rfl | rfl | rfl
    · exact .inr ⟨button, rfl⟩
    · exact .inr ⟨x, rfl⟩
    · exact .inr ⟨y, rfl⟩

theorem handle_lockstep (n : Nat) (event : Stage.Event) :
    s.Lockstep k Anything (Stage.handle inner room n event)
      (Stage.handle inner' room n event) := by
  unfold Stage.handle
  refine .bindSame (s.lift_same _) fun j hj room' => ?_
  refine .bind (s.window_lockstep hdraws n) ?_
  rintro i hi window _ ⟨rfl, hhome⟩
  refine .bindSame (s.lift_same _) fun l hl _ => ?_
  have hhome := s.home_mono hl hhome
  split
  · exact s.tellKey_lockstep htells room' hhome event
  · exact s.tellClick_lockstep htells room' hhome event
  · exact .bindSame (s.shown_lockstep _) fun _ _ _ => s.throw_same _

theorem play_lockstep (n : Nat) (cue : Stage.Cue) :
    s.Lockstep k Anything (Stage.play inner room n cue) (Stage.play inner' room n cue) := by
  cases cue with
  | frame => exact s.frame_lockstep hdraws htells room n
  | event event => exact s.handle_lockstep hdraws htells room n event

theorem mainLoop_lockstep (n : Nat) :
    s.Lockstep k Anything (Stage.mainLoop inner room n) (Stage.mainLoop inner' room n) := by
  unfold Stage.mainLoop
  refine .bindSame (s.lift_same _) fun j hj room' => ?_
  refine .andThen (s.call_lockstep hdraws _) fun i hi => ?_
  refine .bind (s.window_lockstep hdraws n) ?_
  rintro l hl window _ ⟨rfl, -⟩
  refine .andThen (s.changeWindow_lockstep hdraws n fun _ => rfl) fun m hm => ?_
  refine .forM (R := Eq) (fun _ _ cue _ hcue => ?_) (List.forall₂_refl _)
  subst hcue
  exact s.play_lockstep hdraws htells room' n cue

theorem start_lockstep (n : Nat) :
    s.Lockstep k Anything (Stage.start inner room n) (Stage.start inner' room n) := by
  unfold Stage.start
  refine .andThen (s.changeWindow_lockstep hdraws n fun _ => rfl) fun _ _ => ?_
  refine .andThen (s.schedule_lockstep hdraws n) fun _ _ => ?_
  exact s.mainLoop_lockstep hdraws htells room n

end Windows

/-! ## §5. Arguments of drawing functions -/

theorem intArg_lockstep (v : Value) : s.Lockstep k Same (Stage.intArg v) (Stage.intArg v) :=
  .bindSame (s.lift_same _) fun _ _ _ => s.lift_same _

theorem textArg_lockstep (v : Value) : s.Lockstep k Same (Stage.textArg v) (Stage.textArg v) :=
  .bindSame (s.lift_same _) fun _ _ _ => s.plainText_lockstep _

/-- Picking something from a table of the stage. -/
theorem listedArg_lockstep (items : Stage.Table → List Nat) (load : Nat) (v : Value) :
    s.Lockstep k Same (Stage.listedArg items load v) (Stage.listedArg items load v) := by
  refine .bindSame (s.intArg_lockstep v) fun _ _ i => .get fun w w' hw _ => ?_
  rw [(s.world_same hw).2.1]
  exact s.lift_same _

theorem windowArg_lockstep (load : Nat) (v : Value) :
    s.Lockstep k Same (Stage.windowArg load v) (Stage.windowArg load v) :=
  s.listedArg_lockstep _ load v

theorem spriteArg_lockstep (load : Nat) (v : Value) :
    s.Lockstep k Same (Stage.spriteArg load v) (Stage.spriteArg load v) :=
  s.listedArg_lockstep _ load v

/-- Four whole numbers, made into corners. -/
theorem corners_lockstep (a b c d : Value) (make : Int → Int → Int → Int → Stage.Corners) :
    s.Lockstep k Same
      (do
        let a ← Stage.intArg a
        let b ← Stage.intArg b
        let c ← Stage.intArg c
        let d ← Stage.intArg d
        return make a b c d : Run Stage.Corners)
      (do
        let a ← Stage.intArg a
        let b ← Stage.intArg b
        let c ← Stage.intArg c
        let d ← Stage.intArg d
        return make a b c d) := by
  refine .bindSame (s.intArg_lockstep a) fun _ _ a => ?_
  refine .bindSame (s.intArg_lockstep b) fun _ _ b => ?_
  refine .bindSame (s.intArg_lockstep c) fun _ _ c => ?_
  refine .bindSame (s.intArg_lockstep d) fun _ _ d => ?_
  exact .pure fun _ _ => rfl

theorem pointArgs_lockstep (x1 y1 x2 y2 : Value) :
    s.Lockstep k Same (Stage.pointArgs x1 y1 x2 y2) (Stage.pointArgs x1 y1 x2 y2) :=
  s.corners_lockstep x1 y1 x2 y2 fun x1 y1 x2 y2 => { x1, y1, x2, y2 }

theorem boxArgs_lockstep (x y w h : Value) :
    s.Lockstep k Same (Stage.boxArgs x y w h) (Stage.boxArgs x y w h) :=
  s.corners_lockstep x y w h fun x y w h => { x1 := x, y1 := y, x2 := x + w, y2 := y + h }

/-! ## §6. Drawing functions -/

theorem homes_setTable {stage : Stage} (h : s.homes k stage) (load : Nat) (t : Stage.Table) :
    s.homes k (stage.setTable load t) := by
  have hwindows : (stage.setTable load t).windows = stage.windows := by
    unfold Stage.setTable
    split <;> rfl
  intro n window hwindow
  rw [hwindows] at hwindow
  exact h n window hwindow

/-- What both runs give back, one and the same value. -/
def sameValue (k : Forest) (v v' : Value) : Prop := v = v' ∧ s.value k v v'

/-- A drawing function that has nothing to give back. -/
theorem blank_lockstep {x y : Run Unit} (h : s.Lockstep k Anything x y) :
    s.Lockstep k s.sameValue (do x; return .blank) (do y; return .blank) :=
  .andThen h fun _ _ => .pure fun j _ => ⟨rfl, s.value_blank j⟩

section Drawing

variable (hdraws : s.rules.Draws)
include hdraws

/-- Changing the stage, with a result that depends on the stage only. -/
theorem updateGet_lockstep {α : Type} (result : Stage → α) (change : Stage → Stage)
    (h : ∀ j, k ≤ j → ∀ stage, s.homes j stage → s.homes j (change stage)) :
    s.Lockstep k Same
      (modifyGet fun w => (result w.stage, { w with stage := change w.stage }) : Run α)
      (modifyGet fun w => (result w.stage, { w with stage := change w.stage })) := by
  refine .modifyGet fun w w' hw hk => ?_
  rw [(s.world_same hw).2.1]
  exact ⟨s.world_stage _ hw (h _ hk _ (s.world_homes hdraws hw)), le_rfl, rfl⟩

theorem openWindow_lockstep (he : s.scope k e) (load : Nat) (draw : Value) (width height : Int)
    (title : String) :
    s.Lockstep k Same (Stage.openWindow load e draw width height title)
      (Stage.openWindow load e draw width height title) := by
  unfold Stage.openWindow
  refine .get fun w w' hw hk => ?_
  have he := s.home_scope (s.scope_mono hk he)
  rw [(s.world_same hw).2.1]
  generalize w.stage.windows.size = n
  refine .andThen (s.update_lockstep hdraws ?_) fun j hj => ?_
  · -- the new window is made where both evaluate
    intro j hj stage hstage m window hwindow
    rw [Array.getElem?_push] at hwindow
    split at hwindow
    · obtain rfl := Option.some.inj hwindow
      exact s.home_mono hj he
    · exact hstage m window hwindow
  refine .andThen (.forM (R := Eq) (fun _ _ c _ hc => hc ▸ s.call_lockstep hdraws c)
    (List.forall₂_refl _)) fun i hi => ?_
  let finish (stage : Stage) := stage.changeWindow n fun made => { made with complete := true }
  exact s.updateGet_lockstep hdraws (fun stage => ((finish stage).table load).windows.length)
    (fun stage => (finish stage).setTable load
      { (finish stage).table load with windows := ((finish stage).table load).windows ++ [n] })
    fun j _ stage hstage =>
      have hfinish : s.homes j (finish stage) := s.homes_changeWindow hstage n fun _ => rfl
      s.homes_setTable hfinish load _

theorem loadImage_lockstep (load : Nat) (path : String) :
    s.Lockstep k Same (Stage.loadImage load path) (Stage.loadImage load path) := by
  let logged (stage : Stage) := stage.log (.loadImage path)
  refine s.updateGet_lockstep hdraws (fun stage => ((logged stage).table load).sprites.length)
    (fun stage => { logged stage with images := (logged stage).images + 1 }.setTable load
      { (logged stage).table load with
        sprites := ((logged stage).table load).sprites ++ [(logged stage).images] }) ?_
  intro j _ stage hstage
  have hlogged : s.homes j { logged stage with images := (logged stage).images + 1 } := hstage
  exact s.homes_setTable hlogged load _

theorem note_lockstep (load : Nat) (d : Stage.Deed) :
    s.Lockstep k Anything (Stage.update (·.note load d)) (Stage.update (·.note load d)) :=
  s.update_lockstep hdraws fun _ _ _ hstage => s.homes_setTable hstage load _

theorem drawing_lockstep (htells : s.Tells inner inner') (he : s.scope k e) (room : Room)
    (load : Nat) (op : Drawing) (args : List Value) :
    s.Lockstep k s.sameValue (op.run inner room e load args) (op.run inner' room e load args) := by
  unfold Drawing.run
  split
  · next callback w h caption =>
    -- create: the window remembers the scope it is made in
    refine .bindSame (s.lift_same _) fun i hi draw => ?_
    refine .bindSame (s.intArg_lockstep w) fun j hj width => ?_
    refine .bindSame (s.intArg_lockstep h) fun l hl height => ?_
    refine .bindSame (s.textArg_lockstep caption) fun m hm title => ?_
    have he := s.scope_mono (by order : k ≤ m) he
    refine .bindSame (s.openWindow_lockstep hdraws he load draw width height title) fun _ _ id => ?_
    exact .pure fun j _ => ⟨rfl, s.value_int j _⟩
  · next id =>
    -- start: the main loop may run the program again, so it needs the evaluators
    refine .bindSame (s.windowArg_lockstep load id) fun _ _ n => ?_
    exact s.blank_lockstep (s.start_lockstep hdraws htells room n)
  · next id color =>
    -- background
    refine .bindSame (s.windowArg_lockstep load id) fun _ _ n => ?_
    refine .bindSame (s.lift_same _) fun _ _ color => ?_
    exact s.blank_lockstep (s.changeWindow_lockstep hdraws n fun _ => rfl)
  · next id x y w h color =>
    -- rect
    refine .bindSame (s.windowArg_lockstep load id) fun _ _ n => ?_
    refine .bindSame (s.boxArgs_lockstep x y w h) fun _ _ corners => ?_
    refine .bindSame (s.textArg_lockstep color) fun _ _ color => ?_
    exact s.blank_lockstep (s.call_lockstep hdraws _)
  · next id x1 y1 x2 y2 color =>
    -- line
    refine .bindSame (s.windowArg_lockstep load id) fun _ _ n => ?_
    refine .bindSame (s.pointArgs_lockstep x1 y1 x2 y2) fun _ _ corners => ?_
    refine .bindSame (s.textArg_lockstep color) fun _ _ color => ?_
    exact s.blank_lockstep (s.call_lockstep hdraws _)
  · next id x y w h color =>
    -- ellipse
    refine .bindSame (s.windowArg_lockstep load id) fun _ _ n => ?_
    refine .bindSame (s.boxArgs_lockstep x y w h) fun _ _ corners => ?_
    refine .bindSame (s.textArg_lockstep color) fun _ _ color => ?_
    exact s.blank_lockstep (s.call_lockstep hdraws _)
  · next path =>
    -- loadSprite
    refine .bindSame (s.textArg_lockstep path) fun _ _ path => ?_
    refine .bindSame (s.loadImage_lockstep hdraws load path) fun _ _ id => ?_
    exact .pure fun j _ => ⟨rfl, s.value_int j _⟩
  · next id x y spr =>
    -- sprite
    refine .bindSame (s.windowArg_lockstep load id) fun _ _ n => ?_
    refine .bindSame (s.intArg_lockstep x) fun _ _ x => ?_
    refine .bindSame (s.intArg_lockstep y) fun _ _ y => ?_
    refine .bindSame (s.spriteArg_lockstep load spr) fun _ _ picture => ?_
    exact s.blank_lockstep (s.call_lockstep hdraws _)
  · next id caption =>
    -- title
    refine .bindSame (s.windowArg_lockstep load id) fun _ _ n => ?_
    refine .bindSame (s.textArg_lockstep caption) fun _ _ title => ?_
    exact s.blank_lockstep (s.call_lockstep hdraws _)
  · next id callback =>
    -- onKey: only the name of the function is kept
    refine .bindSame (s.windowArg_lockstep load id) fun _ _ n => ?_
    refine .bindSame (s.textArg_lockstep callback) fun _ _ name => ?_
    exact s.blank_lockstep (s.changeWindow_lockstep hdraws n fun _ => rfl)
  · next id callback =>
    -- onClick
    refine .bindSame (s.windowArg_lockstep load id) fun _ _ n => ?_
    refine .bindSame (s.textArg_lockstep callback) fun _ _ name => ?_
    exact s.blank_lockstep (s.changeWindow_lockstep hdraws n fun _ => rfl)
  · exact s.throw_same _

end Drawing

/-! ## §7. Control -/

/-- A function with no value of its own to give back. -/
theorem nothing_lockstep {α β : Type} {A : Forest → α → β → Prop} {x : Run α} {y : Run β}
    (h : s.Lockstep k A x y) :
    s.Lockstep k s.datum (x >>= fun _ => pure (.plain .nothing))
      (y >>= fun _ => pure (.plain .nothing)) :=
  .andThen h fun _ _ => s.plain_lockstep s.value_nothing

section Control

variable (hinner : s.Evaluates inner inner') (room : Room)
include hinner

theorem callBlock_lockstep (he : s.scope k e) {v v' : Value} (h : s.value k v v') :
    s.Lockstep k Anything (callBlock inner room e v) (callBlock inner' room e v') := by
  unfold callBlock
  refine .bind (hinner k room e _ _ he (s.node_block h)) fun _ _ _ _ _ => ?_
  exact .pure fun _ _ => trivial

theorem branch_lockstep (he : s.scope k e) {c c' t t' f f' : Value} (hc : s.value k c c')
    (ht : s.value k t t') (hf : s.value k f f') :
    s.Lockstep k Anything (branch inner room e c t f) (branch inner' room e c' t' f') := by
  unfold branch
  refine .bind (s.evalPayload_lockstep hinner he room hc) fun j hj p p' hp => ?_
  rw [s.payload_isOne hp]
  have he := s.scope_mono hj he
  cases p.isOne with
  | false => exact s.callBlock_lockstep hinner room he (s.value_mono hj hf)
  | true => exact s.callBlock_lockstep hinner room he (s.value_mono hj ht)

/-- A loop, by the number of rounds it may still go: a round is a condition and a call. -/
theorem iterate_lockstep {c c' b b' : Value} (rounds : Nat) :
    ∀ k, s.scope k e → s.value k c c' → s.value k b b' →
      s.Lockstep k Anything (iterate inner room e c b rounds)
        (iterate inner' room e c' b' rounds) := by
  induction rounds with
  | zero => exact fun _ _ _ _ => s.throw_same _
  | succ rounds ih =>
    intro k he hc hb
    unfold iterate
    refine .bind (s.evalPayload_lockstep hinner he room hc) fun j hj p p' hp => ?_
    rw [s.payload_isOne hp]
    have he := s.scope_mono hj he
    cases p.isOne with
    | false => exact .pure fun _ _ => trivial
    | true =>
      refine .andThen (s.callBlock_lockstep hinner room he (s.value_mono hj hb)) fun i hi => ?_
      exact ih i (s.scope_mono hi he) (s.value_mono (le_trans hj hi) hc)
        (s.value_mono (le_trans hj hi) hb)

/-- The functions that may not look at the text of their arguments. -/
theorem control_lockstep (he : s.scope k e) {fn : Native} (hfn : fn.isControl = true)
    {args args' : List Value} (h : List.Forall₂ (s.value k) args args')
    (hlength : args.length = fn.params.length) :
    s.Lockstep k s.datum (fn.run s.rules inner room e args)
      (fn.run s.rules' inner' room e args') := by
  cases fn with
  | choose =>
    obtain _ | ⟨hc, _ | ⟨ht, _ | ⟨hf, _ | _⟩⟩⟩ := h <;> try cases hlength
    exact s.nothing_lockstep (s.branch_lockstep hinner room he hc ht hf)
  | loop =>
    obtain _ | ⟨hc, _ | ⟨hb, _ | _⟩⟩ := h <;> try cases hlength
    refine s.nothing_lockstep (A := Anything) ?_
    rw [s.rounds_eq]
    exact s.iterate_lockstep hinner room s.rules.rounds k he hc hb
  | equals =>
    obtain _ | ⟨ha, _ | ⟨hb, _ | _⟩⟩ := h <;> try cases hlength
    refine .bind (s.evalPayload_lockstep hinner he room ha) fun j hj p p' hp => ?_
    refine .bind (s.evalPayload_lockstep hinner (s.scope_mono hj he) room
      (s.value_mono hj hb)) fun i hi q q' hq => ?_
    rw [s.payload_equal hp hq]
    exact s.plain_lockstep fun j => s.value_int j _
  | _ => cases hfn

end Control

/-! ## §8. The functions of the language -/

/-- Plain values are the same in both. -/
theorem eq_of_plain {vs vs' : List Value} (h : List.Forall₂ (s.value k) vs vs')
    (hplain : ∀ v ∈ vs, s.plain v) : vs' = vs := by
  induction h with
  | nil => rfl
  | cons hv _ ih =>
    rw [s.plain_eq hv (hplain _ List.mem_cons_self),
      ih fun u hu => hplain u (List.mem_cons_of_mem _ hu)]

section Natives

variable (hinner : s.Evaluates inner inner') (htells : s.Tells inner inner') (room : Room)
include hinner htells

/-- The functions that may look at the text of their arguments, which are plain. -/
theorem plainNative_lockstep (he : s.scope k e) {fn : Native} (hfn : fn.isControl = false)
    {args : List Value} (h : ∀ a ∈ args, s.value k a a ∧ s.plain a)
    (hallowed : s.rules.refuses (.call fn args) = none) :
    s.Lockstep k s.datum (fn.run s.rules inner room e args)
      (fn.run s.rules' inner' room e args) := by
  unfold Native.run
  split
  · next v =>
    -- print: the value is evaluated once more for the result
    obtain ⟨hv, hplain⟩ := h v List.mem_cons_self
    refine .bindSame (s.evalPayload_plain hinner he room hv hplain) fun i hi p => ?_
    refine .bindSame (s.plainText_lockstep p) fun j hj text => ?_
    refine .andThen (s.printLine_lockstep text) fun l hl => ?_
    have he := s.scope_mono (by order : k ≤ l) he
    exact (hinner l room e v v he (s.node_value hv)).weaken fun _ _ _ _ h => h.1
  · next v =>
    -- print_raw: the value itself is written, which is the same in both as it is plain
    obtain ⟨hv, -⟩ := h v List.mem_cons_self
    refine .bindSame (s.plainText_lockstep v) fun j hj text => ?_
    refine .andThen (s.printLine_lockstep text) fun l hl => ?_
    have he := s.scope_mono (by order : k ≤ l) he
    exact (hinner l room e v v he (s.node_value hv)).weaken fun _ _ _ _ h => h.1
  · next v =>
    -- str
    obtain ⟨hv, hplain⟩ := h v List.mem_cons_self
    refine .bindSame (s.evalPayload_plain hinner he room hv hplain) fun _ _ p => ?_
    refine .bindSame (s.plainText_lockstep p) fun _ _ text => ?_
    exact s.plain_lockstep fun j => s.value_text j text
  · next a b =>
    -- concat: the second argument is evaluated after the first may have made scopes
    obtain ⟨ha, haplain⟩ := h a List.mem_cons_self
    obtain ⟨hb, hbplain⟩ := h b (List.mem_cons_of_mem _ List.mem_cons_self)
    refine .bindSame (s.evalPayload_plain hinner he room ha haplain) fun i hi p => ?_
    refine .bindSame (s.plainText_lockstep p) fun j hj first => ?_
    have hkj : k ≤ j := le_trans hi hj
    refine .bindSame (s.evalPayload_plain hinner (s.scope_mono hkj he) room
      (s.value_mono hkj hb) hbplain) fun _ _ q => ?_
    refine .bindSame (s.plainText_lockstep q) fun _ _ second => ?_
    exact s.plain_lockstep fun j => s.value_string j _
  · next v =>
    -- import: another file is run where this one is, unless that is refused
    obtain ⟨hv, hplain⟩ := h v List.mem_cons_self
    refine .bindSame (s.evalPayload_plain hinner he room hv hplain) fun i hi p => ?_
    refine .bindSame (s.plainText_lockstep p) fun j hj path => ?_
    refine .bindSame (s.readSource_lockstep path) fun l hl text => ?_
    refine .permit ((s.source l text).imp id fun ⟨hnone, hnone', hnodes⟩ => ⟨hnone, hnone', ?_⟩)
    refine .bindSame (s.lift_same _) fun m hm room' => ?_
    have he := s.scope_mono (by order : k ≤ m) he
    exact s.nothing_lockstep (s.runText_lockstep hinner he room' hnodes)
  · next v =>
    -- library
    obtain ⟨hv, hplain⟩ := h v List.mem_cons_self
    refine .bindSame (s.evalPayload_plain hinner he room hv hplain) fun _ _ p => ?_
    refine .bindSame (s.plainText_lockstep p) fun _ _ path => ?_
    refine .get fun w w' hw _ => ?_
    rw [(s.world_same hw).1]
    refine .bindSame (s.lift_same _) fun _ _ bytes => ?_
    refine .bindSame (s.lift_same _) fun j _ text => ?_
    exact s.nothing_lockstep (s.load_lockstep ⟨_, _, .inl rfl, hallowed⟩ j text)
  · next v =>
    -- library_raw
    obtain ⟨hv, hplain⟩ := h v List.mem_cons_self
    refine .bindSame (s.evalPayload_plain hinner he room hv hplain) fun _ _ p => ?_
    refine .bindSame (s.plainText_lockstep p) fun _ _ packed => ?_
    refine .bindSame (s.lift_same _) fun j _ text => ?_
    exact s.nothing_lockstep (s.load_lockstep ⟨_, _, .inr rfl, hallowed⟩ j text)
  -- the functions that control the run
  · cases hfn
  · cases hfn
  · cases hfn
  · next load op =>
    -- a function of the drawing library
    have hdraws : s.rules.Draws := ⟨load, op, _, hallowed⟩
    refine .bind (s.drawing_lockstep hdraws htells he room load op _) ?_
    rintro j _ v _ ⟨rfl, hv⟩
    refine .andThen (s.note_lockstep hdraws load _) fun i hi => ?_
    exact .pure fun l hl => ⟨s.value_mono (le_trans hi hl) hv, rfl⟩
  · exact s.throw_same _

/-- A function of the language, called with related arguments. -/
theorem apply_lockstep (he : s.scope k e) (fn : Native) {args args' : List Value}
    (h : List.Forall₂ (s.value k) args args')
    (hallowed : s.rules.refuses (.call fn args) = none)
    (hplain : fn.isControl = false → ∀ a ∈ args, s.plain a) :
    s.Lockstep k s.datum (fn.apply s.rules inner room e args)
      (fn.apply s.rules' inner' room e args') := by
  unfold Native.apply
  rw [← h.length_eq]
  dsimp only
  split
  · exact s.throw_same _
  split
  · exact s.throw_same _
  have hlength : args.length = fn.params.length := by omega
  cases hfn : fn.isControl with
  | true => exact s.control_lockstep hinner room he hfn h hlength
  | false =>
    have hplain := hplain hfn
    obtain rfl := s.eq_of_plain h hplain
    exact s.plainNative_lockstep hinner htells room he hfn
      (fun a ha => ⟨List.forall₂_same.1 h a ha, hplain a ha⟩) hallowed

end Natives

end Simulation

end Scrawl
