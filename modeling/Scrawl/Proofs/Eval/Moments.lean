/-
  Scrawl.Proofs.Eval.Moments — a run seen at any moment.

  Evaluation can be broken off after any node (`evalUntil`).  If two evaluators differ only in when they
  break off, one run trails the other: either both are the same, or the first has been broken off and
  the second has gone on from there (`Run.Trails`).  The program respects this.  So what every move on
  the stage keeps is kept from any moment of what a host has done to any later one (`Moments.keeps`).
-/

import Mathlib.Logic.Relation
import Scrawl.Proofs.Eval.Congruence
import Scrawl.Proofs.Eval.Libraries
import Scrawl.Session

namespace Scrawl

/-! ## §1. Runs of which one may be broken off -/

/-- The first run may be broken off where the second one goes on, and from there to its end, as well as
    from its start, the second one keeps what holds of the lasting part of the stage. -/
structure Run.Trails (P : Stage → Prop) {α : Type} (x y : Run α) : Prop where
  /-- The second run keeps it. -/
  keeps : ∀ w, P w.stage.lasting → P (y.after w).stage.lasting
  /-- The first run is the same, or keeps it from the moment when it is broken off. -/
  broken : ∀ w, x w = y w ∨
    ∃ f v, x w = .error f v ∧ (P v.stage.lasting → P (y.after w).stage.lasting)

namespace Run.Trails

variable {P : Stage → Prop} {α β : Type}

/-- A run trails itself if it keeps what holds. -/
theorem same {x : Run α} (h : ∀ w, P w.stage.lasting → P (x.after w).stage.lasting) :
    Trails P x x := ⟨h, fun _ => .inl rfl⟩

theorem reads {x : Run α} (h : x.Reads) : Trails P x x := by
  refine same fun w hw => ?_
  rw [h.after]
  exact hw

/-- A change of the world that is not seen on the stage. -/
theorem modifyGet {change : World → α × World}
    (h : ∀ w, (change w).2.stage.lasting = w.stage.lasting) :
    Trails P (MonadStateOf.modifyGet change : Run α) (MonadStateOf.modifyGet change) := by
  refine same fun w hw => ?_
  show P (change w).2.stage.lasting
  rw [h]
  exact hw

theorem modifies {change : World → World} (h : ∀ w, (change w).stage.lasting = w.stage.lasting) :
    Trails P (modify change : Run Unit) (modify change) :=
  modifyGet h

theorem bind {x y : Run α} {f g : α → Run β} (h : Trails P x y)
    (hfg : ∀ a, Trails P (f a) (g a)) : Trails P (x >>= f) (y >>= g) := by
  -- the second part goes on where the first one has ended
  have hafter : ∀ w, P (y.after w).stage.lasting → P ((y >>= g).after w).stage.lasting := by
    intro w hw
    unfold Run.after at hw
    cases hy : y w with
    | ok a v =>
      rw [Run.after_bind_of_ok hy]
      rw [hy] at hw
      exact (hfg a).keeps v hw
    | error fault v =>
      rw [Run.after_bind_of_error hy]
      rw [hy] at hw
      exact hw
  refine ⟨fun w hw => hafter w (h.keeps w hw), fun w => ?_⟩
  rcases h.broken w with hsame | ⟨fault, v, hx, hv⟩
  · cases hy : y w with
    | ok a v =>
      rw [Run.bind_of_ok (hsame.trans hy), Run.bind_of_ok hy, Run.after_bind_of_ok hy]
      exact (hfg a).broken v
    | error fault v =>
      left
      rw [Run.bind_of_error (hsame.trans hy), Run.bind_of_error hy]
  · exact .inr ⟨fault, v, Run.bind_of_error hx f, fun hP => hafter w (hv hP)⟩

theorem andThen {x y : Run α} {x' y' : Run β} (h : Trails P x y) (h' : Trails P x' y') :
    Trails P (x >>= fun _ => x') (y >>= fun _ => y') :=
  h.bind fun _ => h'

theorem forM {f g : α → Run Unit} (h : ∀ a, Trails P (f a) (g a)) (as : List α) :
    Trails P (as.forM f) (as.forM g) := by
  induction as with
  | nil => exact .reads (.pure ())
  | cons a as ih => exact .andThen (h a) ih

end Run.Trails

open Run (Trails)

variable {P : Stage → Prop}

/-! ## §2. Windows -/

/-- A change of what is in passing. -/
theorem passing_trails (n : Nat) {change : Stage.Window → Stage.Window}
    (h : ∀ w, (change w).lasting = w.lasting) :
    Trails P (Stage.update (·.changeWindow n change)) (Stage.update (·.changeWindow n change)) :=
  .modifies fun w => w.stage.lasting_changeWindow_passing n h

theorem call_trails (c : Stage.Call) : Trails P (Stage.call c) (Stage.call c) := by
  unfold Stage.call
  split
  · exact .modifies fun _ => rfl
  · exact .reads (.throw _)

theorem schedule_trails (n : Nat) : Trails P (Stage.schedule n) (Stage.schedule n) :=
  .andThen (call_trails _) (passing_trails n fun _ => rfl)

theorem frame_trails {inner inner' : Evaluator}
    (hinner : ∀ room e node, Trails P (inner room e node) (inner' room e node)) (room : Room)
    (n : Nat) : Trails P (Stage.frame inner room n) (Stage.frame inner' room n) := by
  have hredraw : ∀ room m, Trails P (Stage.redraw inner room m) (Stage.redraw inner' room m) :=
    fun room m => .bind (.reads (window_reads m)) fun _ => .andThen (call_trails _) <|
      .andThen (call_trails _) <|
        .andThen (.bind (hinner room _ _) fun _ => .reads (.pure _)) (schedule_trails m)
  exact .bind (.reads (.lift _)) fun room => .bind (.reads (window_reads n)) fun _ =>
    .andThen (passing_trails n fun _ => rfl) (.forM (hredraw room) _)

section Moving

variable (hP : ∀ {s s' : Stage}, Stage.Move s s' → P s → P s')
include hP

/-- Noting a call that has made nothing. -/
theorem note_trails (load : Nat) {d : Stage.Deed} (hd : d.op ≠ .create ∧ d.op ≠ .loadSprite) :
    Trails P (Stage.update (·.note load d)) (Stage.update (·.note load d)) := by
  refine .same fun w hw => ?_
  show P (w.stage.note load d).lasting
  rw [Stage.lasting_note]
  exact hP (.quiet load hd) hw

/-- A drawing function that does not run the program again, noted if it returns. -/
theorem noted_trails {load : Nat} {op : Drawing} {args : List Value} {x : Run Value}
    (h : ∀ w, Stage.Moves load op args w.stage (x w)) :
    Trails P (do let result ← x; Stage.update (·.note load { op, args, result })
                 return Datum.plain result)
      (do let result ← x; Stage.update (·.note load { op, args, result })
          return Datum.plain result) := by
  refine .same fun w hw => ?_
  unfold Run.after
  have hmoves := h w
  cases hx : x w with
  | ok v u =>
    -- only together with the record is what it has done a move
    rw [hx] at hmoves
    rw [Run.bind_of_ok hx]
    show P (u.stage.note load _).lasting
    rw [Stage.lasting_note]
    cases hmoves with
    | ok hmove _ => exact hP hmove hw
  | error f u =>
    rw [hx] at hmoves
    rw [Run.bind_of_error hx]
    cases hmoves with
    | error hmove _ => exact hP hmove hw

/-- **The program respects trailing.** -/
def trailing : Congruence where
  Rel := Trails P
  reads := .reads
  bind := .bind
  aside h := .modifyGet fun w => by
    obtain ⟨-, cues, calls, hstage⟩ := h w
    rw [hstage]
    rfl
  script n cues := passing_trails n fun _ => rfl
  begins n := .andThen (passing_trails n fun _ => rfl) (schedule_trails n)
  frame := frame_trails
  draws inner room e load _ hop args := noted_trails hP (Drawing.moves inner room e load hop args)
  ended load _ _ := note_trails hP load ⟨nofun, nofun⟩
  reloads := .same fun _ hw => hP .reload hw

end Moving

/-! ## §3. Breaking off -/

/-- Goes on unless the world is of a certain kind. -/
def stopWhen (stop : World → Bool) : Run Unit := do
  if stop (← get) then throw .endless

/-- Evaluation that is broken off after the first node that leaves a certain kind of world. -/
def evalUntil (stop : World → Bool) (rules : Rules) : (depth : Nat) → Evaluator
  | 0, _, _, _ => throw .tooDeep
  | depth + 1, room, e, node => do
    let d ← evalLayer rules (evalUntil stop rules depth) room e node
    stopWhen stop
    return d

theorem stopWhen_eq (stop : World → Bool) (w : World) :
    stopWhen stop w = if stop w then .error .endless w else .ok () w := by
  unfold stopWhen
  rw [Run.bind_of_ok (show (MonadState.get : Run World) w = .ok w w from rfl)]
  split <;> rfl

theorem stopWhen_reads (stop : World → Bool) : (stopWhen stop).Reads := by
  intro w
  rw [stopWhen_eq]
  split
  · exact .inr ⟨.endless, rfl⟩
  · exact .inl ⟨(), rfl⟩

/-- Evaluation that is never broken off. -/
theorem evalUntil_never (rules : Rules) (depth : Nat) :
    evalUntil (fun _ => false) rules depth = eval rules depth := by
  induction depth with
  | zero => rfl
  | succ depth ih =>
    funext room e node w
    show (evalLayer rules (evalUntil _ rules depth) room e node >>= fun d =>
      stopWhen _ >>= fun _ => pure d : Run Datum) w = evalLayer rules (eval rules depth) room e node w
    rw [ih]
    cases h : evalLayer rules (eval rules depth) room e node w with
    | ok d v =>
      rw [Run.bind_of_ok h]
      exact Run.bind_of_ok (stopWhen_eq _ v) _
    | error f v => exact Run.bind_of_error h _

/-- A run that stops goes no further than one that stops less often. -/
theorem stopWhen_trails {stop stop' : World → Bool} (h : ∀ w, stop' w = true → stop w = true) :
    Trails P (stopWhen stop) (stopWhen stop') := by
  have hafter := (stopWhen_reads stop').after
  refine ⟨fun w hw => (hafter w).symm ▸ hw, fun w => ?_⟩
  by_cases hstop : stop w = true
  · right
    refine ⟨.endless, w, ?_, fun hw => (hafter w).symm ▸ hw⟩
    rw [stopWhen_eq, if_pos hstop]
  · left
    rw [stopWhen_eq, stopWhen_eq, if_neg hstop, if_neg fun hstop' => hstop (h w hstop')]

/-- Evaluations are related if breaking them off is. -/
theorem Congruence.evalUntil (R : Congruence) {stop stop' : World → Bool}
    (h : R.Rel (stopWhen stop) (stopWhen stop')) {rules : Rules}
    (hlibraries : R.Admits rules.libraries) (depth : Nat) :
    R.Related (evalUntil stop rules depth) (evalUntil stop' rules depth) := by
  induction depth with
  | zero => exact fun _ _ _ => R.throw _
  | succ depth ih =>
    intro room e node
    -- a node inside may have been where the first evaluation was broken off, or this one is
    exact R.bind (layer ih hlibraries room e node) fun d => R.andThen h (R.pure d)

/-! ## §4. What a host has done -/

/-- Something that a host can have done. -/
inductive Task where
  /-- A program is run. -/
  | program (room : Room) (e : ScopeId) (text : String)
  /-- Statements from outside are run. -/
  | statements (room : Room) (e : ScopeId) (tree : Value)
  /-- A single node is evaluated. -/
  | node (room : Room) (e : ScopeId) (v : Value)
  /-- A function of the language or of the drawing library is called from outside. -/
  | call (room : Room) (e : ScopeId) (fn : Native) (args : List Value)
  /-- A key, a click or a frame comes to a window. -/
  | cue (room : Room) (window : Nat) (c : Stage.Cue)
  /-- It is decided what will happen in a window's next main loop. -/
  | script (window : Nat) (cues : List Stage.Cue)
  /-- The library with a given text is loaded. -/
  | library (text : String)
  /-- A scope is made. -/
  | scope (room : Room) (parent : Option ScopeId)
  /-- An add-on is registered. -/
  | addon (key v : Value)
  /-- A scope is merged into another one. -/
  | merge (e other : ScopeId) (all : Bool)
  /-- Anything happens outside of the stage; on the stage, the log may be cleared, and it may be decided
      what happens to new windows. -/
  | aside (change : World → World)

/-- Does a task, with a given evaluator. -/
def Task.run (rules : Rules) (inner : Evaluator) : Task → Run Unit
  | .program room e text => do let _ ← runText inner room e text
  | .statements room e tree => do let _ ← evalItems inner room e tree
  | .node room e v => do let _ ← inner room e v
  | .call room e fn args => do let _ ← fn.apply rules inner room e args
  | .cue room window c => Stage.play inner room window c
  | .script window cues => setScript window cues
  | .library text => Library.load rules.libraries text
  | .scope room parent => do let _ ← makeScope rules room parent
  | .addon key v => register key v
  | .merge e other all => Scrawl.merge e other all
  | .aside change => modify fun w => { change w with
      stage := { w.stage with
        cues := (change w).stage.cues
        calls := (change w).stage.calls } }

/-- The world that a task leaves behind, if its evaluations are broken off after the first node that
    leaves a certain kind of world. -/
def Task.until (task : Task) (stop : World → Bool) (rules : Rules) (depth : Nat) (w : World) : World :=
  (task.run rules (evalUntil stop rules depth)).after w

/-- A host has had something done, to the end, up to a fault or up to where it was broken off.  Windows
    and sprites are the business of the drawing library alone: other libraries leave the stage alone. -/
def Proceeds (w w' : World) : Prop :=
  ∃ (task : Task) (stop : World → Bool) (rules : Rules) (depth : Nat),
    rules.libraries.Leave World.stage ∧ w' = task.until stop rules depth w

/-- A host has had any number of things done, one after the other. -/
abbrev Course : World → World → Prop := Relation.ReflTransGen Proceeds

/-- Two moments of what happens from `start` on: the first is one at which a task can be broken off, and
    the second comes later during that task, or after any number of further ones. -/
inductive Moments (start : World) : World → World → Prop
  /-- The task that is being done at the first moment goes on for a while, and then others are done. -/
  | during {u later : World} (h : Course start u) (task : Task) (stop stop' : World → Bool)
      (hstop : ∀ w, stop' w = true → stop w = true) {rules : Rules}
      (hlibraries : rules.libraries.Leave World.stage) (depth : Nat)
      (hlater : Course (task.until stop' rules depth u) later) :
      Moments start (task.until stop rules depth u) later

/-- A task is related to itself with related evaluators inside, if things that happen outside of the
    stage are. -/
theorem Congruence.task {R : Congruence} {inner inner' : Evaluator} (hinner : R.Related inner inner')
    {rules : Rules} (hlibraries : R.Admits rules.libraries)
    (haside : ∀ change,
      R.Rel ((Task.aside change).run rules inner) ((Task.aside change).run rules inner'))
    (task : Task) : R.Rel (task.run rules inner) (task.run rules inner') := by
  cases task with
  | program room e source => exact R.bind (text hinner room e source) fun _ => R.pure _
  | statements room e tree => exact R.bind (items hinner room e tree) fun _ => R.pure _
  | node room e v => exact R.bind (hinner room e v) fun _ => R.pure _
  | call room e fn args => exact R.bind (apply hinner room e hlibraries fn args) fun _ => R.pure _
  | cue room window c => exact play hinner room window c
  | script window cues => exact R.script window cues
  | library source => exact R.load hlibraries source
  | scope room parent => exact R.bind (R.makeScope rules room parent) fun _ => R.pure _
  | addon key v => exact R.register key v
  | merge e other all => exact R.merge e other all
  | aside change => exact haside change

section Tasks

variable (hP : ∀ {s s' : Stage}, Stage.Move s s' → P s → P s')
include hP

/-- Libraries that leave the stage alone. -/
theorem trailing_admits {libraries : Libraries} (h : libraries.Leave World.stage) :
    (trailing hP).Admits libraries := by
  refine fun text => .same fun w hw => ?_
  rw [h text w]
  exact hw

/-- A task trails the same one broken off later. -/
theorem Task.trails {stop stop' : World → Bool} (h : ∀ w, stop' w = true → stop w = true)
    {rules : Rules} (hlibraries : rules.libraries.Leave World.stage) (depth : Nat) (task : Task) :
    Trails P (task.run rules (evalUntil stop rules depth))
      (task.run rules (evalUntil stop' rules depth)) :=
  have hadmits := trailing_admits hP hlibraries
  Congruence.task ((trailing hP).evalUntil (stopWhen_trails h) hadmits depth) hadmits
    (fun _ => .modifies fun _ => rfl) task

/-- **What every move keeps holds for ever.** -/
theorem Course.keeps {w later : World} (h : Course w later) (hw : P w.stage.lasting) :
    P later.stage.lasting := by
  induction h with
  | refl => exact hw
  | tail _ hproceeds ih =>
    obtain ⟨task, stop, rules, depth, hlibraries, rfl⟩ := hproceeds
    exact (task.trails hP (fun _ => id) hlibraries depth).keeps _ ih

/-- What every move keeps is kept from one moment to a later one. -/
theorem Moments.keeps {start w later : World} (h : Moments start w later) :
    (P start.stage.lasting → P w.stage.lasting) ∧ (P w.stage.lasting → P later.stage.lasting) := by
  cases h with
  | @during u _ hstart task _ _ hstop _ hlibraries depth hlater =>
    constructor
    · intro hP'
      exact (task.trails hP (fun _ => id) hlibraries depth).keeps _ (hstart.keeps hP hP')
    · intro hw
      refine hlater.keeps hP ?_
      have htrails := task.trails hP hstop hlibraries depth
      -- what has not been broken off yet is the same task
      unfold Task.until Run.after at hw ⊢
      rcases htrails.broken u with hsame | ⟨f, v, hbroken, hgoes⟩
      · rw [hsame] at hw
        exact hw
      · rw [hbroken] at hw
        exact hgoes hw

end Tasks

end Scrawl
