/-
  Scrawl.Proofs.Eval.Circulation — the values that programs come across.

  Running program texts and letting things happen to windows binds, gives back and hands on values of
  a few shapes only (`programs_circulate`): in the worlds that come about, while a program runs, and in
  calls of functions of the language.  In particular no name is ever bound to nothing at all, so a name
  counts as undefined exactly where no scope around owns it.
-/

import Scrawl.Proofs.Eval.Shaping
import Scrawl.Proofs.Room

namespace Scrawl

open Grammar (Program Tree)

/-! ## §1. Results -/

/-- Every value of a variable has one of the shapes. -/
def World.Shaped (w : World) : Prop :=
  ∀ e n d, w.forest.own? e n = some d → d.value.Shaped w.forest.size

open Classical in
/-- Gives a result on, or raises the alarm if it or the value of a variable has none of the shapes of
    values then and there. -/
noncomputable def watch (alarm : Fault) (d : Datum) : Run Datum := do
  let w ← get
  if d.value.Shaped w.forest.size ∧ w.Shaped then return d else throw alarm

/-- Evaluation with a watch on every result and the world that it comes up in, however deeply
    nested. -/
noncomputable def watched (rules : Rules) (alarm : Fault) : (depth : Nat) → Evaluator
  | 0, _, _, _ => throw .tooDeep
  | depth + 1, room, e, node =>
    evalLayer rules (watched rules alarm depth) room e node >>= watch alarm

section Watch

variable {rules : Rules} (hself : rules.Differ rules Eq fun _ _ => False) (alarm : Fault)

theorem watch_lockstep {n : Value} {k : Forest} {d d' : Datum}
    (hd : (shapingInvariant hself).simulation.result n k d d') :
    (shapingInvariant hself).comparison.Lockstep k ((shapingInvariant hself).simulation.result n)
      (watch alarm d) (pure d') := by
  intro w w' hw hk
  have hresult : d.value.Shaped w.forest.size :=
    (Value.shaped_iff.2 hd.1.1.2).mono (Forest.size_le_of_le hk)
  have hworld : w.Shaped := fun _ _ _ hown => hw.2.bindings hown
  have hwatch : watch alarm d w = .ok d w := by
    classical
    show (if d.value.Shaped w.forest.size ∧ w.Shaped then pure d else throw alarm : Run Datum) w = _
    rw [if_pos ⟨hresult, hworld⟩]
    rfl
  rw [hwatch]
  exact .ok hw le_rfl ⟨(shapingInvariant hself).simulation.datum_mono hk hd.1, hd.2⟩

/-- The alarm is never raised, to whichever depth. -/
theorem watched_lockstep (depth : Nat) :
    (shapingInvariant hself).simulation.Evaluates (watched rules alarm depth) (eval rules depth) := by
  -- one layer of evaluation is in lockstep if what it calls is, and its result passes the watch
  induction depth with
  | zero => exact fun _ _ _ _ _ _ _ => .throw rfl
  | succ depth ih =>
    intro k room e n n' he hn
    have htells := Simulation.Cover.tells (shaping_cover hself) (fun _ => ih) ()
    have hlayer := (shapingInvariant hself).simulation.evalLayer_lockstep ih htells k room e n n' he hn
    have hwatched := hlayer.bind fun _ _ _ _ hd => watch_lockstep hself alarm hd
    -- on the other side nothing follows the layer
    rw [bind_pure] at hwatched
    exact hwatched

end Watch

/-! ## §2. Arguments -/

open Classical in
/-- Tells one action from all others. -/
noncomputable def Action.only (action : Action) (a : Action) : Bool := decide (a = action)

theorem Action.only_self (action : Action) : action.only action = true := by
  classical
  exact decide_eq_true rfl

theorem Action.only_of_ne {action a : Action} (h : a ≠ action) : action.only a = false := by
  classical
  exact decide_eq_false h

/-- A run comes to take an action, in a world that it has brought about by then: whatever the fault
    with which the action is refused, that is where the run ends. -/
def Takes {α : Type} (action : Action) (rules : Rules) (run : Rules → Run α) (w w' : World) : Prop :=
  ∀ f, run (rules.refusing action.only f) w = .error f w'

/-- Runs that go the same way up to where an action is refused avoid it or take it. -/
theorem avoids_or_takes {α : Type} {action : Action} {rules : Rules} {run : Rules → Run α}
    {w : World}
    (hplain : ∀ f, run rules w = run (rules.refusing action.only f) w ∨
      ∃ w', run (rules.refusing action.only f) w = .error f w')
    (hpair : ∀ f g,
      run (rules.refusing action.only f) w = run (rules.refusing action.only g) w ∨
        ∃ w', run (rules.refusing action.only f) w = .error f w' ∧
          run (rules.refusing action.only g) w = .error g w') :
    Avoids action.only rules run w ∨ ∃ w', Takes action rules run w w' := by
  rcases hpair .endless .tooDeep with hsame | ⟨w', hfirst, hsecond⟩
  · -- no run ends with two faults, so neither of these two has been refused anything
    have hrun : run rules w = run (rules.refusing action.only .endless) w := by
      rcases hplain .endless with hrun | ⟨_, hfirst⟩
      · exact hrun
      · rcases hplain .tooDeep with hrun | ⟨_, hsecond⟩
        · exact hrun.trans hsame.symm
        · exact nomatch (hfirst.symm.trans hsame).trans hsecond
    refine .inl fun g => ?_
    rcases hpair .endless g with hg | ⟨_, hfirst, -⟩
    · exact hg.symm.trans hrun.symm
    · rcases hpair .tooDeep g with hg | ⟨_, hsecond, -⟩
      · exact hg.symm.trans (hsame.symm.trans hrun.symm)
      · exact nomatch (hfirst.symm.trans hsame).trans hsecond
  · refine .inr ⟨w', fun g => ?_⟩
    -- whichever fault it is, it differs from one of the two
    rcases hpair .endless g with hg | ⟨_, hfirst', hg⟩
    · rcases hpair .tooDeep g with hg' | ⟨_, hsecond', hg'⟩
      · exact nomatch (hfirst.symm.trans (hg.trans hg'.symm)).trans hsecond
      · cases hsecond.symm.trans hsecond'
        exact hg'
    · cases hfirst.symm.trans hfirst'
      exact hg

section Arguments

variable {rules : Rules} (h : ∀ action, rules.refuses action = none)
  (hlibraries : rules.libraries.Inert) (fn : Native) (args : List Value)

include h in
theorem Rules.refusing_of_ne {action action' : Action} (hne : action' ≠ action) (f : Fault) :
    (rules.refusing action.only f).refuses action' = none := by
  show (if action.only action' = true then some f else rules.refuses action') = none
  rw [Action.only_of_ne hne, h]
  rfl

theorem Rules.refusing_self (action : Action) (f : Fault) :
    (rules.refusing action.only f).refuses action = some f :=
  if_pos action.only_self

include h hlibraries in
/-- Rules that refuse a single call, and others that refuse no more than that. -/
theorem Rules.differ_refusing {rules' : Rules} {f : Fault} {fault : Fault → Fault → Prop}
    {escapes : World → Fault → Prop} (hfault : ∀ f, fault f f)
    (hrounds : rules'.rounds = rules.rounds) (hrestores : rules'.restores = rules.restores)
    (hsame : rules'.libraries = rules.libraries)
    (hothers : ∀ action, action ≠ .call fn args → rules'.refuses action = none)
    (hstops : ∀ k : Forest, (∀ a ∈ args, a.Shaped k.size) →
      (shaping (rules.refusing (Action.call fn args).only f) rules' fault escapes).stops k
        (.call fn args)) :
    (rules.refusing (Action.call fn args).only f).Differ rules' fault escapes where
  fault_refl := hfault
  rounds := hrounds
  restores := hrestores
  libraries := hsame
  inert := hlibraries
  calls k fn' args' hshaped := by
    by_cases heq : Action.call fn' args' = .call fn args
    · cases heq
      exact .inl (hstops k hshaped)
    · exact .inr ⟨Rules.refusing_of_ne h heq f, hothers _ heq⟩
  files text := by
    have hsource : Action.source text ≠ .call fn args := nofun
    have hload : Action.load text ≠ .call fn args := nofun
    exact ⟨⟨Rules.refusing_of_ne h hsource f, hothers _ hsource⟩, Rules.refusing_of_ne h hload f,
      hothers _ hload⟩
  draws := by
    -- at most one of two calls is the one refused
    by_cases heq : Action.call (.drawing 0 .create) [] = .call fn args
    · have hne : Action.call (.drawing 0 .create) [.nil] ≠ .call fn args := by
        rw [← heq]
        exact nofun
      exact ⟨0, .create, [.nil], Rules.refusing_of_ne h hne f⟩
    · exact ⟨0, .create, [], Rules.refusing_of_ne h heq f⟩

variable {fn args} {w : World} (hw : w.WellShaped) {a : Activity} (ha : a.Possible w.forest)
  (depth : Nat) (room : Room)
include h hlibraries hw ha

/-- An activity goes on as usual unless the call is refused. -/
theorem perform_refusing (f : Fault) :
    a.perform (eval rules depth) room w
        = a.perform (eval (rules.refusing (Action.call fn args).only f) depth) room w ∨
      ∃ w', a.perform (eval (rules.refusing (Action.call fn args).only f) depth) room w
        = .error f w' := by
  have hdiffer : (rules.refusing (Action.call fn args).only f).Differ rules Eq fun _ g => g = f :=
    Rules.differ_refusing h hlibraries fn args (fun _ => rfl) rfl rfl rfl (fun action _ => h action)
      fun _ _ => .leaves (Rules.refusing_self _ f) fun _ _ _ _ => rfl
  rcases (shapingInvariant hdiffer).outcome (fun _ _ hfault => hfault.symm)
    (Activity.eval_lockstep hdiffer ha room depth) (fun _ _ _ _ => rfl) hw le_rfl with
    ⟨g, w', hw', hg⟩ | ⟨hsame, -⟩
  · obtain rfl : g = f := hg
    exact .inr ⟨w', hw'⟩
  · exact .inl hsame

/-- Refused with one fault or the other, an activity ends in the same world if it ends there. -/
theorem perform_refusing_pair (f g : Fault) :
    a.perform (eval (rules.refusing (Action.call fn args).only f) depth) room w
        = a.perform (eval (rules.refusing (Action.call fn args).only g) depth) room w ∨
      ∃ w', a.perform (eval (rules.refusing (Action.call fn args).only f) depth) room w
          = .error f w' ∧
        a.perform (eval (rules.refusing (Action.call fn args).only g) depth) room w
          = .error g w' := by
  have hdiffer : (rules.refusing (Action.call fn args).only f).Differ
      (rules.refusing (Action.call fn args).only g) (fun f' g' => f' = g' ∨ f' = f ∧ g' = g)
      fun _ _ => False :=
    Rules.differ_refusing h hlibraries fn args (fun _ => .inl rfl) rfl rfl rfl
      (fun _ hne => Rules.refusing_of_ne h hne g)
      fun _ _ => .together (Rules.refusing_self _ f) (Rules.refusing_self _ g) (.inr ⟨rfl, rfl⟩)
  have hagrees := Activity.eval_lockstep hdiffer ha room depth w w ⟨rfl, hw⟩ le_rfl
  generalize a.perform (eval (rules.refusing (Action.call fn args).only f) depth) room w = r
    at hagrees
  generalize a.perform (eval (rules.refusing (Action.call fn args).only g) depth) room w = r'
    at hagrees
  cases hagrees with
  | ok hw' _ _ => exact .inl (congrArg _ hw'.1)
  | error hw' _ hfault =>
    obtain ⟨rfl, -⟩ := hw'
    rcases hfault with rfl | ⟨rfl, rfl⟩
    · exact .inl rfl
    · exact .inr ⟨_, rfl, rfl⟩
  | escape hescape => exact hescape.elim

/-- The arguments with which a function of the language is called have shapes. -/
theorem shaped_of_takes {w' : World}
    (htakes : Takes (.call fn args) rules (fun rules => a.perform (eval rules depth) room) w w') :
    ∀ v ∈ args, v.Shaped w'.forest.size := by
  have hdiffer : (rules.refusing (Action.call fn args).only .endless).Differ
      (rules.refusing (Action.call fn args).only .tooDeep) Eq
      fun w _ => ∀ a ∈ args, a.Shaped w.forest.size :=
    Rules.differ_refusing h hlibraries fn args (fun _ => rfl) rfl rfl rfl
      (fun _ hne => Rules.refusing_of_ne h hne .tooDeep)
      fun _ hshaped => .leaves (Rules.refusing_self _ .endless) fun _ _ _ hk a ha =>
        (hshaped a ha).mono (Forest.size_le_of_le hk)
  have hagrees := Activity.eval_lockstep hdiffer ha room depth w w ⟨rfl, hw⟩ le_rfl
  have hfirst := htakes .endless
  have hsecond := htakes .tooDeep
  dsimp only at hfirst hsecond
  rw [hfirst, hsecond] at hagrees
  -- the two runs end with different faults, so the first one left the comparison
  cases hagrees with
  | error _ _ hfault => exact nomatch (hfault : Fault.endless = .tooDeep)
  | escape hescape => exact hescape

end Arguments

/-! ## §3. Undefined names -/

theorem lookup_run (room : Room) (e : ScopeId) (n : Name) (w : World) :
    lookup room e n w
      = if room.holds (w.forest.visits e n) then .ok (w.forest.get? e n) w
        else .error .tooDeep w := by
  show EStateM.bind (liftM (room.descend (w.forest.visits e n))) _ w = _
  unfold Room.descend
  cases room.holds (w.forest.visits e n) with
  | false => rfl
  | true => rfl

/-- How a name is evaluated: with enough room to look for it, it gives its value, or counts as
    undefined if it has none or is bound to nothing at all. -/
theorem eval_symbol (rules : Rules) (depth : Nat) (room : Room) (e : ScopeId) (name : String)
    (w : World) :
    eval rules (depth + 1) room e (.symbolNode (.text name)) w
      = if room.holds (1 + w.forest.visits e (.text name)) then
          match w.forest.get? e (.text name) with
          | some d => if d.value.isNil then .error (.undefinedSymbol name) w else .ok d w
          | none => .error (.undefinedSymbol name) w
        else .error .tooDeep w := by
  -- the name is looked for one level further down
  rw [Room.holds_add]
  show evalLayer rules _ room e (.symbolNode (.text name)) w = _
  unfold evalLayer Room.descend
  cases room.holds 1 with
  | false => rfl
  | true =>
    show EStateM.bind (lookup (room.below 1) e (.text name)) _ w = _
    unfold EStateM.bind
    rw [lookup_run]
    cases (room.below 1).holds (w.forest.visits e (.text name)) with
    | false => rfl
    | true =>
      cases w.forest.get? e (.text name) with
      | none => rfl
      | some d =>
        show (if d.value.isNil = true then _ else _ : Run Datum) w
          = if d.value.isNil = true then _ else _
        cases d.value.isNil with
        | false => rfl
        | true => rfl

/-- No value of a program is nothing at all. -/
theorem Value.Shaped.isNil_eq {k : Nat} {v : Value} (h : v.Shaped k) : v.isNil = false := by
  cases h <;> rfl

/-- Where all values have shapes, a name counts as undefined exactly if no scope around owns it. -/
theorem World.WellShaped.undefined_iff {w : World} (hw : w.WellShaped) (rules : Rules) (depth : Nat)
    (room : Room) (e : ScopeId) (name : String) :
    (∃ w', eval rules (depth + 1) room e (.symbolNode (.text name)) w
        = .error (.undefinedSymbol name) w') ↔
      room.holds (1 + w.forest.visits e (.text name)) = true ∧
        ∀ x ∈ w.forest.chain e, w.forest.owns x (.text name) = false := by
  rw [eval_symbol, ← Forest.get?_eq_none]
  cases room.holds (1 + w.forest.visits e (.text name)) with
  | false => simp
  | true =>
    cases hd : w.forest.get? e (.text name) with
    | none => simp
    | some d => simp [(hw.get? hd).isNil_eq]

/-! ## §4. Worlds of programs -/

/-- What holds of the values in a world, and of those that come up as programs go on in it. -/
structure World.Circulation (w : World) : Prop where
  /-- Every value of a variable has one of the shapes. -/
  bindings : w.Shaped
  /-- No variable is bound to nothing at all. -/
  bound : ∀ e n d, w.forest.own? e n = some d → d.value.isNil = false
  /-- What an expression evaluates to has one of the shapes. -/
  expressions : ∀ {libraries : Libraries}, libraries.Inert → ∀ rounds depth room e (t : Tree),
    e < w.forest.size → t.Grammatical .expression →
    ∀ d w', eval { rounds, restores := true, libraries } depth room e t.toValue w = .ok d w' →
      d.value.Shaped w'.forest.size
  /-- So has every result that comes up on the way, and every value of a variable by then: a watch on
      all of them makes no difference, whichever fault it would raise. -/
  results : ∀ {libraries : Libraries}, libraries.Inert → ∀ rounds depth room (a : Activity),
    a.Possible w.forest → ∀ alarm,
    a.perform (watched { rounds, restores := true, libraries } alarm depth) room w
      = a.perform (eval { rounds, restores := true, libraries } depth) room w
  /-- A function of the language is not called with given arguments at all, or is called with them in
      a world in which they all have one of the shapes. -/
  arguments : ∀ {libraries : Libraries}, libraries.Inert → ∀ rounds depth room (a : Activity),
    a.Possible w.forest → ∀ fn args,
    Avoids (Action.call fn args).only { rounds, restores := true, libraries }
        (fun rules => a.perform (eval rules depth) room) w ∨
      ∃ w', Takes (.call fn args) { rounds, restores := true, libraries }
          (fun rules => a.perform (eval rules depth) room) w w' ∧
        ∀ v ∈ args, v.Shaped w'.forest.size
  /-- Given the room to look for it, a name counts as undefined exactly if no scope around owns
      it. -/
  undefined : ∀ libraries rounds depth room e name,
    (∃ w', eval { rounds, restores := true, libraries } (depth + 1) room e
        (.symbolNode (.text name)) w = .error (.undefinedSymbol name) w') ↔
      room.holds (1 + w.forest.visits e (.text name)) = true ∧
        ∀ x ∈ w.forest.chain e, w.forest.owns x (.text name) = false

/-- The value of an expression. -/
theorem World.WellShaped.shaped_of_eval {w w' : World} (hw : w.WellShaped) {rules : Rules}
    (hself : rules.Differ rules Eq fun _ _ => False) {depth : Nat} {room : Room} {e : ScopeId}
    (he : e < w.forest.size) {t : Tree} (ht : t.Grammatical .expression) {d : Datum}
    (hd : eval rules depth room e t.toValue w = .ok d w') : d.value.Shaped w'.forest.size := by
  have hagrees := (shaping_cover hself).eval_lockstep () depth room he ⟨_, Twin.tree ht⟩ w w
    ⟨rfl, hw⟩ le_rfl
  have hrun : eval (shapingInvariant hself).rules depth room e t.toValue w = .ok d w' := hd
  have hrun' : eval (shapingInvariant hself).rules' depth room e t.toValue w = .ok d w' := hd
  rw [hrun, hrun'] at hagrees
  cases hagrees with
  | ok _ _ hpasses => exact Value.shaped_iff.2 hpasses.1.2

/-- **The values that programs come across.**  Start without scopes, make scopes, run whatever texts
    in them, and let whatever happen to windows, each to the end or up to a fault.  Then every value
    bound, every result of evaluation and every argument of a function of the language is a number, a
    string, a bare text, nothing, what drawing functions give back, a function of the language, or a
    function of a program, which has names for parameters, expressions for a body and remembers a
    scope that exists.  A name counts as undefined exactly if no scope around owns it.  Programs may
    load the drawing library, and others that do nothing but succeed or fail. -/
theorem programs_circulate {scopeText : String} {files : FileTree} {cues : List Stage.Cue}
    {w : World} (h : Relation.ReflTransGen ProgramStep (World.empty scopeText files cues) w) :
    w.Circulation := by
  have hw : w.WellShaped := World.wellShaped_of_programs h
  constructor
  case bindings =>
    intro e n d hd
    exact hw.bindings hd
  case bound =>
    intro e n d hd
    exact (hw.bindings hd).isNil_eq
  case expressions =>
    intro libraries hlibraries rounds depth room e t he ht d w' hd
    exact hw.shaped_of_eval (Rules.differ_self (fun _ => rfl) hlibraries) he ht hd
  case results =>
    intro libraries hlibraries rounds depth room a ha alarm
    have hself : Rules.Differ { rounds, restores := true, libraries } _ Eq fun _ _ => False :=
      Rules.differ_self (fun _ => rfl) hlibraries
    have hlockstep := a.perform_lockstep _ ha room (watched_lockstep hself alarm depth)
    exact (wellShaped_outcome (fun _ _ _ _ => rfl) hlockstep hw).1.symm
  case arguments =>
    intro libraries hlibraries rounds depth room a ha fn args
    have hrefuses : ∀ action, Rules.refuses { rounds, restores := true, libraries } action = none :=
      fun _ => rfl
    have hcases : Avoids (Action.call fn args).only { rounds, restores := true, libraries }
          (fun rules => a.perform (eval rules depth) room) w ∨
        ∃ w', Takes (.call fn args) { rounds, restores := true, libraries }
          (fun rules => a.perform (eval rules depth) room) w w' :=
      avoids_or_takes (perform_refusing hrefuses hlibraries hw ha depth room)
        (perform_refusing_pair hrefuses hlibraries hw ha depth room)
    rcases hcases with havoids | ⟨w', htakes⟩
    · exact .inl havoids
    · exact .inr ⟨w', htakes, shaped_of_takes hrefuses hlibraries hw ha depth room htakes⟩
  case undefined =>
    intro libraries rounds depth room e name
    exact hw.undefined_iff _ depth room e name

/-- A program that adds a function to itself: what comes out is a number made from its parameter
    list, twice. -/
def doublingSource : String := "f = \x7b : ( a ) a ; \x7d ; g = f + f ;"

/-- Its statements. -/
def doublingStatements : List Tree :=
  [.assignment (.text "f") (some (.function [.text "a"] [.symbol (.text "a")])),
    .assignment (.text "g")
      (some (.operation (.text "+") (some (.symbol (.text "f"))) (some (.symbol (.text "f")))))]

theorem doublingSource_read :
    Program.ofText grammarDepth doublingSource = ⟨doublingStatements, none⟩ := by
  cbv

/-- A world with one scope, for programs to run in. -/
def programWorld : World :=
  (makeScope { rounds := 1, restores := true, libraries := .idle } .unlimited none).after
    (World.empty "" ⟨[]⟩ [])

/-- The world after that program. -/
def doublingWorld : World :=
  ((Activity.run 0 doublingSource).perform
    (eval { rounds := 1, restores := true, libraries := .idle } 12) .unlimited).after programWorld

/-- The program has bound what it has made. -/
theorem doublingWorld_owns : doublingWorld.forest.owns 0 (.text "g") = true := by
  unfold doublingWorld Activity.perform
  dsimp only
  rw [runText_eq_evalItems _ 0 rfl (by rw [doublingSource_read]), doublingSource_read]
  decide +kernel

theorem doublingWorld_circulates :
    Relation.ReflTransGen ProgramStep (World.empty "" ⟨[]⟩ []) doublingWorld ∧
      ∃ d, doublingWorld.forest.own? 0 (.text "g") = some d ∧
        d.value.Shaped doublingWorld.forest.size := by
  have hpossible : (Activity.run 0 doublingSource).Possible programWorld.forest := by
    show 0 < programWorld.forest.size
    decide +kernel
  have hreached : Relation.ReflTransGen ProgramStep (World.empty "" ⟨[]⟩ []) doublingWorld :=
    .tail (.single (.makeScope 1 .idle .unlimited none nofun))
      (.perform 1 12 Libraries.idle_inert .unlimited hpossible)
  obtain ⟨d, hd⟩ := Option.isSome_iff_exists.1 doublingWorld_owns
  exact ⟨hreached, d, hd, (programs_circulate hreached).bindings 0 _ d hd⟩

end Scrawl
