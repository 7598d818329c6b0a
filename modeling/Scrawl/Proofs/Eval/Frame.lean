/-
  Scrawl.Proofs.Eval.Frame — what evaluation leaves alone.

  From a scope, evaluation gets to the scopes around it and to those that functions remember which
  it finds there, and so on (`Forest.Reaches`).  A run that has nothing to do with libraries changes
  no other scope that was there before (`evaluation_frame`).  As functions stay under the outermost
  scope under which they were made, it changes nothing under any other outermost scope.
-/

import Scrawl.Proofs.Eval.Reachable

namespace Scrawl

open Grammar (Program Tree)

/-! ## §1. Scopes within reach -/

/-- A scope can be reached from another one: it is that one, the parent of one that can be reached,
    or remembered by a function that is bound in one that can be reached. -/
inductive Forest.Reaches (f : Forest) (e : ScopeId) : ScopeId → Prop
  /-- The scope itself. -/
  | self : Reaches f e e
  /-- The parent of a scope. -/
  | parent {x p : ScopeId} (hx : Reaches f e x) (hp : f.parent? x = some (some p)) : Reaches f e p
  /-- The scope that a function remembers. -/
  | captured {x home : ScopeId} {n : Name} {d : Datum} {params body : Value} (hx : Reaches f e x)
      (hd : f.own? x n = some d) (hfn : d.value = .function params body home) : Reaches f e home

/-- Whatever can be reached from a scope lies under the same outermost scope. -/
theorem World.Rooted.under_of_reaches {w : World} (h : w.Rooted) {r e x : ScopeId}
    (he : w.forest.Under r e) (hx : w.forest.Reaches e x) : w.forest.Under r x := by
  -- parents lie under the same outermost scope, and so do the scopes that functions remember
  induction hx with
  | self => exact he
  | parent _ hp ih => exact Forest.Under.closedOutwards w.forest r _ _ ih hp
  | captured _ hd hfn ih =>
    have hcallable := h.kin hd ih
    rw [hfn] at hcallable
    obtain ⟨_, _, home, heq, hhome⟩ := hcallable rfl
    cases heq
    exact hhome

/-! ## §2. The frame -/

/-- Calls of functions that reach beyond scopes: those that load libraries, and all drawing
    functions. -/
def Action.usesLibrary : Action → Bool
  | .call .library _ => true
  | .call .libraryRaw _ => true
  | .call (.drawing _ _) _ => true
  | _ => false

/-- A world in which the scopes outside a set are as they were at the start, and from which
    evaluation in the set cannot get out of it. -/
structure World.Framed (start : Forest) (P : ScopeId → Prop) (w : World) : Prop where
  /-- Add-ons have names and are no functions of the program. -/
  addons : ∀ a ∈ w.addons, (∃ n, a.1.toName = .ok n) ∧ ∀ inside, a.2.Callable inside
  /-- No scope has been lost. -/
  grown : start.size ≤ w.forest.size
  /-- The scopes around one in the set are in the set. -/
  closed : w.forest.ClosedOutwards P
  /-- Functions that are bound in the set remember scopes in the set. -/
  bindings : ∀ {x n d}, P x → w.forest.own? x n = some d → d.value.Callable P
  /-- Nothing has happened outside. -/
  frame : ∀ {x}, ¬ P x → w.forest.scopes[x]? = start.scopes[x]?

namespace World.Framed

variable {start : Forest} {P : ScopeId → Prop} {w : World}

theorem set (h : w.Framed start P) {e : ScopeId} (he : P e) (key : Value) (n : Name) {d : Datum}
    (hd : d.value.Callable P) :
    World.Framed start P { w.noteSpelling e n key with forest := w.forest.set e n d } := by
  obtain ⟨spellings, hspellings⟩ := w.noteSpelling_eq e n key
  rw [hspellings]
  constructor
  case addons => exact h.addons
  case grown => exact (w.forest.size_set e n d).symm ▸ h.grown
  case closed => exact h.closed.congr fun x => w.forest.parent?_set e x n d
  case bindings =>
    intro x m d' hx hd'
    rcases w.forest.own?_set_cases hd' with rfl | hd'
    · exact hd
    · exact h.bindings hx hd'
  case frame =>
    intro x hx
    exact (h.closed.scopes_set he hx n d).trans (h.frame hx)

/-- Scopes made after the start are in the set. -/
theorem newScope (h : w.Framed start P) (hfresh : ∀ x, start.size ≤ x → P x) (rules : Rules)
    {p : ScopeId} (hp : P p) :
    World.Framed start P { w with forest := w.forest.newScope rules w.addons (some p) } := by
  have hparent : ∀ q, some p = some q → P q := fun q hq => Option.some.inj hq ▸ hp
  constructor
  case addons => exact h.addons
  case grown => exact Nat.le_trans h.grown (Nat.le_of_lt (w.forest.lt_size_newScope _ _ _))
  case closed => exact h.closed.newScope rules w.addons hparent
  case bindings =>
    intro x n d hx hd
    rcases w.forest.own?_newScope_cases rules w.addons hd with ⟨b, hb, rfl⟩ | hd
    · exact newBindings_callable (fun a ha => (h.addons a ha).2 P) hb
    · exact h.bindings hx hd
  case frame =>
    intro x hx
    have hnew : P w.forest.size := hfresh _ h.grown
    exact (h.closed.scopes_newScope rules w.addons hparent hnew hx).trans (h.frame hx)

end World.Framed

/-- Evaluation in a set of scopes, in a run that uses no library. -/
def framing (start : Forest) (P : ScopeId → Prop) (rounds : Nat) (libraries : Libraries) (f : Fault) :
    Condition where
  rules := Rules.refusing { rounds, restores := true, libraries } Action.usesLibrary f
  rules' := Rules.refusing { rounds, restores := true, libraries } Action.usesLibrary f
  escapes _ g := g = f
  world := World.Framed start P
  inside _ := P
  good _ := True
  assignable _ := True

section Rules

variable {start : Forest} {P : ScopeId → Prop} {rounds : Nat} {libraries : Libraries} {f : Fault}

theorem framing_not_draws : ¬ (framing start P rounds libraries f).rules.Draws :=
  fun ⟨_, _, _, h⟩ => nomatch h

theorem framing_not_loads : ¬ (framing start P rounds libraries f).rules.Loads := by
  rintro ⟨fn, args, rfl | rfl, h⟩
  · exact nomatch h
  · exact nomatch h

end Rules

/-- **Evaluation in a set of scopes stays in it**, if the set has all scopes that are made later. -/
def framingInvariant (start : Forest) {P : ScopeId → Prop} (hfresh : ∀ x, start.size ≤ x → P x)
    (rounds : Nat) (libraries : Libraries) (f : Fault) : Invariant where
  toCondition := framing start P rounds libraries f
  fault_refl _ := rfl
  rounds_eq := rfl
  closed := Condition.closed_of_all _ (fun _ => trivial) (fun _ => trivial) (fun _ => trivial)
    fun _ => trivial
  inside_mono _ he := he
  home_mono _ he := he
  home_inside he := he
  found hw he hd := by
    obtain ⟨x, hx, hown⟩ := hw.closed.get? he hd
    exact ⟨hw.bindings hx hown, trivial⟩
  nameable hw a ha := (hw.addons a ha).1
  homes hdraws := absurd hdraws framing_not_draws
  print _ hw := { hw with }
  stage _ hw _ := { hw with }
  set hw he _ _ hd := hw.set he _ _ hd.1
  scope hw hp := ⟨rfl, hw.newScope hfresh _ hp, hfresh _ hw.grown⟩
  calls k fn args _ := by
    cases huses : Action.usesLibrary (.call fn args) with
    | true => exact .inl (.leaves (if_pos huses) fun _ _ _ _ => rfl)
    | false =>
      have hnone : (framing start P rounds libraries f).rules.refuses (.call fn args) = none :=
        if_neg (by rw [huses]; exact Bool.false_ne_true)
      exact .inr ⟨hnone, hnone⟩
  source _ _ := .inr ⟨⟨rfl, rfl⟩, fun _ _ => trivial⟩
  load hloads := absurd hloads framing_not_loads

/-! ## §3. Evaluation in reachable worlds -/

/-- The scopes that evaluation may change: those that can be reached at the start, and new ones. -/
def Forest.Touches (start : Forest) (e x : ScopeId) : Prop := start.Reaches e x ∨ start.size ≤ x

theorem Forest.touches_of_size_le {start : Forest} {e : ScopeId} :
    ∀ x, start.size ≤ x → start.Touches e x :=
  fun _ hx => .inr hx

/-- At the start, evaluation cannot get to any other scope. -/
theorem World.Rooted.framed {w : World} (h : w.Rooted) (e : ScopeId) :
    w.Framed w.forest (w.forest.Touches e) := by
  constructor
  case addons => exact h.addons
  case grown => exact Nat.le_refl _
  case closed =>
    intro x p hx hp
    rcases hx with hx | hnew
    · exact .inl (hx.parent hp)
    · exact absurd (Forest.lt_size_of_parent? hp) (Nat.not_lt_of_le hnew)
  case bindings =>
    intro x n d hx hd
    rcases hx with hx | hnew
    · intro htag
      obtain ⟨params, body, home, hfn, -⟩ := h.bindings hd htag
      exact ⟨params, body, home, hfn, .inl (hx.captured hd hfn)⟩
    · exact absurd (Forest.lt_size_of_own? hd) (Nat.not_lt_of_le hnew)
  case frame => exact fun _ => rfl

/-- A run that uses no library, in lockstep with itself wherever it could use one, leaves alone what
    it cannot reach. -/
theorem frame_after {α : Type} {rounds : Nat} {libraries : Libraries} {run : Rules → Run α}
    {w : World} (hw : w.Rooted) {e : ScopeId} {A : Fault → Forest → α → α → Prop}
    (havoids : Avoids Action.usesLibrary { rounds, restores := true, libraries } run w)
    (h : ∀ f, (framing w.forest (w.forest.Touches e) rounds libraries f).comparison.Lockstep w.forest (A f)
      (run (framing w.forest (w.forest.Touches e) rounds libraries f).rules)
      (run (framing w.forest (w.forest.Touches e) rounds libraries f).rules))
    {x : ScopeId} (hx : x < w.forest.size) (hreaches : ¬ w.forest.Reaches e x) :
    ((run { rounds, restores := true, libraries }).after w).forest.scopes[x]? = w.forest.scopes[x]? := by
  have hframed : ((run { rounds, restores := true, libraries }).after w).Framed w.forest
      (w.forest.Touches e) := by
    -- the run avoids libraries, so refusing them with whatever fault changes nothing
    refine Run.holds_after (k := w.forest) (A := A) fun f => ?_
    have hagrees := h f w w ⟨rfl, hw.framed e⟩ le_rfl
    have hrun : run (framing w.forest (w.forest.Touches e) rounds libraries f).rules w
        = run { rounds, restores := true, libraries } w := havoids f
    rw [hrun] at hagrees
    exact hagrees
  have htouches : ¬ w.forest.Touches e x := fun h => h.elim hreaches (Nat.not_le_of_lt hx)
  exact hframed.frame htouches

/-- **What evaluation leaves alone.**  Take a world that a host can bring about, and any scope in it.
    Evaluate whatever node there, or run whatever text, in a run that calls no function that loads
    libraries and no drawing function, to the end or up to a fault.  Every scope that was there before
    and could not be reached at the start is left as it was.  So is every scope under an outermost
    scope other than the one under which the run takes place. -/
theorem evaluation_frame {scopeText : String} {files : FileTree} {cues : List Stage.Cue} {w : World}
    (h : Later (World.empty scopeText files cues) w) (rounds depth : Nat) (libraries : Libraries)
    (room : Room) (e : ScopeId) :
    (∀ node, Avoids Action.usesLibrary { rounds, restores := true, libraries }
        (fun rules => eval rules depth room e node) w →
      ∀ x < w.forest.size, ¬ w.forest.Reaches e x →
        ((eval { rounds, restores := true, libraries } depth room e node).after w).forest.scopes[x]?
          = w.forest.scopes[x]?) ∧
    ∀ text, Avoids Action.usesLibrary { rounds, restores := true, libraries }
        (fun rules => runText (eval rules depth) room e text) w →
      (∀ x < w.forest.size, ¬ w.forest.Reaches e x →
        ((runText (eval { rounds, restores := true, libraries } depth) room e text).after
          w).forest.scopes[x]? = w.forest.scopes[x]?) ∧
      ∀ r r' x, w.forest.Under r e → w.forest.Under r' x → r ≠ r' →
        ((runText (eval { rounds, restores := true, libraries } depth) room e text).after
          w).forest.scopes[x]? = w.forest.scopes[x]? := by
  obtain ⟨hrooted, -⟩ := h.evolves (World.rooted_empty scopeText files cues)
  have hcover : ∀ f, Invariant.Cover fun _ : Unit =>
      framingInvariant w.forest (P := w.forest.Touches e) Forest.touches_of_size_le rounds
        libraries f :=
    fun f => Invariant.cover_self _ id
  have hself : w.forest.Touches e e := .inl .self
  constructor
  · intro node havoids x hx hreaches
    exact frame_after hrooted havoids
      (fun f => (hcover f).eval_lockstep () depth room hself trivial) hx hreaches
  · intro text havoids
    have hframe : ∀ x < w.forest.size, ¬ w.forest.Reaches e x →
        ((runText (eval { rounds, restores := true, libraries } depth) room e text).after
          w).forest.scopes[x]? = w.forest.scopes[x]? := fun x hx hreaches =>
      frame_after hrooted havoids
        (fun f => (hcover f).runText_lockstep () depth room hself fun _ _ => trivial) hx hreaches
    refine ⟨hframe, fun r r' x he hx hne => hframe x hx.lt_size fun hreaches => hne ?_⟩
    exact (hrooted.under_of_reaches he hreaches).unique hx

/-- A world with two outermost scopes. -/
def twoRoots : World :=
  (makeScope .standard .unlimited none).after
    ((makeScope .standard .unlimited none).after (World.empty "" ⟨[]⟩ []))

/-- A program that makes a function and calls it, which sets a name in a scope of its own. -/
def callingSource : String := "f = \x7b : ( a ) b = a ; \x7d ; f ( 'x' ) ;"

/-- Its statements. -/
def callingStatements : List Tree :=
  [.assignment (.text "f") (some (.function [.text "a"]
      [.assignment (.text "b") (some (.symbol (.text "a")))])),
    .call (some (.symbol (.text "f"))) [.string (.text "x")]]

theorem callingSource_read :
    Program.ofText grammarDepth callingSource = ⟨callingStatements, none⟩ := by
  cbv

theorem twoRoots_later : Later (World.empty "" ⟨[]⟩ []) twoRoots :=
  .tail (.single (.makeScope _ _ .unlimited none nofun)) (.makeScope _ _ .unlimited none nofun)

theorem callingSource_avoids :
    Avoids Action.usesLibrary { rounds := 1, restores := true, libraries := .idle }
      (fun rules => runText (eval rules 12) .unlimited 0 callingSource) twoRoots := by
  obtain ⟨hrooted, -⟩ := twoRoots_later.evolves (World.rooted_empty "" ⟨[]⟩ [])
  refine avoids_runText (fun _ => rfl) Libraries.idle_inert hrooted (by decide +kernel)
    (f := .endless) fun w' => ?_
  rw [runText_eq_evalItems _ 0 rfl (by rw [callingSource_read]), callingSource_read]
  exact Run.ne_error_of_succeeds (by decide +kernel) _ w'

/-- Run under the first outermost scope, the program leaves the second one alone. -/
theorem twoRoots_frame :
    Later (World.empty "" ⟨[]⟩ []) twoRoots ∧
      Avoids Action.usesLibrary { rounds := 1, restores := true, libraries := .idle }
        (fun rules => runText (eval rules 12) .unlimited 0 callingSource) twoRoots ∧
      twoRoots.forest.Under 0 0 ∧ twoRoots.forest.Under 1 1 ∧
      ((runText (eval { rounds := 1, restores := true, libraries := .idle } 12) .unlimited 0
        callingSource).after twoRoots).forest.scopes[1]? = twoRoots.forest.scopes[1]? := by
  have hfirst : twoRoots.forest.Under 0 0 := .root (by decide +kernel)
  have hsecond : twoRoots.forest.Under 1 1 := .root (by decide +kernel)
  have hframe := (evaluation_frame twoRoots_later 1 12 .idle .unlimited 0).2 callingSource
    callingSource_avoids
  exact ⟨twoRoots_later, callingSource_avoids, hfirst, hsecond,
    hframe.2 0 1 1 hfirst hsecond (by decide)⟩

end Scrawl
