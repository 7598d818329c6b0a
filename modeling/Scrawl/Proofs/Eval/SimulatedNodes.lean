/-
  Scrawl.Proofs.Eval.SimulatedNodes — evaluation goes in lockstep.

  One lemma for each tag: a node with that tag goes in lockstep with a related one, over evaluators
  for what is nested in it that do.  Stacking layers gives `Simulation.eval_lockstep`.
-/

import Scrawl.Proofs.Eval.SimulatedNatives
import Scrawl.Proofs.Value.Tags

namespace Scrawl

open Comparison (Same Anything)

namespace Simulation

variable (s : Simulation) {inner inner' : Evaluator} {k : Forest} {e : ScopeId}

/-! ## §1. Calls -/

theorem checkArity_lockstep {c c' : Value} (h : s.node c c') (params args : Nat)
    (offset : Bool) :
    s.Lockstep k Anything (checkArity c params args offset) (checkArity c' params args offset) := by
  unfold checkArity
  cases wrongArity? params args offset with
  | none => exact .pure fun _ _ => trivial
  | some required =>
    -- the callees may be written differently, but one can be written if the other can
    have htext : s.Lockstep k (fun _ t t' => s.fault (.wrongArity args t required)
        (.wrongArity args t' required)) (plainText c) (plainText c') := by
      unfold plainText
      rw [s.node_writable h]
      cases c.isWritable with
      | false => exact s.throw_same _
      | true =>
        refine .get fun w w' hw _ => ?_
        rw [(s.world_same hw).2.2]
        exact .pure fun _ _ => s.node_arity h args w.scopeText required
    exact .bind htext fun _ _ _ _ hfault => .throw hfault

/-- Parameters are set in turn, each to its argument. -/
theorem bindParams_lockstep (room : Room) {args args' : List Datum} :
    ∀ {k : Forest} {params params' : List Value}, s.scope k e →
      List.Forall₂ (fun q q' => s.Matches s.target q.payload q'.payload) params params' →
      List.Forall₂ (s.datum k) args args' →
      s.Lockstep k Anything (bindParams room e (params.zip args))
        (bindParams room e (params'.zip args')) := by
  intro k params params' he hparams
  induction hparams generalizing k args args' with
  | nil => exact fun _ => .pure fun _ _ => trivial
  | cons hparam _ ih =>
    intro hargs
    cases hargs with
    -- parameters without arguments stay unset
    | nil => exact .pure fun _ _ => trivial
    | cons harg hargs =>
      refine .bind (.lift hparam) ?_
      rintro j hj key _ ⟨rfl, hkey⟩
      refine .andThen (s.assign_lockstep room (s.scope_mono hj he) hkey
        (s.datum_mono hj harg)) fun i hi => ?_
      have hki : k ≤ i := le_trans hj hi
      exact ih (s.scope_mono hki he) (hargs.imp fun _ _ => s.datum_mono hki)

theorem callFunction_lockstep (hinner : s.Evaluates inner inner') (room : Room)
    {c c' fn fn' : Value} {args args' : List Datum} (hc : s.node c c') (hfn : s.value k fn fn')
    (htag : fn.tag = .ok (.text "function")) (hargs : List.Forall₂ (s.datum k) args args') :
    s.Lockstep k s.datum (callFunction s.rules inner room c fn args)
      (callFunction s.rules' inner' room c' fn' args') := by
  obtain ⟨hparams, hbody, home, hhome, hhome', hremembered⟩ := s.value_function hfn htag
  unfold callFunction
  rw [hhome, hhome', hargs.length_eq]
  refine .bind (.lift hparams) fun i hi params params' hp => ?_
  refine .bind (.lift hp.1) fun j hj count _ hcount => ?_
  subst hcount
  refine .andThen (s.checkArity_lockstep hc _ _ _) fun l hl => ?_
  refine .bind (.lift hbody) fun m hm body body' hb => ?_
  have hkm : k ≤ m := by order
  -- the call is run in a scope inside the one that the function remembers
  show s.Lockstep m s.datum (makeScope s.rules room (some home) >>= _)
    (makeScope s.rules' room (some home) >>= _)
  refine .bind (s.makeScope_lockstep room (s.remembered_mono hkm hremembered)) ?_
  rintro n hn e _ ⟨rfl, he⟩
  refine .bind (.lift hp.2) fun o ho ps ps' hps => ?_
  have hko : k ≤ o := by order
  refine .andThen (s.bindParams_lockstep room (s.scope_mono ho he) hps
    (hargs.imp fun _ _ => s.datum_mono hko)) fun q hq => ?_
  exact s.evalItems_lockstep hinner (s.scope_mono (le_trans ho hq) he) room hb

theorem callNative_lockstep (hinner : s.Evaluates inner inner') (htells : s.Tells inner inner')
    (he : s.scope k e) (room : Room)
    {c c' fn fn' : Value} {args args' : List Datum} (hc : s.node c c') (hfn : s.value k fn fn')
    (htag : fn.tag = .ok (.text "native")) (hargs : List.Forall₂ (s.datum k) args args') :
    s.Lockstep k s.datum (callNative s.rules inner room e c fn args)
      (callNative s.rules' inner' room e c' fn' args') := by
  unfold callNative
  rw [hargs.length_eq]
  refine .bindSame (.lift (s.value_native hfn htag)) fun i hi target => ?_
  refine .bindSame (s.lift_same _) fun j hj native => ?_
  refine .andThen (s.checkArity_lockstep hc _ _ _) fun l hl => ?_
  have hkl : k ≤ l := by order
  have hvalues : List.Forall₂ (s.value l) (args.map (·.value)) (args'.map (·.value)) := by
    rw [List.forall₂_map_left_iff, List.forall₂_map_right_iff]
    exact hargs.imp fun _ _ h => (s.datum_mono hkl h).1
  -- either the evaluations stop here, or both go on
  refine .permit ((s.permits native hvalues).imp id fun ⟨hnone, hnone', hplain⟩ =>
    ⟨hnone, hnone', ?_⟩)
  refine .bindSame (s.lift_same _) fun m hm room' => ?_
  exact s.apply_lockstep hinner htells room' (s.scope_mono (by order : k ≤ m) he) native
    (hvalues.imp fun _ _ => s.value_mono hm) hnone hplain

/-- A call goes in lockstep with a related one. -/
theorem evalCall_lockstep (hinner : s.Evaluates inner inner') (htells : s.Tells inner inner')
    (he : s.scope k e) (room : Room) {n n' : Value} (h : s.node n n') (htag : n.tag = .ok (.text "call")) :
    s.Lockstep k s.datum (evalCall s.rules inner room e n)
      (evalCall s.rules' inner' room e n') := by
  obtain ⟨hcallee, hnodes⟩ := s.node_call h htag
  unfold evalCall
  refine .bindSame (s.lift_same _) fun i hi room' => ?_
  refine .bind (.lift hcallee) fun j hj c c' hc => ?_
  have hkj : k ≤ j := le_trans hi hj
  -- the callee comes first, then the arguments from left to right
  refine .bind (hinner j room' e c c' (s.scope_mono hkj he) hc) fun l hl d d' hd => ?_
  refine .bind (.lift hnodes) fun m hm b b' hb => ?_
  refine .bind (.lift hb) fun o ho ns ns' hns => ?_
  refine .bindSame (s.lift_same _) fun q hq argRoom => ?_
  have hkq : k ≤ q := by order
  have hargs : s.Lockstep q (fun j => List.Forall₂ (s.datum j)) (ns.mapM (inner argRoom e))
      (ns'.mapM (inner' argRoom e)) := by
    refine .mapM (B := s.datum) (fun _ _ _ _ => s.datum_mono) (fun x hx n n' hn => ?_) hns
    exact (hinner x argRoom e n n' (s.scope_mono (le_trans hkq hx) he) hn).weaken
      fun _ _ _ _ h => h.1
  refine .bind hargs fun x hx args args' hargs => ?_
  have hfn : s.value x d.value d'.value := s.value_mono (by order : l ≤ x) hd.1.1
  refine .bind (.lift (s.node_tag (s.node_value hfn)).known) ?_
  rintro y hy tag _ ⟨rfl, htag⟩
  have hfn := s.value_mono hy hfn
  have hargs := hargs.imp fun _ _ => s.datum_mono hy
  -- related values have the same tag, so both call a function of the same sort
  cases hfunction : tag.isText "function" with
  | true =>
    rw [Value.eq_of_isText hfunction] at htag
    exact s.callFunction_lockstep hinner room' hc hfn htag hargs
  | false =>
    cases hnative : tag.isText "native" with
    | true =>
      rw [Value.eq_of_isText hnative] at htag
      exact s.callNative_lockstep hinner htells (s.scope_mono (by order : k ≤ y) he) room' hc hfn
        htag hargs
    | false => exact s.throw_same _

/-! ## §2. Other nodes -/

theorem evalOperation_lockstep (hinner : s.Evaluates inner inner') (he : s.scope k e)
    (room : Room) {n n' : Value} (h : s.node n n') (htag : n.tag = .ok (.text "operation")) :
    s.Lockstep k s.datum (evalOperation inner room e n) (evalOperation inner' room e n') := by
  obtain ⟨hop, hleft, hright⟩ := s.node_operation h htag
  unfold evalOperation
  refine .bind (.lift hleft) fun i hi l l' hl => ?_
  refine .bind (hinner i room e l l' (s.scope_mono hi he) hl) fun j hj left left' hleft => ?_
  refine .bind (.lift hright) fun m hm r r' hr => ?_
  have hkm : k ≤ m := by order
  refine .bind (hinner m room e r r' (s.scope_mono hkm he) hr) fun o ho right right' hright => ?_
  refine .bindSame (.lift hop) fun q hq op => ?_
  cases happly : operator? op with
  | none => exact .bindSame (s.plainText_lockstep op) fun _ _ _ => s.throw_same _
  | some apply =>
    refine .bind (.lift (s.value_payload hleft.1.1)) fun _ _ p p' hp => ?_
    refine .bind (.lift (s.value_payload hright.1.1)) fun _ _ q q' hq => ?_
    refine .bind (.lift (s.value_operate happly hp hq)) fun _ _ a a' ha => ?_
    exact s.plain_lockstep ha

theorem evalSymbol_lockstep (he : s.scope k e) (room : Room) {n n' : Value} (h : s.node n n')
    (htag : n.tag = .ok (.text "symbol")) :
    s.Lockstep k s.datum (evalSymbol room e n) (evalSymbol room e n') := by
  unfold evalSymbol
  refine .bindSame (.lift (s.node_symbol h htag)) fun i hi name => ?_
  refine .bindSame (s.lift_same _) fun j hj key => ?_
  have hkj : k ≤ j := le_trans hi hj
  refine .bind (s.lookup_lockstep room key (s.scope_mono hkj he)) fun l hl d d' hd => ?_
  have hundefined : s.Lockstep l s.datum
      (do throw (.undefinedSymbol (← plainText name)))
      (do throw (.undefinedSymbol (← plainText name))) :=
    .bindSame (s.plainText_lockstep name) fun _ _ _ => s.throw_same _
  cases hd with
  | none => exact hundefined
  | some hd =>
    -- a variable that holds nothing at all counts as undefined
    dsimp only
    rw [s.value_isNil hd.1]
    split
    · exact hundefined
    · exact .pure fun _ hm => s.datum_mono hm hd

theorem evalAssignment_lockstep (hinner : s.Evaluates inner inner') (he : s.scope k e)
    (room : Room) {n n' : Value} (h : s.node n n') (htag : n.tag = .ok (.text "assignment")) :
    s.Lockstep k s.datum (evalAssignment inner room e n) (evalAssignment inner' room e n') := by
  obtain ⟨htarget, hvalue⟩ := s.node_assignment h htag
  unfold evalAssignment
  refine .bind (.lift htarget) fun i hi t t' ht => ?_
  refine .bind (.lift ht) ?_
  rintro j hj key _ ⟨rfl, hkey⟩
  refine .bind (.lift hvalue) fun l hl v v' hv => ?_
  have he := s.scope_mono (by order : k ≤ l) he
  refine .bind (hinner l room e v v' he hv) fun m hm d d' hd => ?_
  refine .andThen (s.assign_lockstep room (s.scope_mono hm he) hkey hd.1) fun o ho => ?_
  exact .pure fun _ hq => s.datum_mono (le_trans ho hq) hd.1

theorem evalFunction_lockstep (he : s.scope k e) (room : Room) {n n' : Value} (h : s.node n n')
    (htag : n.tag = .ok (.text "function")) :
    s.Lockstep k s.datum (evalFunction s.rules room e n) (evalFunction s.rules' room e n') := by
  unfold evalFunction
  refine .bind (.lift (s.node_function h htag)) fun i hi p p' hp => ?_
  refine .bind (.lift hp) fun j hj b b' hb => ?_
  have he := s.remembered_scope (s.scope_mono (le_trans hi hj) he)
  refine .bind (s.makeScope_lockstep room he) ?_
  rintro l hl home _ ⟨rfl, hhome⟩
  exact .pure fun m hm => ⟨hb m home (s.scope_mono hm hhome), rfl⟩

/-! ## §3. Evaluation -/

/-- **One layer.**  A node goes in lockstep with a related one if what is nested in it does. -/
theorem evalLayer_lockstep (hinner : s.Evaluates inner inner') (htells : s.Tells inner inner') :
    s.Evaluates (evalLayer s.rules inner) (evalLayer s.rules' inner') := by
  intro k room e n n' he h
  unfold evalLayer
  refine .bindSame (s.lift_same _) fun i hi room' => ?_
  refine .bind (.lift (s.node_tag h).known) ?_
  rintro j hj tag _ ⟨rfl, htag⟩
  have he := s.scope_mono (le_trans hi hj) he
  cases htag? : Tag.of? tag with
  | none => exact .bindSame (s.plainText_lockstep tag) fun _ _ _ => s.throw_same _
  | some t =>
    -- apart from numbers, strings and nothing, a node is plain only if everything is
    have hplain : t ≠ .number → t ≠ .string → t ≠ .none → ∀ {x y : Run Datum},
        s.Lockstep j s.datum x y → s.Lockstep j (s.result n) x y := by
      intro hnumber hstring hnone x y hxy
      refine hxy.weaken fun _ _ _ _ hd => ⟨hd, fun hn => ?_⟩
      rcases s.plain_tag hn htag htag? with h | h | h | h
      · exact absurd h hnumber
      · exact absurd h hstring
      · exact absurd h hnone
      · exact h _
    have htext := Tag.of?_eq_some htag?
    cases t <;> rw [Tag.text] at htext <;> subst htext
    case number =>
      refine .bind (.lift (s.node_number h htag)) fun _ _ p p' hp => ?_
      refine .bindSame (.lift hp) fun _ _ x => ?_
      exact .pure fun m _ => ⟨⟨s.value_float m x, rfl⟩, fun _ => s.plain_float x⟩
    case string =>
      refine .bindSame (.lift (s.node_string h htag)) fun _ _ p => ?_
      refine .bindSame (s.plainText_lockstep p) fun _ _ text => ?_
      exact .pure fun m _ => ⟨⟨s.value_string m text, rfl⟩, fun _ => s.plain_string text⟩
    case none => exact .pure fun m _ => ⟨⟨s.value_nothing m, rfl⟩, fun _ => s.plain_nothing⟩
    case operation =>
      exact hplain nofun nofun nofun (s.evalOperation_lockstep hinner he room' h htag)
    case symbol => exact hplain nofun nofun nofun (s.evalSymbol_lockstep he room' h htag)
    case assignment =>
      exact hplain nofun nofun nofun (s.evalAssignment_lockstep hinner he room' h htag)
    case call => exact hplain nofun nofun nofun (s.evalCall_lockstep hinner htells he room' h htag)
    case function => exact hplain nofun nofun nofun (s.evalFunction_lockstep he room' h htag)

/-- Simulations of one evaluation by another that evaluate, one or the other of them, wherever a
    window may have been made. -/
structure Cover {ι : Type} (s : ι → Simulation) : Prop where
  /-- They compare in the same way. -/
  comparison : ∀ i j, (s i).toComparison = (s j).toComparison
  /-- They go by the same rules. -/
  rules : ∀ i j, (s i).rules = (s j).rules ∧ (s i).rules' = (s j).rules'
  /-- Windows. -/
  homes : ∀ {i k e}, (s i).home k e → ∃ j, (s j).scope k e

/-- Where one of the simulations evaluates, a window's call of its function goes in lockstep. -/
theorem Cover.tells {ι : Type} {s : ι → Simulation} (hs : Cover s)
    (h : ∀ i, (s i).Evaluates inner inner') (i : ι) : (s i).Tells inner inner' := by
  intro k room e name args he hargs
  obtain ⟨j, hj⟩ := hs.homes he
  rw [hs.comparison i j]
  exact (s j).callNamed_lockstep (h j) hj room name hargs

/-- **Evaluation.**  Evaluation to any depth goes in lockstep on related nodes, by the rules that all
    of the simulations have. -/
theorem Cover.eval_lockstep {ι : Type} {s : ι → Simulation} (hs : Cover s) (depth : Nat) (i j : ι) :
    (s j).Evaluates (eval (s i).rules depth) (eval (s i).rules' depth) := by
  induction depth generalizing i j with
  | zero => exact fun _ _ _ _ _ _ _ => (s j).throw_same _
  | succ depth ih =>
    rw [(hs.rules i j).1, (hs.rules i j).2]
    exact (s j).evalLayer_lockstep (ih j j) (hs.tells (ih j) j)

/-- A simulation that itself evaluates wherever a window may have been made. -/
theorem cover_self (hhome : ∀ {k e}, s.home k e → s.scope k e) : Cover fun _ : Unit => s :=
  ⟨fun _ _ => rfl, fun _ _ => ⟨rfl, rfl⟩, fun h => ⟨(), hhome h⟩⟩

theorem eval_lockstep (hhome : ∀ {k e}, s.home k e → s.scope k e) (depth : Nat) :
    s.Evaluates (eval s.rules depth) (eval s.rules' depth) :=
  (s.cover_self hhome).eval_lockstep depth () ()

end Simulation

end Scrawl
