/-
  Scrawl.Proofs.Eval.Lockstep — two runs compared step by step.

  Two runs are in lockstep when, started in related worlds, they both give related results or both
  end with related faults, and leave related worlds behind.  What a result is related by may depend
  on the forest, as values refer to scopes; scopes are made, but none is ever lost or moved.  The
  first run may also leave the comparison with a fault set aside for that purpose.

  Lockstep is put together along the programs: `Lockstep.bind` for a sequence, and one lemma for
  each way to go through a list.
-/

import Mathlib.Data.List.Forall2
import Scrawl.Proofs.Scope.Forest
import Scrawl.World

namespace Scrawl

/-! ## §1. Comparisons -/

/-- How two runs are compared. -/
structure Comparison where
  /-- Which worlds are related. -/
  world : World → World → Prop
  /-- Which faults are related. -/
  fault : Fault → Fault → Prop
  /-- The faults with which the first run leaves the comparison, and in which worlds. -/
  escapes : World → Fault → Prop

namespace Comparison

variable {α β γ δ : Type} (c : Comparison)

/-- Two computations without a world give related results or related faults. -/
inductive Matches (A : α → β → Prop) : Except Fault α → Except Fault β → Prop
  /-- Both give a result. -/
  | ok {a : α} {b : β} (h : A a b) : Matches A (.ok a) (.ok b)
  /-- Both fail. -/
  | error {f g : Fault} (h : c.fault f g) : Matches A (.error f) (.error g)

/-- Two outcomes agree, of runs that started with the forest `k`. -/
inductive Agrees (k : Forest) (A : Forest → α → β → Prop) :
    EStateM.Result Fault World α → EStateM.Result Fault World β → Prop
  /-- Both runs give a result. -/
  | ok {a : α} {b : β} {w w' : World} (hw : c.world w w') (hk : k ≤ w.forest)
      (h : A w.forest a b) : Agrees k A (.ok a w) (.ok b w')
  /-- Both runs fail. -/
  | error {f g : Fault} {w w' : World} (hw : c.world w w') (hk : k ≤ w.forest)
      (h : c.fault f g) : Agrees k A (.error f w) (.error g w')
  /-- The first run has left the comparison. -/
  | escape {f : Fault} {w : World} {r : EStateM.Result Fault World β} (h : c.escapes w f) :
      Agrees k A (.error f w) r

/-- Two runs agree wherever they start with the forest `k` or a later one. -/
def Lockstep (k : Forest) (A : Forest → α → β → Prop) (x : Run α) (y : Run β) : Prop :=
  ∀ w w', c.world w w' → k ≤ w.forest → c.Agrees w.forest A (x w) (y w')

/-- The runs do not both go on with an action, in any world with the forest `k` or a later one. -/
inductive Stops (rules rules' : Rules) (k : Forest) (action action' : Action) : Prop
  /-- The first one leaves the comparison. -/
  | leaves {f : Fault} (hf : rules.refuses action = some f)
      (h : ∀ w w', c.world w w' → k ≤ w.forest → c.escapes w f)
  /-- Both are refused it, with related faults. -/
  | together {f g : Fault} (hf : rules.refuses action = some f)
      (hg : rules'.refuses action' = some g) (h : c.fault f g)

/-- Results about which nothing is said. -/
def Anything : Forest → α → β → Prop := fun _ _ _ => True

/-- Results that are the same. -/
def Same : Forest → α → α → Prop := fun _ a b => a = b

variable {c}

/-! ## §2. Single steps -/

/-- Remembers where the first result comes from. -/
theorem Matches.known {A : α → β → Prop} {x : Except Fault α} {y : Except Fault β}
    (h : c.Matches A x y) : c.Matches (fun a b => A a b ∧ x = .ok a) x y := by
  cases h with
  | ok h => exact .ok ⟨h, rfl⟩
  | error h => exact .error h

/-- A computation agrees with itself where every fault is related to itself. -/
theorem Matches.refl (hfault : ∀ f, c.fault f f) {A : α → α → Prop} {x : Except Fault α}
    (hA : ∀ a, x = .ok a → A a a) : c.Matches A x x := by
  cases x with
  | ok a => exact .ok (hA a rfl)
  | error f => exact .error (hfault f)

variable {k : Forest} {A : Forest → α → β → Prop} {B : Forest → γ → δ → Prop}

theorem Lockstep.pure {a : α} {b : β} (h : ∀ j, k ≤ j → A j a b) :
    c.Lockstep k A (Pure.pure a) (Pure.pure b) :=
  fun _ _ hw hk => .ok hw le_rfl (h _ hk)

theorem Lockstep.throw {f g : Fault} (h : c.fault f g) :
    c.Lockstep k A (MonadExcept.throw f) (MonadExcept.throw g) :=
  fun _ _ hw _ => .error hw le_rfl h

/-- A computation without a world, as a step of a run. -/
theorem Lockstep.lift {C : α → β → Prop} {x : Except Fault α} {y : Except Fault β}
    (h : c.Matches C x y) :
    c.Lockstep k (fun _ => C) (liftM x : Run α) (liftM y : Run β) := by
  intro w w' hw _
  cases h with
  | ok h => exact .ok hw le_rfl h
  | error h => exact .error hw le_rfl h

/-- The same computation without a world, where every fault is related to itself. -/
theorem Lockstep.liftSame (hfault : ∀ f, c.fault f f) (x : Except Fault α) :
    c.Lockstep k Same (liftM x : Run α) (liftM x : Run α) :=
  .lift (.refl hfault fun _ _ => rfl)

/-- Changing the world, with no result. -/
theorem Lockstep.modify {change change' : World → World}
    (h : ∀ w w', c.world w w' → k ≤ w.forest →
      c.world (change w) (change' w') ∧ w.forest ≤ (change w).forest) :
    c.Lockstep k Anything (modify change : Run Unit) (modify change' : Run Unit) := by
  intro w w' hw hk
  obtain ⟨hchange, hgrown⟩ := h w w' hw hk
  exact .ok hchange hgrown trivial

/-- Changing the world, with a result. -/
theorem Lockstep.modifyGet {change : World → α × World} {change' : World → β × World}
    (h : ∀ w w', c.world w w' → k ≤ w.forest →
      c.world (change w).2 (change' w').2 ∧ w.forest ≤ (change w).2.forest ∧
        A (change w).2.forest (change w).1 (change' w').1) :
    c.Lockstep k A (modifyGet change : Run α) (modifyGet change' : Run β) := by
  intro w w' hw hk
  obtain ⟨hchange, hgrown, hA⟩ := h w w' hw hk
  exact .ok hchange hgrown hA

/-- Looking at the worlds. -/
theorem Lockstep.get {f : World → Run α} {g : World → Run β}
    (hfg : ∀ w w', c.world w w' → k ≤ w.forest →
      c.Lockstep w.forest A (f w) (g w')) :
    c.Lockstep k A (MonadState.get >>= f) (MonadState.get >>= g) :=
  fun w w' hw hk => hfg w w' hw hk w w' hw le_rfl

/-! ## §3. Sequences of steps -/

/-- Runs that started with the forest `j` went on from runs that started with an earlier one. -/
theorem Agrees.from_earlier {r : EStateM.Result Fault World α} {r' : EStateM.Result Fault World β}
    {j : Forest} (h : c.Agrees j A r r') (hkj : k ≤ j) : c.Agrees k A r r' := by
  cases h with
  | ok hw hj h => exact .ok hw (le_trans hkj hj) h
  | error hw hj h => exact .error hw (le_trans hkj hj) h
  | escape h => exact .escape h

theorem Lockstep.bind {x : Run α} {y : Run β} {f : α → Run γ} {g : β → Run δ}
    (h : c.Lockstep k A x y)
    (hfg : ∀ j, k ≤ j → ∀ a b, A j a b → c.Lockstep j B (f a) (g b)) :
    c.Lockstep k B (x >>= f) (y >>= g) := by
  intro w w' hw hk
  show c.Agrees _ B (EStateM.bind x f w) (EStateM.bind y g w')
  unfold EStateM.bind
  have hstep := h w w' hw hk
  -- the outcome of the first step decides whether the second one is taken
  generalize x w = r at hstep
  generalize y w' = r' at hstep
  cases hstep with
  | ok hv hgrown hab =>
    exact (hfg _ (le_trans hk hgrown) _ _ hab _ _ hv le_rfl).from_earlier hgrown
  | error hv hgrown hfault => exact .error hv hgrown hfault
  | escape hescape => exact .escape hescape

/-- Less may be said of the results, from the forest on that there is then. -/
theorem Agrees.weaken {r : EStateM.Result Fault World α} {r' : EStateM.Result Fault World β}
    (h : c.Agrees k A r r') {C : Forest → α → β → Prop}
    (hAC : ∀ j, k ≤ j → ∀ a b, A j a b → C j a b) : c.Agrees k C r r' := by
  cases h with
  | ok hw hk hab => exact .ok hw hk (hAC _ hk _ _ hab)
  | error hw hk hfault => exact .error hw hk hfault
  | escape hescape => exact .escape hescape

theorem Lockstep.weaken {x : Run α} {y : Run β} (h : c.Lockstep k A x y)
    {C : Forest → α → β → Prop} (hAC : ∀ j, k ≤ j → ∀ a b, A j a b → C j a b) :
    c.Lockstep k C x y :=
  fun w w' hw hk => (h w w' hw hk).weaken fun j hj => hAC j (le_trans hk hj)

/-- A step whose result is dropped. -/
theorem Lockstep.andThen {x : Run α} {y : Run β} {f : Run γ} {g : Run δ}
    (h : c.Lockstep k A x y) (hfg : ∀ j, k ≤ j → c.Lockstep j B f g) :
    c.Lockstep k B (x >>= fun _ => f) (y >>= fun _ => g) :=
  h.bind fun j hj _ _ _ => hfg j hj

/-- Going on where an action is refused by no rules, or stopping there. -/
theorem Lockstep.permit {rules rules' : Rules} {action action' : Action} {x : Run α} {y : Run β}
    (h : c.Stops rules rules' k action action' ∨
      rules.refuses action = none ∧ rules'.refuses action' = none ∧ c.Lockstep k A x y) :
    c.Lockstep k A (rules.permit action >>= fun _ => x) (rules'.permit action' >>= fun _ => y) := by
  unfold Rules.permit
  rcases h with hstops | ⟨hnone, hnone', hxy⟩
  · cases hstops with
    | leaves hf hescapes =>
      rw [hf]
      exact fun w w' hw hk => .escape (hescapes w w' hw hk)
    | together hf hg hfault =>
      rw [hf, hg]
      exact fun _ _ hw _ => .error hw le_rfl hfault
  · rw [hnone, hnone']
    exact hxy

/-- A step with the same result in both runs. -/
theorem Lockstep.bindSame {x y : Run α} {f : α → Run γ} {g : α → Run δ}
    (h : c.Lockstep k Same x y) (hfg : ∀ j, k ≤ j → ∀ a, c.Lockstep j B (f a) (g a)) :
    c.Lockstep k B (x >>= f) (y >>= g) := by
  refine h.bind fun j hj a b hab => ?_
  subst hab
  exact hfg j hj a

/-! ## §4. Lists -/

/-- Going through two lists side by side, without results. -/
theorem Lockstep.forM {R : α → β → Prop} {f : α → Run Unit} {g : β → Run Unit}
    (hfg : ∀ j, k ≤ j → ∀ a b, R a b → c.Lockstep j Anything (f a) (g b)) {xs : List α}
    {ys : List β} (h : List.Forall₂ R xs ys) :
    c.Lockstep k Anything (xs.forM f) (ys.forM g) := by
  induction h generalizing k with
  | nil => exact .pure fun _ _ => trivial
  | cons hab _ ih =>
    refine .andThen (hfg k le_rfl _ _ hab) fun j hj => ?_
    exact ih fun i hi => hfg i (le_trans hj hi)

/-- Going through two lists side by side, where each result takes the place of the one before. -/
theorem Lockstep.foldlM {R : α → β → Prop} {f : α → Run γ} {g : β → Run δ}
    (hB : ∀ i j a b, i ≤ j → B i a b → B j a b)
    (hfg : ∀ j, k ≤ j → ∀ a b, R a b → c.Lockstep j B (f a) (g b)) {xs : List α} {ys : List β}
    (h : List.Forall₂ R xs ys) {r : γ} {r' : δ} (hr : B k r r') :
    c.Lockstep k B (xs.foldlM (fun _ => f) r) (ys.foldlM (fun _ => g) r') := by
  induction h generalizing k r r' with
  | nil => exact .pure fun j hj => hB k j r r' hj hr
  | cons hab _ ih =>
    refine .bind (hfg k le_rfl _ _ hab) fun j hj a b hj' => ?_
    exact ih (fun i hi => hfg i (le_trans hj hi)) hj'

/-- Going through two lists side by side, keeping all results. -/
theorem Lockstep.mapM {R : α → β → Prop} {f : α → Run γ} {g : β → Run δ}
    (hB : ∀ i j a b, i ≤ j → B i a b → B j a b)
    (hfg : ∀ j, k ≤ j → ∀ a b, R a b → c.Lockstep j B (f a) (g b)) {xs : List α} {ys : List β}
    (h : List.Forall₂ R xs ys) :
    c.Lockstep k (fun j => List.Forall₂ (B j)) (xs.mapM f) (ys.mapM g) := by
  induction h generalizing k with
  | nil =>
    rw [List.mapM_nil, List.mapM_nil]
    exact .pure fun _ _ => .nil
  | cons hab _ ih =>
    rw [List.mapM_cons, List.mapM_cons]
    refine .bind (hfg k le_rfl _ _ hab) fun j hj a b hj' => ?_
    refine .bind (ih fun i hi => hfg i (le_trans hj hi)) fun i hi as bs his => ?_
    exact .pure fun l hl => .cons (hB j l a b (le_trans hi hl) hj')
      (his.imp fun a b => hB i l a b hl)

/-! ## §5. What a run does not do -/

/-- Runs that agree whichever single fault may leave the comparison agree without leaving it. -/
theorem Agrees.settle {world : World → World → Prop} {fault : Fault → Fault → Prop}
    {r : EStateM.Result Fault World α} {r' : EStateM.Result Fault World β}
    (h : ∀ f, Agrees ⟨world, fault, fun _ g => g = f⟩ k A r r') :
    Agrees ⟨world, fault, fun _ _ => False⟩ k A r r' := by
  cases h .endless with
  | ok hw hk hab => exact .ok hw hk hab
  | error hw hk hfg => exact .error hw hk hfg
  | escape hescape =>
    -- the outcome is that fault, so with another one the runs did not leave
    obtain rfl : _ = Fault.endless := hescape
    cases h .tooDeep with
    | error hw hk hfg => exact .error hw hk hfg
    | escape hescape => exact nomatch hescape

end Comparison

/-- Rules under which some actions are refused with a given fault. -/
def Rules.refusing (rules : Rules) (forbidden : Action → Bool) (f : Fault) : Rules :=
  { rules with
    refuses := fun action => if forbidden action then some f else rules.refuses action }

/-- A run takes no action of some kind: it goes the same way if they are all refused, with
    whichever fault.  A run that did take one would end with each of these faults in turn, and it
    has only one outcome. -/
def Avoids {α : Type} (forbidden : Action → Bool) (rules : Rules) (run : Rules → Run α)
    (w : World) : Prop :=
  ∀ f, run (rules.refusing forbidden f) w = run rules w

end Scrawl
