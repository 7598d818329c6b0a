/-
  Scrawl.Proofs.Scope.Regions — parts of the forest.

  A set of scopes is closed outwards if it has the parents of its scopes.  Whatever is set as seen
  from such a set is set within it, and a scope made inside it makes no difference outside.  The
  scopes under one outermost scope are such a set, and they stay under it.
-/

import Scrawl.Proofs.Scope.Growth

namespace Scrawl.Forest

variable {f : Forest} {P : ScopeId → Prop}

/-! ## §1. Sets of scopes that are closed outwards -/

/-- A set of scopes has the parents of its scopes. -/
def ClosedOutwards (f : Forest) (P : ScopeId → Prop) : Prop :=
  ∀ e p, P e → f.parent? e = some (some p) → P p

theorem ClosedOutwards.chainFrom (h : f.ClosedOutwards P) (fuel : Nat) :
    ∀ {e : ScopeId}, P e → ∀ x ∈ f.chainFrom fuel e, P x := by
  -- each step goes from a scope in the set to its parent
  induction fuel with
  | zero =>
    intro e _ x hx
    cases hx
  | succ fuel ih =>
    intro e he x hx
    cases hparent : f.parent? e with
    | none =>
      rw [chainFrom_missing _ hparent] at hx
      cases hx
    | some parent =>
      cases parent with
      | none =>
        rw [chainFrom_root _ hparent] at hx
        obtain rfl := List.mem_singleton.1 hx
        exact he
      | some p =>
        rw [chainFrom_child _ hparent] at hx
        rcases List.mem_cons.1 hx with rfl | hx
        · exact he
        · exact ih (h e p he hparent) x hx

/-- The whole chain of a scope is in the set. -/
theorem ClosedOutwards.chain (h : f.ClosedOutwards P) {e : ScopeId} (he : P e) :
    ∀ x ∈ f.chain e, P x :=
  h.chainFrom (e + 1) he

/-- The scope in which a name is set is in the set. -/
theorem ClosedOutwards.owner (h : f.ClosedOutwards P) {e : ScopeId} (he : P e) (n : Name) :
    P ((f.owner? e n).getD e) := by
  cases ho : f.owner? e n with
  | none => exact he
  | some o => exact h.chain he o (List.mem_of_find?_eq_some ho)

/-- A name that is known from a scope in the set is bound in the set. -/
theorem ClosedOutwards.get? (h : f.ClosedOutwards P) {e : ScopeId} (he : P e) {n : Name} {d : Datum}
    (hd : f.get? e n = some d) : ∃ x, P x ∧ f.own? x n = some d := by
  obtain ⟨x, hx, hown⟩ := List.exists_of_findSome?_eq_some hd
  exact ⟨x, h.chain he x hx, hown⟩

theorem ClosedOutwards.congr (h : f.ClosedOutwards P) {g : Forest}
    (hparent : ∀ e, g.parent? e = f.parent? e) : g.ClosedOutwards P :=
  fun e p he hp => h e p he (hparent e ▸ hp)

/-! ## §2. Setting names -/

/-- What is bound after setting a name was bound before, or is what was set, in the set. -/
theorem ClosedOutwards.own?_set (h : f.ClosedOutwards P) {e x : ScopeId} (he : P e) {n m : Name}
    {d d' : Datum} (hd : (f.set e n d).own? x m = some d') :
    P x ∧ d' = d ∨ f.own? x m = some d' := by
  unfold set at hd
  rw [own?_put] at hd
  split at hd
  · next hx => exact .inl ⟨hx.1 ▸ h.owner he n, (Option.some.inj hd).symm⟩
  · exact .inr hd

/-- Setting a name changes nothing outside the set. -/
theorem ClosedOutwards.scopes_set (h : f.ClosedOutwards P) {e x : ScopeId} (he : P e) (hx : ¬ P x)
    (n : Name) (d : Datum) : (f.set e n d).scopes[x]? = f.scopes[x]? := by
  have hne : (f.owner? e n).getD e ≠ x := by
    intro heq
    exact hx (heq ▸ h.owner he n)
  unfold set put
  rw [Array.getElem?_modify, if_neg hne]

theorem ClosedOutwards.scopes_setAll {e x : ScopeId} (he : P e) (hx : ¬ P x)
    (bindings : List (Name × Datum)) {f : Forest} (h : f.ClosedOutwards P) :
    (f.setAll e bindings).scopes[x]? = f.scopes[x]? := by
  unfold setAll
  induction bindings generalizing f with
  | nil => rfl
  | cons b bindings ih =>
    rw [List.foldl_cons, ih (h.congr fun y => f.parent?_set e y b.1 b.2)]
    exact h.scopes_set he hx b.1 b.2

/-! ## §3. Making scopes -/

/-- A scope is added inside a scope of the set. -/
theorem ClosedOutwards.grow (h : f.ClosedOutwards P) {parent : Option ScopeId}
    (hparent : ∀ p, parent = some p → P p) : (f.grow parent).ClosedOutwards P := by
  intro e p he hp
  rw [parent?_grow] at hp
  split at hp
  · exact hparent p (Option.some.inj hp)
  · exact h e p he hp

/-- A scope is made inside a scope of the set. -/
theorem ClosedOutwards.newScope (h : f.ClosedOutwards P) (rules : Rules)
    (addons : List (Value × Value)) {parent : Option ScopeId}
    (hparent : ∀ p, parent = some p → P p) : (f.newScope rules addons parent).ClosedOutwards P := by
  refine (h.grow hparent).congr fun e => ?_
  rw [parent?_newScope, parent?_grow]

/-- Making a scope changes nothing outside a set that has it and its parent: names of the language
    may be set again in an outermost scope, but that is in the set. -/
theorem ClosedOutwards.scopes_newScope (h : f.ClosedOutwards P) (rules : Rules)
    (addons : List (Value × Value)) {parent : Option ScopeId}
    (hparent : ∀ p, parent = some p → P p) (hnew : P f.size) {x : ScopeId} (hx : ¬ P x) :
    (f.newScope rules addons parent).scopes[x]? = f.scopes[x]? := by
  have hne : x ≠ f.scopes.size := by
    intro heq
    exact hx (heq ▸ hnew)
  have hgrow : (f.grow parent).scopes[x]? = f.scopes[x]? := by
    unfold Forest.grow
    rw [Array.getElem?_push, if_neg hne]
  unfold Forest.newScope
  dsimp only
  -- the new scope sets names only by some rules
  split
  · rw [ClosedOutwards.scopes_setAll hnew hx _ (h.grow hparent), hgrow]
  · exact hgrow

/-! ## §4. Scopes under an outermost scope -/

/-- A scope lies under an outermost scope, or is it. -/
inductive Under (f : Forest) (r : ScopeId) : ScopeId → Prop
  /-- The outermost scope. -/
  | root (h : f.parent? r = some none) : Under f r r
  /-- A scope inside one that lies under it. -/
  | child {e p : ScopeId} (h : f.parent? e = some (some p)) (hp : Under f r p) : Under f r e

namespace Under

variable {r r' e : ScopeId}

theorem lt_size (h : f.Under r e) : e < f.size := by
  cases h with
  | root h => exact lt_size_of_parent? h
  | child h _ => exact lt_size_of_parent? h

theorem mono {g : Forest} (hfg : f ≤ g) (h : f.Under r e) : g.Under r e := by
  induction h with
  | root h => exact .root (hfg _ _ h)
  | child h _ ih => exact .child (hfg _ _ h) ih

/-- No scope lies under two outermost scopes. -/
theorem unique (h : f.Under r e) (h' : f.Under r' e) : r = r' := by
  -- a scope either is outermost or has a parent, so both ways out go the same way
  induction h with
  | root hr =>
    cases h' with
    | root _ => rfl
    | child hp _ => exact nomatch hr.symm.trans hp
  | child hp _ ih =>
    cases h' with
    | root hr => exact nomatch hp.symm.trans hr
    | child hp' h' =>
      obtain rfl := Option.some.inj (Option.some.inj (hp.symm.trans hp'))
      exact ih h'

theorem closedOutwards (f : Forest) (r : ScopeId) : f.ClosedOutwards (f.Under r) := by
  intro e p he hp
  cases he with
  | root hr => exact nomatch hr.symm.trans hp
  | child hp' h =>
    obtain rfl := Option.some.inj (Option.some.inj (hp.symm.trans hp'))
    exact h

end Under

end Scrawl.Forest
