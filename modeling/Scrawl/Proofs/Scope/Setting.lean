/-
  Scrawl.Proofs.Scope.Setting — exactly what setting names does.

  A name is set in one scope, the one that owns it on the chain (`Forest.target`), and no name that
  is set moves the target of another one.  So when many names are set in turn, each ends up in its
  own target with the last of its values, and nothing else changes (`Forest.own?_setAll`).  This
  says what a new scope does to the scopes around it (`Forest.Ordered.own?_newScope`), and that add-ons
  set again in every scope are known in all of them (`Forest.get?_refresh`), in whichever order the
  scopes are visited.
-/

import Scrawl.Proofs.Scope.Restoring

namespace Scrawl

/-! ## §1. The last value of a name -/

/-- The last value that bindings have for a name. -/
def lastBinding? (bindings : List (Name × Datum)) (n : Name) : Option Datum :=
  bindings.reverse.lookup n

theorem lastBinding?_append (bindings bindings' : List (Name × Datum)) (n : Name) :
    lastBinding? (bindings ++ bindings') n
      = (lastBinding? bindings' n).or (lastBinding? bindings n) := by
  unfold lastBinding?
  rw [List.reverse_append, List.lookup_append]

theorem lastBinding?_cons (b : Name × Datum) (bindings : List (Name × Datum)) (n : Name) :
    lastBinding? (b :: bindings) n
      = (lastBinding? bindings n).or (if n = b.1 then some b.2 else none) := by
  have hsingle : lastBinding? [b] n = if n = b.1 then some b.2 else none := by
    show [b].lookup n = _
    rw [List.lookup_cons]
    by_cases h : n = b.1
    · rw [if_pos h, h, beq_self_eq_true]
    · rw [if_neg h, beq_eq_false_iff_ne.2 h]
      rfl
  rw [← hsingle]
  exact lastBinding?_append [b] bindings n

theorem lastBinding?_eq_none {bindings : List (Name × Datum)} {n : Name} :
    lastBinding? bindings n = none ↔ ∀ b ∈ bindings, b.1 ≠ n := by
  unfold lastBinding?
  rw [List.lookup_eq_none_iff]
  refine ⟨fun h b hb hbn => ?_, fun h b hb => ?_⟩
  · exact absurd hbn.symm (by simpa using h b (List.mem_reverse.2 hb))
  · simpa using (h b (List.mem_reverse.1 hb)).symm

namespace Forest

variable {f : Forest} {e x p : ScopeId} {n m : Name} {d : Datum}

/-! ## §2. Targets -/

/-- The scope in which a name is set, as seen from a scope. -/
def target (f : Forest) (e : ScopeId) (n : Name) : ScopeId := (f.owner? e n).getD e

theorem target_of_owner {o : ScopeId} (h : f.owner? e n = some o) : f.target e n = o := by
  unfold target
  rw [h]
  rfl

theorem set_eq_put : f.set e n d = f.put (f.target e n) n d := rfl

theorem target_lt_size (he : e < f.size) (n : Name) : f.target e n < f.size := by
  cases ho : f.owner? e n with
  | none =>
    unfold target
    rwa [ho]
  | some o =>
    rw [target_of_owner ho]
    exact lt_size_of_owns (owns_owner ho)

/-- A scope comes first on its own chain. -/
theorem chain_eq_cons (he : e < f.size) : ∃ rest, f.chain e = e :: rest := by
  obtain ⟨parent, hparent⟩ := exists_parent? he
  cases parent with
  | none => exact ⟨[], chain_root hparent⟩
  | some p => exact ⟨f.chainFrom e p, chainFrom_child _ hparent e⟩

/-- The value of a name is the one that its owner has for it. -/
theorem get?_eq_bind (f : Forest) (e : ScopeId) (n : Name) :
    f.get? e n = (f.owner? e n).bind (f.own? · n) := by
  unfold get? owner? owns
  induction f.chain e with
  | nil => rfl
  | cons y ys ih =>
    rw [List.findSome?_cons, List.find?_cons]
    cases hy : f.own? y n with
    | some d => simp [hy]
    | none => simpa using ih

/-- The value of a name is the one in its target. -/
theorem get?_eq_own?_target (he : e < f.size) (n : Name) :
    f.get? e n = f.own? (f.target e n) n := by
  cases ho : f.owner? e n with
  | some o => rw [get?_eq_bind, ho, target_of_owner ho]; rfl
  | none =>
    -- nobody on the chain owns the name, and the scope itself is on it
    have hnone : f.own? e n = none := by
      obtain ⟨rest, hchain⟩ := chain_eq_cons he
      have hall := List.find?_eq_none.1 ho e (by rw [hchain]; exact List.mem_cons_self)
      exact owns_eq_false.1 (Bool.eq_false_iff.2 hall)
    unfold target
    rw [get?_eq_bind, ho]
    exact hnone.symm

/-- **Setting a name moves no target**, not even its own. -/
theorem target_set (he : e < f.size) (d : Datum) :
    (f.set e n d).target e m = f.target e m := by
  rw [set_eq_put]
  cases ho : f.owner? e n with
  | some o =>
    rw [target_of_owner ho]
    unfold target
    rw [owner?_put (owns_owner ho)]
  | none =>
    have htarget : f.target e n = e := by
      unfold target
      rw [ho]
      rfl
    rw [htarget]
    by_cases hm : m = n
    · -- the scope comes to own the name, and it is the nearest one on its chain
      subst hm
      obtain ⟨rest, hchain⟩ := chain_eq_cons he
      have howner : (f.put e m d).owner? e m = some e := by
        unfold owner?
        rw [chain_congr fun y => f.parent?_put e y m d, hchain]
        exact List.find?_cons_of_pos (owns_put.2 (.inr ⟨rfl, rfl, he⟩))
      rw [target_of_owner howner, htarget]
    · unfold target
      rw [owner?_put_of_ne hm]

theorem target_setAll (he : e < f.size) (bindings : List (Name × Datum)) :
    (f.setAll e bindings).target e m = f.target e m := by
  induction bindings generalizing f with
  | nil => rfl
  | cons b bindings ih => rw [setAll_cons, ih (by rwa [size_set]), target_set he]

/-! ## §3. Setting many names -/

/-- **Setting many names, exactly**: the target of a name gets the last of its values, and every
    other own variable is as it was. -/
theorem own?_setAll (he : e < f.size) (bindings : List (Name × Datum)) (x : ScopeId) (n : Name) :
    (f.setAll e bindings).own? x n
      = if x = f.target e n then (lastBinding? bindings n).or (f.own? x n) else f.own? x n := by
  induction bindings generalizing f with
  | nil =>
    show f.own? x n = if _ then f.own? x n else _
    rw [ite_self]
  | cons b bindings ih =>
    have hput : (f.set e b.1 b.2).own? x n
        = if x = f.target e n ∧ n = b.1 then some b.2 else f.own? x n := by
      rw [set_eq_put, own?_put]
      by_cases hn : n = b.1
      · subst hn
        simp [target_lt_size he]
      · simp [hn]
    rw [setAll_cons, ih (by rwa [size_set]), target_set he, hput, lastBinding?_cons]
    by_cases hx : x = f.target e n
    · rw [if_pos hx, if_pos hx]
      by_cases hn : n = b.1
      · rw [if_pos ⟨hx, hn⟩, if_pos hn, Option.or_assoc]
        rfl
      · rw [if_neg fun h => hn h.2, if_neg hn, Option.or_none]
    · rw [if_neg hx, if_neg hx, if_neg fun h => hx h.1]

theorem own?_setAll_of_none {bindings : List (Name × Datum)} (he : e < f.size)
    (h : lastBinding? bindings n = none) (x : ScopeId) :
    (f.setAll e bindings).own? x n = f.own? x n := by
  rw [own?_setAll he, h, Option.none_or, ite_self]

theorem get?_setAll (he : e < f.size) (bindings : List (Name × Datum)) (n : Name) :
    (f.setAll e bindings).get? e n = (lastBinding? bindings n).or (f.get? e n) := by
  rw [get?_eq_own?_target (by rwa [size_setAll]), target_setAll he, own?_setAll he, if_pos rfl,
    get?_eq_own?_target he]

/-- Changing some values to one that a search already finds does not change what it finds. -/
theorem findSome?_eq_of_or {α β : Type} {g g' : α → Option β} {b : β}
    (h : ∀ a, g' a = g a ∨ g' a = some b) {l : List α} (hl : l.findSome? g = some b) :
    l.findSome? g' = some b := by
  induction l with
  | nil => cases hl
  | cons a l ih =>
    rw [List.findSome?_cons] at hl ⊢
    rcases h a with ha | ha
    · rw [ha]
      cases hg : g a with
      | some c =>
        rw [hg] at hl
        exact hl
      | none =>
        rw [hg] at hl
        exact ih hl
    · rw [ha]

/-- Whoever knows a name with the value that is set elsewhere knows it with that value still. -/
theorem get?_setAll_of_eq {bindings : List (Name × Datum)} (he : e < f.size)
    (h : lastBinding? bindings n = some d) (hx : f.get? x n = some d) :
    (f.setAll e bindings).get? x n = some d := by
  unfold get? at hx ⊢
  rw [chain_congr fun y => f.parent?_setAll e y bindings]
  refine findSome?_eq_of_or (fun y => ?_) hx
  rw [own?_setAll he, h]
  by_cases hy : y = f.target e n
  · exact .inr (if_pos hy)
  · exact .inl (if_neg hy)

/-! ## §4. Add-ons set again -/

variable {addons : List (Value × Value)}

/-- **Every scope visited knows every add-on by its last value**, although scopes that share an
    outer one set it again for each other. -/
theorem get?_refresh {count : Nat} (hcount : count ≤ f.size) (he : e < count)
    (h : lastBinding? (addonBindings addons) n = some d) :
    (f.refresh addons count).get? e n = some d := by
  induction count with
  | zero => exact absurd he (Nat.not_lt_zero e)
  | succ count ih =>
    have hsize : count < (f.refresh addons count).size := by
      rw [size_refresh]
      exact hcount
    rw [refresh_succ]
    rcases Nat.lt_succ_iff_lt_or_eq.1 he with he | rfl
    · exact get?_setAll_of_eq hsize h (ih (Nat.le_of_succ_le hcount) he)
    · rw [get?_setAll hsize, h]
      rfl

/-- No other own variable changes. -/
theorem own?_refresh_of_none {count : Nat} (hcount : count ≤ f.size)
    (h : lastBinding? (addonBindings addons) n = none) (x : ScopeId) :
    (f.refresh addons count).own? x n = f.own? x n := by
  induction count with
  | zero => rfl
  | succ count ih =>
    have hsize : count < (f.refresh addons count).size := by
      rw [size_refresh]
      exact hcount
    rw [refresh_succ, own?_setAll_of_none hsize h, ih (Nat.le_of_succ_le hcount)]

/-! ## §5. New inner scopes -/

/-- The chain of a scope stays as it is in a forest with more scopes. -/
theorem Ordered.chain_of_le {g : Forest} (hf : f.Ordered) (hg : g.Ordered) (hfg : f ≤ g) :
    e < f.size → g.chain e = f.chain e := by
  induction e using Nat.strongRecOn with
  | ind e ih =>
    intro he
    obtain ⟨parent, hparent⟩ := exists_parent? he
    cases parent with
    | none => rw [chain_root hparent, chain_root (hfg e _ hparent)]
    | some p =>
      have hpe : p < e := hf e p hparent
      rw [hf.chain_child hparent, hg.chain_child (hfg e _ hparent), ih p hpe (Nat.lt_trans hpe he)]

theorem le_grow (parent : Option ScopeId) : f ≤ f.grow parent := by
  intro e parent' h
  rw [parent?_grow, if_neg (Nat.ne_of_lt (lt_size_of_parent? h)), h]

/-- A scope that owns nothing yet looks for the owner of a name where the one around it does. -/
theorem Ordered.owner?_grow (hf : f.Ordered) (hp : p < f.size) (n : Name) :
    (f.grow (some p)).owner? f.size n = f.owner? p n := by
  have hgrown : (f.grow (some p)).Ordered := hf.grow fun q hq => Option.some.inj hq ▸ hp
  have hparent : (f.grow (some p)).parent? f.size = some (some p) := by
    rw [parent?_grow, if_pos rfl]
  have hown : (f.grow (some p)).owns f.size n = false := by
    rw [owns_grow]
    unfold owns
    rw [f.own?_eq_none (Nat.le_refl _)]
    rfl
  unfold owner?
  rw [hgrown.chain_child hparent, hf.chain_of_le hgrown (le_grow _) hp,
    List.find?_cons_of_neg (by rw [hown]; exact Bool.false_ne_true)]
  exact congrArg (fun o => (f.chain p).find? o) (funext fun y => f.owns_grow (some p) y n)

variable {rules : Rules} {o : ScopeId}

/-- What a new inner scope does to the own variables of a name that is known around it: the owner
    gets the last of its values. -/
theorem Ordered.own?_newScope (hf : f.Ordered) (hp : p < f.size) (hrules : rules.restores = true)
    (howner : f.owner? p n = some o) (x : ScopeId) :
    (f.newScope rules addons (some p)).own? x n
      = if x = o then (lastBinding? (standardBindings ++ addonBindings addons) n).or (f.own? x n)
        else f.own? x n := by
  have hsets : rules.sets (some p) = true := hrules
  unfold newScope
  dsimp only
  rw [if_pos hsets, own?_setAll (by rw [size_grow]; exact Nat.lt_succ_self _), own?_grow,
    target_of_owner ((hf.owner?_grow hp n).trans howner)]

/-- It leaves all other names alone. -/
theorem own?_newScope_of_none {parent : Option ScopeId}
    (h : lastBinding? (standardBindings ++ addonBindings addons) n = none) (x : ScopeId) :
    (f.newScope rules addons parent).own? x n = f.own? x n := by
  unfold newScope
  dsimp only
  split
  · rw [own?_setAll_of_none (by rw [size_grow]; exact Nat.lt_succ_self _) h, own?_grow]
  · exact f.own?_grow parent x n

/-- And knows each name set by the last of its values. -/
theorem get?_newScope {parent : Option ScopeId} (hsets : rules.sets parent = true)
    (h : lastBinding? (standardBindings ++ addonBindings addons) n = some d) :
    (f.newScope rules addons parent).get? f.size n = some d := by
  unfold newScope
  dsimp only
  rw [if_pos hsets, get?_setAll (by rw [size_grow]; exact Nat.lt_succ_self _), h]
  rfl

end Forest

end Scrawl
