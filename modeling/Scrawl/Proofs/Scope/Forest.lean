/-
  Scrawl.Proofs.Scope.Forest — the laws of scopes.

  What growing and setting do to the parents and to the own variables of every scope.  The chain of
  a scope depends on parents only, and who owns a name on it depends on chains and own variables
  only, so these two views say everything.
-/

import Mathlib.Order.Defs.PartialOrder
import Scrawl.Scope.Forest

namespace Scrawl

/-! ## §1. Pairs -/

namespace Pairs

variable {α β γ : Type} [BEq α] [LawfulBEq α]

theorem lookup_put (key key' : α) (value : β) (pairs : List (α × β)) :
    (put key value pairs).lookup key'
      = if key' == key then some value else pairs.lookup key' := by
  induction pairs with
  | nil =>
    rw [put, List.lookup_cons]
    cases key' == key <;> rfl
  | cons pair pairs ih =>
    obtain ⟨k, v⟩ := pair
    rw [put]
    by_cases h : k = key
    · subst h
      rw [if_pos (beq_self_eq_true k), List.lookup_cons, List.lookup_cons]
      cases key' == k <;> rfl
    · rw [if_neg (by simpa using h), List.lookup_cons, List.lookup_cons, ih]
      by_cases hk : key' = k
      · subst hk
        rw [beq_self_eq_true, (beq_eq_false_iff_ne.2 h : (key' == key) = false)]
        rfl
      · rw [(beq_eq_false_iff_ne.2 hk : (key' == k) = false)]

omit [LawfulBEq α] in
theorem map_put (f : β → γ) (key : α) (value : β) (pairs : List (α × β)) :
    (put key value pairs).map (fun p => (p.1, f p.2))
      = put key (f value) (pairs.map fun p => (p.1, f p.2)) := by
  induction pairs with
  | nil => rfl
  | cons pair pairs ih =>
    rw [put, List.map_cons, put]
    split
    · rfl
    · rw [List.map_cons, ih]

omit [LawfulBEq α] in
theorem lookup_map (f : β → γ) (key : α) (pairs : List (α × β)) :
    (pairs.map fun p => (p.1, f p.2)).lookup key = (pairs.lookup key).map f := by
  induction pairs with
  | nil => rfl
  | cons pair pairs ih =>
    rw [List.map_cons, List.lookup_cons, List.lookup_cons, ih]
    cases key == pair.1 <;> rfl

end Pairs

namespace Forest

variable (f : Forest)

/-! ## §2. Sizes and parents -/

/-- The parent of a scope, if there is such a scope. -/
def parent? (e : ScopeId) : Option (Option ScopeId) := f.scopes[e]?.map (·.parent)

@[simp] theorem size_put (e : ScopeId) (n : Name) (d : Datum) : (f.put e n d).size = f.size :=
  Array.size_modify

@[simp] theorem size_set (e : ScopeId) (n : Name) (d : Datum) : (f.set e n d).size = f.size :=
  f.size_put _ n d

@[simp] theorem size_setAll (e : ScopeId) (bindings : List (Name × Datum)) :
    (f.setAll e bindings).size = f.size := by
  unfold setAll
  induction bindings generalizing f with
  | nil => rfl
  | cons b bindings ih => rw [List.foldl_cons, ih, size_set]

@[simp] theorem size_grow (parent : Option ScopeId) : (f.grow parent).size = f.size + 1 :=
  Array.size_push _

@[simp] theorem parent?_put (e e' : ScopeId) (n : Name) (d : Datum) :
    (f.put e n d).parent? e' = f.parent? e' := by
  unfold parent? put
  rw [Array.getElem?_modify]
  split
  · cases f.scopes[e']? <;> rfl
  · rfl

@[simp] theorem parent?_set (e e' : ScopeId) (n : Name) (d : Datum) :
    (f.set e n d).parent? e' = f.parent? e' :=
  f.parent?_put _ e' n d

@[simp] theorem parent?_setAll (e e' : ScopeId) (bindings : List (Name × Datum)) :
    (f.setAll e bindings).parent? e' = f.parent? e' := by
  unfold setAll
  induction bindings generalizing f with
  | nil => rfl
  | cons b bindings ih => rw [List.foldl_cons, ih, parent?_set]

theorem parent?_grow (parent : Option ScopeId) (e : ScopeId) :
    (f.grow parent).parent? e = if e = f.size then some parent else f.parent? e := by
  unfold parent? grow size
  rw [Array.getElem?_push]
  split <;> rfl

theorem parent?_eq_none {e : ScopeId} : f.parent? e = none ↔ f.size ≤ e := by
  unfold parent? size
  rw [Option.map_eq_none_iff, Array.getElem?_eq_none_iff]

/-! ## §3. Own variables -/

theorem own?_put (e e' : ScopeId) (n n' : Name) (d : Datum) :
    (f.put e n d).own? e' n'
      = if e' = e ∧ n' = n ∧ e < f.size then some d else f.own? e' n' := by
  unfold own? put size
  rw [Array.getElem?_modify]
  by_cases he : e = e'
  · subst he
    rw [if_pos rfl]
    by_cases hsize : e < f.scopes.size
    · rw [Array.getElem?_eq_getElem hsize]
      show (Pairs.put n d f.scopes[e].bindings).lookup n' = _
      rw [Pairs.lookup_put]
      by_cases hn : n' = n
      · simp [hn, hsize]
      · simp [hn, Scope.get?]
    · rw [Array.getElem?_eq_none (Nat.not_lt.1 hsize)]
      simp [hsize]
  · rw [if_neg he, if_neg fun h => he h.1.symm]

theorem own?_grow (parent : Option ScopeId) (e : ScopeId) (n : Name) :
    (f.grow parent).own? e n = f.own? e n := by
  unfold own? grow
  rw [Array.getElem?_push]
  split
  · next h =>
    subst h
    rw [Array.getElem?_eq_none (Nat.le_refl _)]
    rfl
  · rfl

theorem own?_eq_none {e : ScopeId} (h : f.size ≤ e) (n : Name) : f.own? e n = none := by
  unfold own?
  rw [Array.getElem?_eq_none h]
  rfl

theorem lt_size_of_own? {f : Forest} {e : ScopeId} {n : Name} {d : Datum}
    (h : f.own? e n = some d) : e < f.size :=
  Nat.lt_of_not_le fun hsize => nomatch (f.own?_eq_none hsize n).symm.trans h

/-- What is bound after setting a name was bound before, or is what was set. -/
theorem own?_set_cases {e e' : ScopeId} {n n' : Name} {d d' : Datum}
    (h : (f.set e n d).own? e' n' = some d') : d' = d ∨ f.own? e' n' = some d' := by
  unfold set at h
  rw [own?_put] at h
  split at h
  · exact .inl (Option.some.inj h).symm
  · exact .inr h

theorem own?_setAll_cases {e e' : ScopeId} {n' : Name} {d' : Datum}
    {bindings : List (Name × Datum)} (h : (f.setAll e bindings).own? e' n' = some d') :
    (∃ b ∈ bindings, d' = b.2) ∨ f.own? e' n' = some d' := by
  unfold setAll at h
  induction bindings generalizing f with
  | nil => exact .inr h
  | cons b bindings ih =>
    rcases ih _ h with ⟨b', hb', hd⟩ | h
    · exact .inl ⟨b', List.mem_cons_of_mem _ hb', hd⟩
    · rcases f.own?_set_cases h with hd | h
      · exact .inl ⟨b, List.mem_cons_self, hd⟩
      · exact .inr h

/-! ## §4. Chains -/

theorem chainFrom_missing {e : ScopeId} (h : f.parent? e = none) (fuel : Nat) :
    f.chainFrom (fuel + 1) e = [] := by
  rw [chainFrom, Option.map_eq_none_iff.1 h]

theorem chainFrom_root {e : ScopeId} (h : f.parent? e = some none) (fuel : Nat) :
    f.chainFrom (fuel + 1) e = [e] := by
  obtain ⟨s, hs, hparent⟩ := Option.map_eq_some_iff.1 h
  rw [chainFrom, hs]
  dsimp only
  rw [hparent]

theorem chainFrom_child {e p : ScopeId} (h : f.parent? e = some (some p)) (fuel : Nat) :
    f.chainFrom (fuel + 1) e = e :: f.chainFrom fuel p := by
  obtain ⟨s, hs, hparent⟩ := Option.map_eq_some_iff.1 h
  rw [chainFrom, hs]
  dsimp only
  rw [hparent]

/-- Chains depend on parents only. -/
theorem chainFrom_congr {f g : Forest} (h : ∀ e, g.parent? e = f.parent? e) (fuel : Nat) :
    ∀ e : ScopeId, g.chainFrom fuel e = f.chainFrom fuel e := by
  induction fuel with
  | zero => exact fun _ => rfl
  | succ fuel ih =>
    intro e
    cases hparent : f.parent? e with
    | none => rw [chainFrom_missing _ hparent, chainFrom_missing _ (h e ▸ hparent)]
    | some parent =>
      cases parent with
      | none => rw [chainFrom_root _ hparent, chainFrom_root _ (h e ▸ hparent)]
      | some p => rw [chainFrom_child _ hparent, chainFrom_child _ (h e ▸ hparent), ih]

theorem chain_congr {f g : Forest} (h : ∀ e, g.parent? e = f.parent? e) (e : ScopeId) :
    g.chain e = f.chain e :=
  chainFrom_congr h (e + 1) e

@[simp] theorem chain_set (e e' : ScopeId) (n : Name) (d : Datum) :
    (f.set e n d).chain e' = f.chain e' :=
  chain_congr (fun x => f.parent?_set e x n d) e'

/-- Parents come before their children. -/
def Ordered : Prop := ∀ e p : ScopeId, f.parent? e = some (some p) → p < e

variable {f}

theorem Ordered.congr (h : f.Ordered) {g : Forest} (hparent : ∀ e, g.parent? e = f.parent? e) :
    g.Ordered :=
  fun e p hp => h e p (hparent e ▸ hp)

/-- A number that has a parent or none is that of a scope. -/
theorem lt_size_of_parent? {e : ScopeId} {parent : Option ScopeId} (h : f.parent? e = some parent) :
    e < f.size :=
  Nat.lt_of_not_le fun hsize => by rw [f.parent?_eq_none.2 hsize] at h; cases h

theorem exists_parent? {e : ScopeId} (h : e < f.size) : ∃ parent, f.parent? e = some parent :=
  Option.ne_none_iff_exists'.1 fun hnone => Nat.not_le_of_lt h (f.parent?_eq_none.1 hnone)

/-- More fuel than there are scopes up to one makes no difference. -/
theorem Ordered.chainFrom_eq (h : f.Ordered) (e : ScopeId) :
    ∀ {fuel : Nat}, e < fuel → f.chainFrom fuel e = f.chain e := by
  induction e using Nat.strongRecOn with
  | ind e ih =>
    intro fuel he
    cases fuel with
    | zero => exact absurd he (Nat.not_lt_zero e)
    | succ fuel =>
      unfold chain
      cases hparent : f.parent? e with
      | none => rw [chainFrom_missing _ hparent, chainFrom_missing _ hparent]
      | some parent =>
        cases parent with
        | none => rw [chainFrom_root _ hparent, chainFrom_root _ hparent]
        | some p =>
          have hpe : p < e := h e p hparent
          rw [chainFrom_child _ hparent, chainFrom_child _ hparent, ih p hpe hpe,
            ih p hpe (Nat.lt_of_lt_of_le hpe (Nat.le_of_lt_succ he))]

theorem chain_root {e : ScopeId} (h : f.parent? e = some none) : f.chain e = [e] :=
  chainFrom_root _ h e

theorem Ordered.chain_child (h : f.Ordered) {e p : ScopeId} (hp : f.parent? e = some (some p)) :
    f.chain e = e :: f.chain p := by
  unfold chain
  rw [chainFrom_child _ hp]
  exact congrArg (e :: ·) (h.chainFrom_eq p (h e p hp))

theorem self_mem_chain {e : ScopeId} (h : e < f.size) : e ∈ f.chain e := by
  obtain ⟨parent, hparent⟩ := exists_parent? h
  unfold chain
  cases parent with
  | none => rw [chainFrom_root _ hparent]; exact List.mem_singleton_self e
  | some p => rw [chainFrom_child _ hparent]; exact List.mem_cons_self

/-- Every chain ends in a scope that lies in no other one. -/
theorem Ordered.exists_root (h : f.Ordered) (e : ScopeId) (he : e < f.size) :
    ∃ root, (f.chain e).getLast? = some root ∧ f.parent? root = some none ∧ root ≤ e := by
  induction e using Nat.strongRecOn with
  | ind e ih =>
    obtain ⟨parent, hparent⟩ := exists_parent? he
    cases parent with
    | none => exact ⟨e, by rw [chain_root hparent]; rfl, hparent, Nat.le_refl e⟩
    | some p =>
      have hpe : p < e := h e p hparent
      obtain ⟨root, hlast, hroot, hle⟩ := ih p hpe (Nat.lt_trans hpe he)
      refine ⟨root, ?_, hroot, Nat.le_trans hle (Nat.le_of_lt hpe)⟩
      rw [h.chain_child hparent, List.getLast?_cons, hlast]
      rfl

/-! ## §5. Growing -/

/-- A forest comes before another one if every scope of it is still there and lies where it did. -/
instance : Preorder Forest where
  le f g := ∀ e parent, f.parent? e = some parent → g.parent? e = some parent
  le_refl _ _ _ h := h
  le_trans _ _ _ hfg hgh e parent h := hgh e parent (hfg e parent h)

theorem le_of_parent?_eq {g : Forest} (h : ∀ e, g.parent? e = f.parent? e) : f ≤ g :=
  fun e _ hparent => (h e).trans hparent

theorem lt_size_of_le {g : Forest} (hfg : f ≤ g) {e : ScopeId} (h : e < f.size) : e < g.size := by
  obtain ⟨parent, hparent⟩ := exists_parent? h
  exact lt_size_of_parent? (hfg e parent hparent)

theorem size_le_of_le {g : Forest} (hfg : f ≤ g) : f.size ≤ g.size :=
  Nat.le_of_not_lt fun hlt => Nat.lt_irrefl _ (lt_size_of_le hfg hlt)

theorem le_set (f : Forest) (e : ScopeId) (n : Name) (d : Datum) : f ≤ f.set e n d :=
  le_of_parent?_eq fun x => f.parent?_set e x n d

/-! ## §6. Owning -/

theorem has_iff {e : ScopeId} {n : Name} : f.has e n = true ↔ ∃ x ∈ f.chain e, f.owns x n = true := by
  unfold has owner?
  rw [List.find?_isSome]

/-- A name has no value exactly where no scope on the chain owns it. -/
theorem get?_eq_none {e : ScopeId} {n : Name} :
    f.get? e n = none ↔ ∀ x ∈ f.chain e, f.owns x n = false := by
  unfold get? owns
  rw [List.findSome?_eq_none_iff]
  simp only [Option.isSome_eq_false_iff, Option.isNone_iff_eq_none]

theorem owns_eq_false {e : ScopeId} {n : Name} : f.owns e n = false ↔ f.own? e n = none := by
  unfold owns
  rw [Option.isSome_eq_false_iff, Option.isNone_iff_eq_none]

/-- A scope that does not exist owns nothing. -/
theorem lt_size_of_owns {e : ScopeId} {n : Name} (h : f.owns e n = true) : e < f.size := by
  obtain ⟨d, hd⟩ := Option.isSome_iff_exists.1 h
  exact lt_size_of_own? hd

/-- Who owns a name on a chain depends on parents, and on who owns it at all. -/
theorem owner?_congr {g : Forest} {n : Name} (hparent : ∀ x, g.parent? x = f.parent? x)
    (howns : ∀ x, g.owns x n = f.owns x n) (e : ScopeId) : g.owner? e n = f.owner? e n := by
  unfold owner?
  rw [chain_congr hparent, funext howns]

/-- The owner of a name on a chain owns it. -/
theorem owns_owner {e o : ScopeId} {n : Name} (h : f.owner? e n = some o) : f.owns o n = true :=
  List.find?_some (p := (f.owns · n)) h

theorem owns_put {e e' : ScopeId} {n n' : Name} {d : Datum} :
    (f.put e n d).owns e' n' = true
      ↔ f.owns e' n' = true ∨ e' = e ∧ n' = n ∧ e < f.size := by
  unfold owns
  rw [own?_put]
  split
  · next h => exact ⟨fun _ => .inr h, fun _ => rfl⟩
  · next h => exact ⟨.inl, fun ho => ho.elim id fun hnew => absurd hnew h⟩

/-- Whoever owned a name owns it still. -/
theorem owns_set {e e' : ScopeId} {n n' : Name} {d : Datum} (h : f.owns e' n' = true) :
    (f.set e n d).owns e' n' = true :=
  owns_put.2 (.inl h)

/-- Only a scope that does not know the name comes to own it. -/
theorem owns_set_cases {e e' : ScopeId} {n n' : Name} {d : Datum}
    (h : (f.set e n d).owns e' n' = true) :
    f.owns e' n' = true ∨ e' = e ∧ n' = n ∧ f.has e n = false := by
  rcases owns_put.1 h with h | ⟨he, hn, -⟩
  · exact .inl h
  · cases ho : f.owner? e n with
    | some o =>
      rw [ho] at he
      exact .inl (he ▸ hn ▸ owns_owner ho)
    | none =>
      rw [ho] at he
      exact .inr ⟨he, hn, congrArg Option.isSome ho⟩

theorem has_set {e : ScopeId} (he : e < f.size) (n : Name) (d : Datum) :
    (f.set e n d).has e n = true := by
  rw [has_iff, chain_set]
  cases ho : f.owner? e n with
  | some o => exact ⟨o, List.mem_of_find?_eq_some ho, owns_set (owns_owner ho)⟩
  | none =>
    refine ⟨e, self_mem_chain he, owns_put.2 (.inr ⟨?_, rfl, ?_⟩)⟩
    · rw [ho]; rfl
    · rw [ho]; exact he

/-- What is known stays known where parents stay and nothing is lost. -/
theorem has_mono {g : Forest} (hparent : ∀ e, g.parent? e = f.parent? e)
    (howns : ∀ {e n}, f.owns e n = true → g.owns e n = true) {e : ScopeId} {n : Name}
    (h : f.has e n = true) : g.has e n = true := by
  obtain ⟨x, hx, hown⟩ := has_iff.1 h
  exact has_iff.2 ⟨x, chain_congr hparent e ▸ hx, howns hown⟩

theorem setAll_cons (e : ScopeId) (b : Name × Datum) (bindings : List (Name × Datum)) :
    f.setAll e (b :: bindings) = (f.set e b.1 b.2).setAll e bindings := rfl

theorem owns_setAll {e e' : ScopeId} {n' : Name} {bindings : List (Name × Datum)}
    (h : f.owns e' n' = true) : (f.setAll e bindings).owns e' n' = true := by
  induction bindings generalizing f with
  | nil => exact h
  | cons b bindings ih => exact ih (owns_set h)

theorem owns_setAll_cases {e e' : ScopeId} {n' : Name} {bindings : List (Name × Datum)}
    (h : (f.setAll e bindings).owns e' n' = true) :
    f.owns e' n' = true ∨ e' = e ∧ (∃ b ∈ bindings, b.1 = n') ∧ f.has e n' = false := by
  induction bindings generalizing f with
  | nil => exact .inl h
  | cons b bindings ih =>
    rcases ih h with h | ⟨he, ⟨b', hb', hn⟩, hhas⟩
    · rcases owns_set_cases h with h | ⟨he, hn, hhas⟩
      · exact .inl h
      · exact .inr ⟨he, ⟨b, List.mem_cons_self, hn.symm⟩, hn ▸ hhas⟩
    · refine .inr ⟨he, ⟨b', List.mem_cons_of_mem _ hb', hn⟩, ?_⟩
      -- what is unknown after more has been set was unknown before
      refine Bool.eq_false_iff.2 fun hknown => ?_
      rw [has_mono (fun x => f.parent?_set e x b.1 b.2) owns_set hknown] at hhas
      cases hhas

theorem has_setAll {e : ScopeId} (he : e < f.size) {b : Name × Datum}
    {bindings : List (Name × Datum)} (hb : b ∈ bindings) :
    (f.setAll e bindings).has e b.1 = true := by
  induction bindings generalizing f with
  | nil => exact nomatch hb
  | cons b' bindings ih =>
    rcases List.mem_cons.1 hb with rfl | hb
    · rw [setAll_cons]
      exact has_mono (fun x => parent?_setAll _ e x bindings) owns_setAll (has_set he b.1 b.2)
    · exact ih (by rwa [size_set]) hb

/-- What all outermost scopes up to a scope own is known to it, as its chain ends in one of them. -/
theorem Ordered.has_of_roots (h : f.Ordered) {e : ScopeId} (he : e < f.size) {n : Name}
    (hroots : ∀ r ≤ e, f.parent? r = some none → f.owns r n = true) : f.has e n = true := by
  obtain ⟨root, hlast, hroot, hle⟩ := h.exists_root e he
  exact has_iff.2 ⟨root, List.mem_of_getLast? hlast, hroots root hle hroot⟩

theorem Ordered.grow (h : f.Ordered) {parent : Option ScopeId}
    (hparent : ∀ p, parent = some p → p < f.size) : (f.grow parent).Ordered := by
  intro e p hp
  rw [parent?_grow] at hp
  split at hp
  · next he => exact he ▸ hparent p (Option.some.inj hp)
  · exact h e p hp

/-- An outermost scope knows what it owns, and nothing else. -/
theorem has_root {e : ScopeId} (h : f.parent? e = some none) (n : Name) :
    f.has e n = f.owns e n := by
  rw [Bool.eq_iff_iff, has_iff, chain_root h]
  exact ⟨fun ⟨x, hx, ho⟩ => List.mem_singleton.1 hx ▸ ho, fun ho => ⟨e, List.mem_singleton_self e, ho⟩⟩


end Forest

/-! ## §7. Changing all values -/

/-- A value in circulation with the value changed. -/
def Datum.map (g : Value → Value) (d : Datum) : Datum := { d with value := g d.value }

theorem Datum.eq_map {g : Value → Value} {d d' : Datum} (hvalue : d'.value = g d.value)
    (hmark : d'.mark = d.mark) : d' = d.map g := by
  cases d'
  unfold Datum.map
  rw [← hvalue, ← hmark]

/-- A scope with the values of all its variables changed. -/
def Scope.mapValues (g : Value → Value) (s : Scope) : Scope :=
  { s with bindings := s.bindings.map fun b => (b.1, b.2.map g) }

namespace Forest

/-- The forest with all values changed. -/
def mapValues (g : Value → Value) (f : Forest) : Forest := ⟨f.scopes.map (·.mapValues g)⟩

variable (g : Value → Value) (f : Forest)

@[simp] theorem mapValues_empty : empty.mapValues g = empty :=
  congrArg Forest.mk Array.map_empty

@[simp] theorem size_mapValues : (f.mapValues g).size = f.size := Array.size_map

@[simp] theorem parent?_mapValues (e : ScopeId) : (f.mapValues g).parent? e = f.parent? e := by
  unfold parent? mapValues
  rw [Array.getElem?_map]
  cases f.scopes[e]? <;> rfl

@[simp] theorem own?_mapValues (e : ScopeId) (n : Name) :
    (f.mapValues g).own? e n = (f.own? e n).map (·.map g) := by
  unfold own? mapValues
  rw [Array.getElem?_map]
  cases f.scopes[e]? with
  | none => rfl
  | some s => exact Pairs.lookup_map (·.map g) n s.bindings

@[simp] theorem owns_mapValues (e : ScopeId) (n : Name) :
    (f.mapValues g).owns e n = f.owns e n := by
  unfold owns
  rw [own?_mapValues, Option.isSome_map]

@[simp] theorem chain_mapValues (e : ScopeId) : (f.mapValues g).chain e = f.chain e :=
  chain_congr (f.parent?_mapValues g) e

@[simp] theorem owner?_mapValues (e : ScopeId) (n : Name) :
    (f.mapValues g).owner? e n = f.owner? e n :=
  owner?_congr (f.parent?_mapValues g) (fun x => f.owns_mapValues g x n) e

@[simp] theorem visits_mapValues (e : ScopeId) (n : Name) :
    (f.mapValues g).visits e n = f.visits e n := by
  unfold visits
  simp only [chain_mapValues, owns_mapValues]

@[simp] theorem get?_mapValues (e : ScopeId) (n : Name) :
    (f.mapValues g).get? e n = (f.get? e n).map (·.map g) := by
  unfold get?
  rw [chain_mapValues, List.map_findSome?]
  exact congrArg (List.findSome? · _) (funext fun x => f.own?_mapValues g x n)

theorem put_mapValues (e : ScopeId) (n : Name) (d : Datum) :
    (f.mapValues g).put e n (d.map g) = (f.put e n d).mapValues g := by
  have hscope : ∀ s : Scope, (s.mapValues g).put n (d.map g) = (s.put n d).mapValues g := by
    intro s
    exact congrArg (Scope.mk s.parent) (Pairs.map_put (Datum.map g) n d s.bindings).symm
  unfold put mapValues
  congr 1
  refine Array.ext_getElem? fun i => ?_
  rw [Array.getElem?_modify, Array.getElem?_map, Array.getElem?_map, Array.getElem?_modify]
  split
  · cases f.scopes[i]? with
    | none => rfl
    | some s => exact congrArg some (hscope s)
  · rfl

theorem set_mapValues (e : ScopeId) (n : Name) (d : Datum) :
    (f.mapValues g).set e n (d.map g) = (f.set e n d).mapValues g := by
  unfold set
  rw [owner?_mapValues, put_mapValues]

theorem setAll_mapValues (e : ScopeId) (bindings : List (Name × Datum)) :
    (f.mapValues g).setAll e (bindings.map fun b => (b.1, b.2.map g))
      = (f.setAll e bindings).mapValues g := by
  unfold setAll
  induction bindings generalizing f with
  | nil => rfl
  | cons b bindings ih => rw [List.map_cons, List.foldl_cons, List.foldl_cons, set_mapValues, ih]

theorem grow_mapValues (parent : Option ScopeId) :
    (f.mapValues g).grow parent = (f.grow parent).mapValues g := by
  unfold grow mapValues
  rw [Array.map_push]
  rfl

end Forest

end Scrawl
