/-
  Scrawl.Proofs.Scope.Moving — a scope that lies in one bare scope or in another.

  A scope that owns nothing adds nothing to what is seen from inside of it.  Where two such scopes lie
  side by side, nobody can tell in which of them a third one lies: if it is moved from one to the
  other, every name means the same in every scope, and is found as far outwards
  (`Beside.get?_move`, `Beside.visits_move`).  Setting names and making scopes comes to the same before
  and after the move, as long as the two scopes stay bare.
-/

import Mathlib.Data.List.Forall2
import Scrawl.Proofs.Scope.Growth

namespace Scrawl.Forest

/-! ## §1. Moving -/

/-- The forest with a scope moved into another one. -/
def move (f : Forest) (s p : ScopeId) : Forest :=
  ⟨f.scopes.modify s fun scope => { scope with parent := some p }⟩

section Move

variable (f : Forest) (s p : ScopeId)

@[simp] theorem size_move : (f.move s p).size = f.size := Array.size_modify

theorem parent?_move (e : ScopeId) :
    (f.move s p).parent? e = if e = s ∧ s < f.size then some (some p) else f.parent? e := by
  unfold parent? move size
  rw [Array.getElem?_modify]
  by_cases he : s = e
  · subst he
    rw [if_pos rfl]
    by_cases hsize : s < f.scopes.size
    · rw [if_pos ⟨rfl, hsize⟩, Array.getElem?_eq_getElem hsize]
      rfl
    · rw [if_neg fun h => hsize h.2, Array.getElem?_eq_none (Nat.not_lt.1 hsize)]
      rfl
  · rw [if_neg he, if_neg fun h => he h.1.symm]

@[simp] theorem own?_move (e : ScopeId) (n : Name) : (f.move s p).own? e n = f.own? e n := by
  unfold own? move
  rw [Array.getElem?_modify]
  split
  · cases f.scopes[e]? <;> rfl
  · rfl

@[simp] theorem owns_move (e : ScopeId) (n : Name) : (f.move s p).owns e n = f.owns e n :=
  congrArg Option.isSome (f.own?_move s p e n)

theorem put_move (e : ScopeId) (n : Name) (d : Datum) :
    (f.move s p).put e n d = (f.put e n d).move s p := by
  refine congrArg Forest.mk (Array.ext_getElem? fun i => ?_)
  unfold move put
  rw [Array.getElem?_modify, Array.getElem?_modify, Array.getElem?_modify, Array.getElem?_modify]
  split <;> split <;> cases f.scopes[i]? <;> rfl

theorem grow_move (hs : s < f.size) (parent : Option ScopeId) :
    (f.move s p).grow parent = (f.grow parent).move s p := by
  refine congrArg Forest.mk (Array.ext_getElem? fun i => ?_)
  unfold grow move
  rw [Array.getElem?_push, Array.getElem?_modify, Array.getElem?_modify, Array.getElem?_push,
    Array.size_modify]
  by_cases hi : i = f.scopes.size
  · rw [if_pos hi, if_pos hi, if_neg (hi ▸ Nat.ne_of_lt hs)]
  · rw [if_neg hi, if_neg hi]

/-- A new scope can be moved at once. -/
theorem move_grow (a : ScopeId) : (f.grow (some a)).move f.size p = f.grow (some p) := by
  refine congrArg Forest.mk (Array.ext_getElem? fun i => ?_)
  unfold grow size
  rw [Array.getElem?_modify, Array.getElem?_push, Array.getElem?_push]
  by_cases hi : i = f.scopes.size
  · rw [if_pos hi.symm, if_pos hi, if_pos hi]
    rfl
  · rw [if_neg (Ne.symm hi), if_neg hi, if_neg hi]

/-- A scope that is moved to where it lies stays there. -/
theorem move_self {f : Forest} {s p : ScopeId} (h : f.parent? s = some (some p)) : f.move s p = f := by
  refine congrArg Forest.mk (Array.ext_getElem? fun i => ?_)
  rw [Array.getElem?_modify]
  split
  · next hi =>
    subst hi
    unfold parent? at h
    cases hs : f.scopes[s]? with
    | none => rfl
    | some scope =>
      rw [hs] at h
      have hparent : scope.parent = some p := Option.some.inj h
      rw [Option.map_some, ← hparent]
  · rfl

end Move

/-! ## §2. Bare scopes side by side -/

/-- A scope owns nothing. -/
def Bare (f : Forest) (e : ScopeId) : Prop := ∀ n, f.owns e n = false

/-- What owns nothing later on has owned nothing before. -/
theorem Bare.before {f g : Forest} {e : ScopeId} (h : g.Bare e)
    (howns : ∀ {n}, f.owns e n = true → g.owns e n = true) : f.Bare e :=
  fun n => Bool.eq_false_iff.2 fun ho => Bool.eq_false_iff.1 (h n) (howns ho)

/-- Names that are set elsewhere leave a scope bare. -/
theorem Bare.set {f : Forest} {e x : ScopeId} (h : f.Bare x) (hne : e ≠ x) (n : Name) (d : Datum) :
    (f.set e n d).Bare x := by
  refine fun m => Bool.eq_false_iff.2 fun ho => ?_
  rcases owns_set_cases ho with ho | ⟨rfl, -, -⟩
  · exact Bool.eq_false_iff.1 (h m) ho
  · exact hne rfl

/-- So do new scopes. -/
theorem Bare.newScope {f : Forest} {x : ScopeId} (h : f.Bare x) (hx : x < f.size) (rules : Rules)
    (addons : List (Value × Value)) (parent : Option ScopeId) :
    (f.newScope rules addons parent).Bare x := by
  refine fun m => Bool.eq_false_iff.2 fun ho => ?_
  rcases owns_newScope_cases ho with ho | ⟨rfl, -, -⟩
  · exact Bool.eq_false_iff.1 (h m) ho
  · exact Nat.lt_irrefl _ hx

/-- Two scopes lie in the same one, `q`, and another one, `s`, in the first of them. -/
structure Beside (f : Forest) (q a b s : ScopeId) : Prop where
  /-- The first one. -/
  first : f.parent? a = some (some q)
  /-- The second one. -/
  second : f.parent? b = some (some q)
  /-- What lies in the first one. -/
  inside : f.parent? s = some (some a)
  /-- The second one was made before that. -/
  before : b < s

namespace Beside

variable {f g : Forest} {q a b s : ScopeId}

theorem of_le (h : f.Beside q a b s) (hfg : f ≤ g) : g.Beside q a b s :=
  ⟨hfg _ _ h.first, hfg _ _ h.second, hfg _ _ h.inside, h.before⟩

theorem parent?_move_self (h : f.Beside q a b s) : (f.move s b).parent? s = some (some b) := by
  rw [parent?_move, if_pos ⟨rfl, lt_size_of_parent? h.inside⟩]

theorem parent?_move_of_ne {e : ScopeId} (hne : e ≠ s) : (f.move s b).parent? e = f.parent? e := by
  rw [parent?_move, if_neg fun h => hne h.1]

theorem ordered_move (h : f.Beside q a b s) (hf : f.Ordered) : (f.move s b).Ordered := by
  intro e p hp
  by_cases he : e = s
  · rw [he, h.parent?_move_self] at hp
    rw [he, ← Option.some.inj (Option.some.inj hp)]
    exact h.before
  · rw [parent?_move_of_ne he] at hp
    exact hf e p hp

/-! ## §3. What is seen -/

/-- **Chains before and after the move** differ in nothing but that one of the two scopes stands where
    the other one did. -/
theorem chain_move (h : f.Beside q a b s) (hf : f.Ordered) (e : ScopeId) :
    List.Forall₂ (fun x y => x = y ∨ x = a ∧ y = b) (f.chain e) ((f.move s b).chain e) := by
  have hmoved := h.ordered_move hf
  induction e using Nat.strongRecOn with
  | ind e ih =>
    by_cases he : e = s
    · -- from the moved scope on, the chains go through the two scopes and meet again
      subst he
      have hbefore : q < e := Nat.lt_trans (hf a q h.first) (hf e a h.inside)
      have hb : (f.move e b).parent? b = some (some q) := by
        rw [parent?_move_of_ne (Nat.ne_of_lt h.before), h.second]
      rw [hf.chain_child h.inside, hf.chain_child h.first, hmoved.chain_child h.parent?_move_self,
        hmoved.chain_child hb]
      exact .cons (.inl rfl) (.cons (.inr ⟨rfl, rfl⟩) (ih q hbefore))
    · have hsame : (f.move s b).parent? e = f.parent? e := parent?_move_of_ne he
      cases hparent : f.parent? e with
      | none =>
        unfold chain
        rw [chainFrom_missing _ hparent, chainFrom_missing _ (hsame.trans hparent)]
        exact .nil
      | some parent =>
        cases parent with
        | none =>
          rw [chain_root hparent, chain_root (hsame.trans hparent)]
          exact .cons (.inl rfl) .nil
        | some p =>
          rw [hf.chain_child hparent, hmoved.chain_child (hsame.trans hparent)]
          exact .cons (.inl rfl) (ih p (hf e p hparent))

theorem length_chain_move (h : f.Beside q a b s) (hf : f.Ordered) (e : ScopeId) :
    ((f.move s b).chain e).length = (f.chain e).length :=
  (h.chain_move hf e).length_eq.symm

variable (h : f.Beside q a b s) (hf : f.Ordered) (ha : f.Bare a) (hb : f.Bare b)
include h hf ha hb

/-- What the scopes on a chain own is the same, one after the other. -/
theorem map_own?_chain (e : ScopeId) (n : Name) :
    ((f.move s b).chain e).map (f.own? · n) = (f.chain e).map (f.own? · n) := by
  have hnone : ∀ {x}, f.Bare x → f.own? x n = none := fun hx =>
    Option.isNone_iff_eq_none.1 (Option.isSome_eq_false_iff.1 (hx n))
  symm
  rw [← List.forall₂_eq_eq_eq, List.forall₂_map_left_iff, List.forall₂_map_right_iff]
  refine (h.chain_move hf e).imp fun x y hxy => ?_
  rcases hxy with rfl | ⟨rfl, rfl⟩
  · rfl
  · rw [hnone ha, hnone hb]

/-- **Every name means the same in every scope.** -/
theorem get?_move (e : ScopeId) (n : Name) : (f.move s b).get? e n = f.get? e n := by
  have hmap := congrArg (List.findSome? id) (h.map_own?_chain hf ha hb e n)
  unfold get?
  simp only [own?_move]
  rwa [List.findSome?_map, List.findSome?_map] at hmap

/-- It is found as far outwards. -/
theorem visits_move (e : ScopeId) (n : Name) : (f.move s b).visits e n = f.visits e n := by
  have hfound : ((f.move s b).chain e).findIdx? (f.owns · n) = (f.chain e).findIdx? (f.owns · n) := by
    have hmap := congrArg (List.findIdx? Option.isSome) (h.map_own?_chain hf ha hb e n)
    rwa [List.findIdx?_map, List.findIdx?_map] at hmap
  unfold visits
  simp only [owns_move]
  rw [hfound, h.length_chain_move hf]

/-- The same scope owns it. -/
theorem owner?_move (e : ScopeId) (n : Name) : (f.move s b).owner? e n = f.owner? e n := by
  unfold owner?
  simp only [owns_move]
  generalize hchain : f.chain e = l
  generalize hchain' : (f.move s b).chain e = l'
  have hboth := h.chain_move hf e
  rw [hchain, hchain'] at hboth
  clear hchain hchain'
  induction hboth with
  | nil => rfl
  | cons hxy _ ih =>
    rcases hxy with rfl | ⟨rfl, rfl⟩
    · rw [List.find?_cons, List.find?_cons, ih]
    -- neither of the two scopes is the owner
    · rw [List.find?_cons_of_neg (by rw [hb n]; exact Bool.false_ne_true),
        List.find?_cons_of_neg (by rw [ha n]; exact Bool.false_ne_true), ih]

/-! ## §4. What is done -/

theorem set_move (e : ScopeId) (n : Name) (d : Datum) :
    (f.move s b).set e n d = (f.set e n d).move s b := by
  unfold set
  rw [h.owner?_move hf ha hb, put_move]

omit ha hb in
/-- Names are set alike if the two scopes are bare in the end. -/
theorem setAll_move {e : ScopeId} {bindings : List (Name × Datum)}
    (ha : (f.setAll e bindings).Bare a) (hb : (f.setAll e bindings).Bare b) :
    (f.move s b).setAll e bindings = (f.setAll e bindings).move s b := by
  induction bindings generalizing f with
  | nil => rfl
  | cons binding bindings ih =>
    rw [setAll_cons] at ha hb ⊢
    -- nothing is ever lost, so the two scopes are bare at every step on the way
    have hset := h.set_move hf (ha.before fun ho => owns_setAll (owns_set ho))
      (hb.before fun ho => owns_setAll (owns_set ho)) e binding.1 binding.2
    rw [setAll_cons, hset]
    exact ih (h.of_le (f.le_set e _ _)) (hf.congr fun x => f.parent?_set e x _ _) ha hb

omit ha hb in
theorem newScope_move {rules : Rules} {addons : List (Value × Value)} {parent : Option ScopeId}
    (hparent : ∀ p, parent = some p → p < f.size) (ha : (f.newScope rules addons parent).Bare a)
    (hb : (f.newScope rules addons parent).Bare b) :
    (f.move s b).newScope rules addons parent = (f.newScope rules addons parent).move s b := by
  have hgrown : (f.grow parent).Beside q a b s := h.of_le fun e parent' he => by
    rw [parent?_grow, if_neg (Nat.ne_of_lt (lt_size_of_parent? he)), he]
  unfold newScope at ha hb ⊢
  dsimp only at ha hb ⊢
  rw [grow_move _ _ _ (lt_size_of_parent? h.inside), size_move]
  split
  · next hsets =>
    rw [if_pos hsets] at ha hb
    exact hgrown.setAll_move (hf.grow hparent) ha hb
  · rfl

omit ha hb in
theorem refresh_move {addons : List (Value × Value)} {count : Nat}
    (ha : (f.refresh addons count).Bare a) (hb : (f.refresh addons count).Bare b) :
    (f.move s b).refresh addons count = (f.refresh addons count).move s b := by
  induction count with
  | zero => rfl
  | succ count ih =>
    rw [refresh_succ] at ha hb ⊢
    rw [refresh_succ, ih (ha.before owns_setAll) (hb.before owns_setAll)]
    exact (h.of_le (f.le_refresh addons count)).setAll_move
      (hf.congr fun e => f.parent?_refresh addons count e) ha hb

end Beside

/-- A scope made inside the first of the two scopes is one made inside the second, moved. -/
theorem newScope_beside {f : Forest} (hf : f.Ordered) {q a b : ScopeId}
    (ha : f.parent? a = some (some q)) (hb : f.parent? b = some (some q)) {rules : Rules}
    {addons : List (Value × Value)} (hbare : (f.newScope rules addons (some a)).Bare a)
    (hbare' : (f.newScope rules addons (some a)).Bare b) :
    f.newScope rules addons (some b) = (f.newScope rules addons (some a)).move f.size b := by
  have hsets : rules.sets (some b) = rules.sets (some a) := rfl
  have hkept : ∀ {e parent}, f.parent? e = some parent → (f.grow (some a)).parent? e = some parent :=
    fun he => by rw [parent?_grow, if_neg (Nat.ne_of_lt (lt_size_of_parent? he)), he]
  have hgrown : (f.grow (some a)).Beside q a b f.size :=
    ⟨hkept ha, hkept hb, by rw [parent?_grow, if_pos rfl], lt_size_of_parent? hb⟩
  have hordered : (f.grow (some a)).Ordered :=
    hf.grow fun p hp => Option.some.inj hp ▸ lt_size_of_parent? ha
  unfold newScope at hbare hbare' ⊢
  dsimp only at hbare hbare' ⊢
  rw [← f.move_grow b a, hsets]
  split
  · next hrestores =>
    rw [if_pos hrestores] at hbare hbare'
    exact hgrown.setAll_move hordered hbare hbare'
  · rfl

end Scrawl.Forest
