/-
  Scrawl.Proofs.Scope.Inner — scopes inside others.

  A name that an inner scope does not own itself belongs to whoever owns it around
  (`Forest.Ordered.owner?_child`).  Making a scope gives nobody a name of its own, so it stays as it was
  who owns what, and the new scope has the owners of the one around it (`World.ScopeMade.owner?_new`).
-/

import Scrawl.Proofs.Scope.StandardValues

namespace Scrawl

namespace Forest

variable {f : Forest} {e p : ScopeId} {n : Name}

/-! ## §1. Owners around a scope -/

theorem owner?_self (he : e < f.size) (hown : f.owns e n = true) : f.owner? e n = some e := by
  obtain ⟨rest, hchain⟩ := chain_eq_cons he
  unfold owner?
  rw [hchain]
  exact List.find?_cons_of_pos hown

/-- What an inner scope does not own is looked for around it. -/
theorem Ordered.owner?_child (h : f.Ordered) (hp : f.parent? e = some (some p))
    (hown : f.owns e n = false) : f.owner? e n = f.owner? p n := by
  unfold owner?
  rw [h.chain_child hp]
  exact List.find?_cons_of_neg (Bool.eq_false_iff.1 hown)

theorem Ordered.get?_child (h : f.Ordered) (hp : f.parent? e = some (some p))
    (hown : f.owns e n = false) : f.get? e n = f.get? p n := by
  unfold get?
  rw [h.chain_child hp, List.findSome?_cons, owns_eq_false.1 hown]

/-- **Setting a name, exactly**: its target gets the value, and every other own variable is as it
    was. -/
theorem own?_set (he : e < f.size) (d : Datum) (x : ScopeId) (m : Name) :
    (f.set e n d).own? x m = if x = f.target e n ∧ m = n then some d else f.own? x m := by
  rw [set_eq_put, own?_put]
  simp only [target_lt_size he, and_true]

/-- Then the name has that value. -/
theorem get?_set (he : e < f.size) (d : Datum) : (f.set e n d).get? e n = some d := by
  rw [get?_eq_own?_target (by rwa [size_set]), target_set he, own?_set he, if_pos ⟨rfl, rfl⟩]

/-- All other names mean what they did, everywhere. -/
theorem get?_set_of_ne {m : Name} (he : e < f.size) (hne : m ≠ n) (d : Datum) (x : ScopeId) :
    (f.set e n d).get? x m = f.get? x m := by
  unfold get?
  rw [chain_set]
  refine congrArg (List.findSome? · _) (funext fun y => ?_)
  rw [own?_set he, if_neg fun h => hne h.2]

theorem has_eq_isSome (f : Forest) (e : ScopeId) (n : Name) : f.has e n = (f.owner? e n).isSome := rfl

/-- No more scopes are visited than there are around. -/
theorem visits_le (f : Forest) (e : ScopeId) (n : Name) : f.visits e n ≤ (f.chain e).length := by
  unfold visits
  split
  · next i hi => exact (List.findIdx?_eq_some_iff_getElem.1 hi).1
  · exact Nat.le_refl _

end Forest

/-! ## §2. Owners once a scope has been made -/

namespace World.ScopeMade

variable {w w' : World} {p e : ScopeId} {n : Name} (h : w.ScopeMade p w')
include h

/-- A new scope gives nobody a name of its own, and takes none. -/
theorem owns_eq (e : ScopeId) (n : Name) : w'.forest.owns e n = w.forest.owns e n := by
  by_cases hset : w.Known n ∧ w.forest.owner? p n = some e
  · -- the name is set where it was owned already
    obtain ⟨d, o, -, ho, hown⟩ := h.restored n hset.1
    obtain rfl : e = o := Option.some.inj (hset.2.symm.trans ho)
    rw [Forest.owns_owner ho]
    exact congrArg Option.isSome hown
  · exact congrArg Option.isSome (h.kept e n hset)

theorem ordered (hw : w.forest.Ordered) (hp : p < w.forest.size) : w'.forest.Ordered := by
  intro e q hq
  rw [h.parent] at hq
  split at hq
  · next he =>
    obtain rfl : p = q := Option.some.inj (Option.some.inj hq)
    exact he ▸ hp
  · exact hw e q hq

theorem forest_le : w.forest ≤ w'.forest := by
  intro e parent he
  rw [h.parent, if_neg (Nat.ne_of_lt (Forest.lt_size_of_parent? he))]
  exact he

theorem lies : w'.forest.parent? w.forest.size = some (some p) := by
  rw [h.parent, if_pos rfl]

theorem chain_eq (hw : w.forest.Ordered) (hp : p < w.forest.size) (he : e < w.forest.size) :
    w'.forest.chain e = w.forest.chain e :=
  hw.chain_of_le (h.ordered hw hp) h.forest_le he

theorem owner?_eq (hw : w.forest.Ordered) (hp : p < w.forest.size) (he : e < w.forest.size)
    (n : Name) : w'.forest.owner? e n = w.forest.owner? e n := by
  unfold Forest.owner?
  rw [h.chain_eq hw hp he, funext fun x => h.owns_eq x n]

/-- **The new scope has the owners of the one around it.** -/
theorem owner?_new (hw : w.forest.Ordered) (hp : p < w.forest.size) (n : Name) :
    w'.forest.owner? w.forest.size n = w.forest.owner? p n := by
  have hbare : w'.forest.owns w.forest.size n = false := congrArg Option.isSome (h.bare n)
  rw [(h.ordered hw hp).owner?_child h.lies hbare, h.owner?_eq hw hp hp]

end World.ScopeMade

/-! ## §3. Names around a scope, later on -/

section Later

variable {w w' : World} {e p : ScopeId} {n : Name}

theorem Evolves.forest_le (h : Evolves w w') : w.forest ≤ w'.forest := by
  intro e parent he
  rw [h.parent?_eq (Forest.lt_size_of_parent? he)]
  exact he

/-- What a scope knows it knows later on. -/
theorem Evolves.has (h : Evolves w w') (hw : w.Standing) (he : e < w.forest.size)
    (hn : w.forest.has e n = true) : w'.forest.has e n = true := by
  rw [Forest.has_iff] at hn ⊢
  obtain ⟨x, hx, hown⟩ := hn
  rw [hw.ordered.chain_of_le (h.standing hw).ordered h.forest_le he]
  exact ⟨x, hx, h.owns hown⟩

/-- **An inner scope comes to own no name that is known around it.** -/
theorem Change.unowned (h : Change w w') (hw : w.Standing) (hp : w.forest.parent? e = some (some p))
    (hknown : w.forest.has p n = true) (hown : w.forest.owns e n = false) :
    w'.forest.owns e n = false := by
  have hhas : w.forest.has e n = true := by
    rw [Forest.has_eq_isSome, hw.ordered.owner?_child hp hown]
    exact hknown
  have hnot := Bool.eq_false_iff.1 hown
  refine Bool.eq_false_iff.2 fun ho => ?_
  cases h with
  | aside hforest _ =>
    rw [hforest] at ho
    exact hnot ho
  | set _ hforest _ =>
    rw [hforest] at ho
    rcases Forest.owns_set_cases ho with ho | ⟨rfl, rfl, hunknown⟩
    · exact hnot ho
    · rw [hhas] at hunknown
      cases hunknown
  | scope _ hforest _ =>
    rw [hforest] at ho
    rcases Forest.owns_newScope_cases ho with ho | ⟨rfl, -, -⟩
    · exact hnot ho
    · exact Nat.lt_irrefl _ (Forest.lt_size_of_parent? hp)
  | register _ hforest _ =>
    rw [hforest] at ho
    rcases Forest.owns_refresh_cases ho with ho | ⟨-, -, hunknown⟩
    · exact hnot ho
    · -- what was known before the turn of the scope comes is known then
      rw [Forest.has_mono (w.forest.parent?_refresh _ _) Forest.owns_refresh hhas] at hunknown
      cases hunknown

theorem Evolves.unowned (h : Evolves w w') (hw : w.Standing)
    (hp : w.forest.parent? e = some (some p)) (hknown : w.forest.has p n = true)
    (hown : w.forest.owns e n = false) : w'.forest.owns e n = false := by
  have hlt : p < w.forest.size := Nat.lt_trans (hw.ordered e p hp) (Forest.lt_size_of_parent? hp)
  induction h with
  | refl => exact hown
  | tail hbefore hchange ih =>
    exact hchange.unowned (Evolves.standing hbefore hw) (Evolves.forest_le hbefore _ _ hp)
      (Evolves.has hbefore hw hlt hknown) ih

end Later

end Scrawl
