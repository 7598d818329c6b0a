/-
  Scrawl.Proofs.Scope.Restoring — setting names again.

  A new scope inside another one sets all names of the language and of the add-ons once more.  As
  long as the outermost scopes still have all of them, with the values they were given, and no inner
  scope has any (`Forest.Settled`), this changes nothing (`Forest.Settled.setAll_eq`).  A name may
  be among those set more than once, so a single step can make a difference; only all of them
  together make none.
-/

import Mathlib.Data.List.Induction
import Scrawl.Proofs.Scope.Growth

namespace Scrawl

/-! ## §1. Setting twice -/

namespace Pairs

variable {α β : Type} [BEq α] [LawfulBEq α]

/-- The last value set stands. -/
theorem put_put (key : α) (v v' : β) (pairs : List (α × β)) :
    put key v' (put key v pairs) = put key v' pairs := by
  induction pairs with
  | nil => simp only [put, if_pos (beq_self_eq_true key)]
  | cons pair pairs ih =>
    obtain ⟨k, u⟩ := pair
    by_cases h : (k == key) = true
    · simp only [put, if_pos h]
    · simp only [put, if_neg h, ih]

/-- Values of different keys can be set in any order if one of the keys has its place already. -/
theorem put_comm {key key' : α} (hne : key ≠ key') (v v' : β) {pairs : List (α × β)}
    (h : (pairs.lookup key).isSome = true) :
    put key v (put key' v' pairs) = put key' v' (put key v pairs) := by
  induction pairs with
  | nil => cases h
  | cons pair pairs ih =>
    obtain ⟨k, u⟩ := pair
    by_cases hk : k = key
    · subst hk
      have hother : ¬(k == key') = true := fun heq => hne (eq_of_beq heq)
      simp only [put, if_neg hother, if_pos (beq_self_eq_true k)]
    · have hfirst : ¬(k == key) = true := fun heq => hk (eq_of_beq heq)
      rw [List.lookup_cons, beq_eq_false_iff_ne.2 (Ne.symm hk)] at h
      by_cases hk' : (k == key') = true
      · simp only [put, if_pos hk', if_neg hfirst]
      · simp only [put, if_neg hk', if_neg hfirst, ih h]

end Pairs

namespace Forest

variable {f : Forest} {e e' : ScopeId} {n n' : Name}

theorem put_put (d d' : Datum) : (f.put e n d).put e n d' = f.put e n d' := by
  have hscope : ∀ s : Scope, (s.put n d).put n d' = s.put n d' := fun s =>
    congrArg (Scope.mk s.parent) (Pairs.put_put n d d' s.bindings)
  refine congrArg Forest.mk (Array.ext_getElem? fun i => ?_)
  unfold put
  rw [Array.getElem?_modify, Array.getElem?_modify, Array.getElem?_modify]
  split
  · cases f.scopes[i]? with
    | none => rfl
    | some s => exact congrArg some (hscope s)
  · rfl

/-- Different names can be set in any order if one of them is owned already. -/
theorem put_comm (hne : n ≠ n') (hown : f.owns e n = true) (d d' : Datum) :
    (f.put e' n' d').put e n d = (f.put e n d).put e' n' d' := by
  refine congrArg Forest.mk (Array.ext_getElem? fun i => ?_)
  unfold put
  rw [Array.getElem?_modify, Array.getElem?_modify, Array.getElem?_modify, Array.getElem?_modify]
  by_cases hi : e = i
  · subst hi
    rw [if_pos rfl, if_pos rfl]
    split
    · cases hs : f.scopes[e]? with
      | none => rfl
      | some s =>
        have hlookup : (s.bindings.lookup n).isSome = true := by
          unfold owns own? at hown
          rw [hs] at hown
          exact hown
        exact congrArg (fun b => some (Scope.mk s.parent b))
          (Pairs.put_comm hne d d' hlookup)
    · rfl
  · rw [if_neg hi, if_neg hi]

theorem put_grow (he : e < f.size) (parent : Option ScopeId) (d : Datum) :
    (f.grow parent).put e n d = (f.put e n d).grow parent := by
  refine congrArg Forest.mk (Array.ext_getElem? fun i => ?_)
  unfold grow put
  rw [Array.getElem?_modify, Array.getElem?_push, Array.getElem?_push, Array.getElem?_modify,
    Array.size_modify]
  by_cases hi : i = f.scopes.size
  · rw [if_pos hi, if_pos hi, if_neg (hi ▸ Nat.ne_of_lt he)]
  · rw [if_neg hi, if_neg hi]

/-! ## §2. Setting many own variables -/

/-- The forest with several own variables of one scope set in turn. -/
def putAll (f : Forest) (e : ScopeId) (bindings : List (Name × Datum)) : Forest :=
  bindings.foldl (fun f b => f.put e b.1 b.2) f

variable {bindings : List (Name × Datum)}

theorem putAll_cons (b : Name × Datum) :
    f.putAll e (b :: bindings) = (f.put e b.1 b.2).putAll e bindings := rfl

theorem owns_putAll (h : f.owns e' n = true) : (f.putAll e bindings).owns e' n = true := by
  induction bindings generalizing f with
  | nil => exact h
  | cons b bindings ih => exact ih (owns_put.2 (.inl h))

theorem owns_putAll_of_mem (he : e < f.size) {b : Name × Datum} (hb : b ∈ bindings) :
    (f.putAll e bindings).owns e b.1 = true := by
  induction bindings generalizing f with
  | nil => exact nomatch hb
  | cons b' bindings ih =>
    rcases List.mem_cons.1 hb with rfl | hb
    · rw [putAll_cons]
      exact owns_putAll (owns_put.2 (.inr ⟨rfl, rfl, he⟩))
    · exact ih (by rwa [size_put]) hb

/-- Setting another name, in any scope, can come before or after. -/
theorem putAll_put_comm (hown : ∀ b ∈ bindings, f.owns e b.1 = true)
    (hne : ∀ b ∈ bindings, b.1 ≠ n) (d : Datum) :
    (f.put e' n d).putAll e bindings = (f.putAll e bindings).put e' n d := by
  induction bindings generalizing f with
  | nil => rfl
  | cons b bindings ih =>
    rw [putAll_cons, putAll_cons,
      put_comm (hne b List.mem_cons_self) (hown b List.mem_cons_self)]
    exact ih (fun c hc => owns_put.2 (.inl (hown c (List.mem_cons_of_mem b hc))))
      fun c hc => hne c (List.mem_cons_of_mem b hc)

/-- What one of the names was set to before makes no difference. -/
theorem putAll_put_of_mem (hown : ∀ b ∈ bindings, f.owns e b.1 = true)
    (hn : ∃ b ∈ bindings, b.1 = n) (d : Datum) :
    (f.put e n d).putAll e bindings = f.putAll e bindings := by
  induction bindings generalizing f with
  | nil => obtain ⟨b, hb, -⟩ := hn; exact nomatch hb
  | cons b bindings ih =>
    rw [putAll_cons, putAll_cons]
    by_cases hb : b.1 = n
    · rw [← hb, put_put]
    · rw [put_comm hb (hown b List.mem_cons_self)]
      refine ih (fun c hc => owns_put.2 (.inl (hown c (List.mem_cons_of_mem b hc)))) ?_
      obtain ⟨c, hc, hcn⟩ := hn
      rcases List.mem_cons.1 hc with rfl | hc
      · exact absurd hcn hb
      · exact ⟨c, hc, hcn⟩

/-- **Setting everything a second time changes nothing.** -/
theorem putAll_putAll (he : e < f.size) :
    (f.putAll e bindings).putAll e bindings = f.putAll e bindings := by
  -- by induction on how many were set: the last one was set either before, too, or only now
  induction bindings using List.reverseRecOn with
  | nil => rfl
  | append_singleton bindings b ih =>
    have hsnoc : ∀ g : Forest,
        g.putAll e (bindings ++ [b]) = (g.putAll e bindings).put e b.1 b.2 := by
      intro g
      unfold putAll
      rw [List.foldl_append]
      rfl
    have hown : ∀ c ∈ bindings, (f.putAll e bindings).owns e c.1 = true := fun c hc =>
      owns_putAll_of_mem he hc
    rw [hsnoc, hsnoc]
    by_cases hb : ∃ c ∈ bindings, c.1 = b.1
    · rw [putAll_put_of_mem hown hb, ih]
    · rw [putAll_put_comm hown (fun c hc hcb => hb ⟨c, hc, hcb⟩), ih, put_put]

theorem putAll_grow (he : e < f.size) (parent : Option ScopeId) :
    (f.grow parent).putAll e bindings = (f.putAll e bindings).grow parent := by
  induction bindings generalizing f with
  | nil => rfl
  | cons b bindings ih =>
    rw [putAll_cons, putAll_cons, put_grow he]
    exact ih (by rwa [size_put])

/-! ## §3. From setting to own variables -/

theorem owner?_put (hown : f.owns e' n' = true) (d : Datum) :
    (f.put e' n' d).owner? e n = f.owner? e n := by
  refine owner?_congr (fun x => f.parent?_put e' x n' d) (fun x => ?_) e
  rw [Bool.eq_iff_iff, owns_put]
  exact ⟨fun h => h.elim id fun ⟨hx, hn, _⟩ => hx ▸ hn ▸ hown, .inl⟩

/-- Other names have the owners that they had. -/
theorem owner?_put_of_ne (hne : n ≠ n') (d : Datum) : (f.put e' n' d).owner? e n = f.owner? e n := by
  refine owner?_congr (fun x => f.parent?_put e' x n' d) (fun x => ?_) e
  rw [Bool.eq_iff_iff, owns_put]
  exact ⟨fun h => h.elim id fun hnew => absurd hnew.2.1 hne, .inl⟩

/-- Names that all belong to one scope are set there. -/
theorem setAll_eq_putAll (h : ∀ b ∈ bindings, f.owner? e b.1 = some e') :
    f.setAll e bindings = f.putAll e' bindings := by
  induction bindings generalizing f with
  | nil => rfl
  | cons b bindings ih =>
    have howner := h b List.mem_cons_self
    have hset : f.set e b.1 b.2 = f.put e' b.1 b.2 := by
      unfold set
      rw [howner]
      rfl
    rw [setAll_cons, putAll_cons, hset]
    refine ih fun c hc => ?_
    rw [owner?_put (owns_owner howner)]
    exact h c (List.mem_cons_of_mem b hc)

/-- An outermost scope sets its own variables. -/
theorem setAll_root (h : f.parent? e = some none) :
    f.setAll e bindings = f.putAll e bindings := by
  induction bindings generalizing f with
  | nil => rfl
  | cons b bindings ih =>
    have hset : f.set e b.1 b.2 = f.put e b.1 b.2 := by
      unfold set owner?
      rw [chain_root h, List.find?_singleton]
      split <;> rfl
    rw [setAll_cons, putAll_cons, hset]
    exact ih (by rwa [parent?_put])

/-! ## §4. Settled forests -/

/-- Some names belong to the outermost scopes, and have the values they were given. -/
structure Settled (f : Forest) (bindings : List (Name × Datum)) : Prop where
  /-- Parents come before their children. -/
  ordered : f.Ordered
  /-- Outermost scopes own the names. -/
  roots : ∀ {e}, f.parent? e = some none → ∀ b ∈ bindings, f.owns e b.1 = true
  /-- Setting them there again changes nothing. -/
  restored : ∀ {e}, f.parent? e = some none → f.putAll e bindings = f
  /-- Inner scopes own none of the names. -/
  inner : ∀ {e p}, f.parent? e = some (some p) → ∀ b ∈ bindings, f.owns e b.1 = false

namespace Settled

/-- Seen from any scope, all the names belong to one and the same outermost scope. -/
theorem exists_owner (h : f.Settled bindings) (e : ScopeId) (he : e < f.size) :
    ∃ root, f.parent? root = some none ∧ ∀ b ∈ bindings, f.owner? e b.1 = some root := by
  induction e using Nat.strongRecOn with
  | ind e ih =>
    obtain ⟨parent, hparent⟩ := exists_parent? he
    unfold owner?
    cases parent with
    | none =>
      refine ⟨e, hparent, fun b hb => ?_⟩
      rw [chain_root hparent, List.find?_singleton, if_pos (h.roots hparent b hb)]
    | some p =>
      have hpe : p < e := h.ordered e p hparent
      obtain ⟨root, hroot, howner⟩ := ih p hpe (Nat.lt_trans hpe he)
      refine ⟨root, hroot, fun b hb => ?_⟩
      rw [h.ordered.chain_child hparent, List.find?_cons_of_neg
        (by rw [h.inner hparent b hb]; exact Bool.false_ne_true)]
      exact howner b hb

/-- **Setting the names again changes nothing**, from whichever scope. -/
theorem setAll_eq (h : f.Settled bindings) (he : e < f.size) : f.setAll e bindings = f := by
  obtain ⟨root, hroot, howner⟩ := h.exists_owner e he
  rw [setAll_eq_putAll howner, h.restored hroot]

/-- Setting any other name leaves a forest settled. -/
theorem set (h : f.Settled bindings) (hn : ∀ b ∈ bindings, b.1 ≠ n) (d : Datum) :
    (f.set e n d).Settled bindings where
  ordered := h.ordered.congr fun x => f.parent?_set e x n d
  roots hroot b hb := owns_set (h.roots (f.parent?_set e _ n d ▸ hroot) b hb)
  restored hroot := by
    rw [parent?_set] at hroot
    unfold Forest.set
    rw [putAll_put_comm (h.roots hroot) hn, h.restored hroot]
  inner hparent b hb := by
    rw [parent?_set] at hparent
    refine Bool.eq_false_iff.2 fun hown => ?_
    rcases owns_set_cases hown with hown | ⟨-, hbn, -⟩
    · rw [h.inner hparent b hb] at hown
      cases hown
    · exact hn b hb hbn

/-- So does making a scope inside another one. -/
theorem grow (h : f.Settled bindings) {p : ScopeId} (hp : p < f.size) :
    (f.grow (some p)).Settled bindings where
  ordered := h.ordered.grow fun q hq => Option.some.inj hq ▸ hp
  roots hroot b hb := by
    rw [parent?_grow] at hroot
    split at hroot
    · cases hroot
    · rw [owns_grow]
      exact h.roots hroot b hb
  restored hroot := by
    rw [parent?_grow] at hroot
    split at hroot
    · cases hroot
    · rw [putAll_grow (lt_size_of_parent? hroot), h.restored hroot]
  inner hparent b hb := by
    rw [owns_grow]
    rw [parent?_grow] at hparent
    split at hparent
    · next heq =>
      unfold owns
      rw [f.own?_eq_none (Nat.le_of_eq heq.symm)]
      rfl
    · exact h.inner hparent b hb

/-- **A new inner scope need not set the names again.** -/
theorem newScope_eq {addons : List (Value × Value)}
    (h : f.Settled (standardBindings ++ addonBindings addons)) (rules : Rules) {p : ScopeId}
    (hp : p < f.size) : f.newScope rules addons (some p) = f.grow (some p) := by
  unfold newScope
  dsimp only
  split
  · exact (h.grow hp).setAll_eq (by rw [size_grow]; exact Nat.lt_succ_self _)
  · rfl

end Settled

/-- A first scope, once it has been made, is settled. -/
theorem settled_first (rules : Rules) (addons : List (Value × Value)) :
    (Forest.empty.newScope rules addons none).Settled
      (standardBindings ++ addonBindings addons) := by
  have hparent : ∀ e parent, (Forest.empty.newScope rules addons none).parent? e = some parent →
      e = 0 ∧ parent = none := by
    intro e parent h
    rw [parent?_newScope] at h
    split at h
    · next he => exact ⟨he, (Option.some.inj h).symm⟩
    · cases h
  have hroot : (Forest.empty.grow none).parent? 0 = some none := rfl
  have hnew : Forest.empty.newScope rules addons none
      = (Forest.empty.grow none).putAll 0 (standardBindings ++ addonBindings addons) := by
    rw [← setAll_root hroot]
    rfl
  refine ⟨fun e p h => ?_, fun {e} h b hb => ?_, fun {e} h => ?_, fun {e p} h => ?_⟩
  · exact nomatch (hparent e _ h).2
  · obtain ⟨rfl, -⟩ := hparent e _ h
    rw [hnew]
    exact owns_putAll_of_mem (Nat.lt_succ_self 0) hb
  · obtain ⟨rfl, -⟩ := hparent e _ h
    rw [hnew, putAll_putAll (Nat.lt_succ_self 0)]
  · exact nomatch (hparent e _ h).2

end Forest

end Scrawl
