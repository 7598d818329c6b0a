/-
  Scrawl.Proofs.Scope.Resolution — how names are resolved, before and after one of them is set.

  A name is resolved by the NEAREST scope that owns it, going outwards from parent to parent
  (`Forest.Nearest`).  Setting a name changes one own variable in the whole forest, and whoever then has
  the scope of that variable as the nearest owner sees the change; everybody else resolves every name as
  before (`Forest.ResolvesAlike`).  Names that are set in either order only differ in the order in which
  a scope lists the two if it comes to own both (`Forest.Relisted`).
-/

import Scrawl.Proofs.Scope.Inner

namespace Scrawl

/-! ## §1. Keys and their places -/

namespace Pairs

variable {α β : Type} [BEq α] [LawfulBEq α]

/-- A new key comes last. -/
theorem put_of_lookup_none {key : α} (value : β) {pairs : List (α × β)}
    (h : pairs.lookup key = none) : put key value pairs = pairs ++ [(key, value)] := by
  induction pairs with
  | nil => rfl
  | cons pair pairs ih =>
    obtain ⟨k, v⟩ := pair
    by_cases hk : key = k
    · rw [List.lookup_cons, hk, beq_self_eq_true] at h
      cases h
    · rw [List.lookup_cons, beq_eq_false_iff_ne.2 hk] at h
      have hother : ¬(k == key) = true := fun heq => hk (eq_of_beq heq).symm
      rw [put, if_neg hother, ih h, List.cons_append]

/-- An old key keeps its place. -/
theorem map_fst_put {key : α} (value : β) {pairs : List (α × β)}
    (h : (pairs.lookup key).isSome = true) :
    (put key value pairs).map Prod.fst = pairs.map Prod.fst := by
  induction pairs with
  | nil => cases h
  | cons pair pairs ih =>
    obtain ⟨k, v⟩ := pair
    by_cases hk : key = k
    · simp [put, hk]
    · rw [List.lookup_cons, beq_eq_false_iff_ne.2 hk] at h
      have hother : ¬(k == key) = true := fun heq => hk (eq_of_beq heq).symm
      rw [put, if_neg hother, List.map_cons, List.map_cons, ih h]

end Pairs

namespace Forest

variable {f g : Forest} {e d o : ScopeId} {n m : Name} {v w : Datum}

/-! ## §2. Nearest owners -/

/-- Going outwards from a scope, the first one that owns a name. -/
inductive Nearest (f : Forest) (n : Name) : ScopeId → ScopeId → Prop
  /-- The scope itself owns it. -/
  | here {e : ScopeId} (hown : f.owns e n = true) : Nearest f n e e
  /-- The scope does not own it, so it is looked for around the scope. -/
  | outwards {e p o : ScopeId} (hown : f.owns e n = false) (hparent : f.parent? e = some (some p))
      (h : Nearest f n p o) : Nearest f n e o

theorem Ordered.owner?_of_nearest (hf : f.Ordered) (h : f.Nearest n e o) : f.owner? e n = some o := by
  induction h with
  | here hown => exact owner?_self (lt_size_of_owns hown) hown
  | outwards hown hparent _ ih => rw [hf.owner?_child hparent hown, ih]

theorem Ordered.nearest_of_owner? (hf : f.Ordered) : f.owner? e n = some o → f.Nearest n e o := by
  -- parents come before their children, so the induction is on the number of the scope
  induction e using Nat.strongRecOn with
  | ind e ih =>
    intro h
    by_cases hown : f.owns e n = true
    · rw [owner?_self (lt_size_of_owns hown) hown] at h
      cases h
      exact .here hown
    · rw [Bool.not_eq_true] at hown
      cases hparent : f.parent? e with
      | none =>
        unfold owner? chain at h
        rw [chainFrom_missing _ hparent] at h
        cases h
      | some parent =>
        cases parent with
        | none =>
          unfold owner? at h
          rw [chain_root hparent, List.find?_singleton, hown] at h
          cases h
        | some p =>
          rw [hf.owner?_child hparent hown] at h
          exact .outwards hown hparent (ih p (hf e p hparent) h)

/-- **The search along the chain finds the nearest owner.** -/
theorem Ordered.nearest_iff (hf : f.Ordered) : f.Nearest n e o ↔ f.owner? e n = some o :=
  ⟨hf.owner?_of_nearest, hf.nearest_of_owner?⟩

/-- A scope resolves a name in a forest as it does in another one. -/
structure ResolvesAlike (f g : Forest) (d : ScopeId) (n : Name) : Prop where
  /-- The same scope is its nearest owner, if there is one. -/
  nearest : ∀ o, g.Nearest n d o ↔ f.Nearest n d o
  /-- It is known in both or in neither. -/
  known : g.has d n = f.has d n
  /-- It has the same value. -/
  value : g.get? d n = f.get? d n

theorem ResolvesAlike.of_owner (hf : f.Ordered) (hg : g.Ordered) (howner : g.owner? d n = f.owner? d n)
    (hown : ∀ o, f.owner? d n = some o → g.own? o n = f.own? o n) : ResolvesAlike f g d n where
  nearest o := by rw [hf.nearest_iff, hg.nearest_iff, howner]
  known := congrArg Option.isSome howner
  value := by
    rw [get?_eq_bind, get?_eq_bind, howner]
    cases ho : f.owner? d n with
    | none => rfl
    | some o => exact hown o ho

/-! ## §3. Who sees a change -/

/-- A scope owns what it owned, and the target owns the name that has been set. -/
theorem owns_set_iff (he : e < f.size) (x : ScopeId) (m : Name) :
    (f.set e n v).owns x m = true ↔ f.owns x m = true ∨ x = f.target e n ∧ m = n := by
  rw [set_eq_put, owns_put]
  simp only [target_lt_size he, and_true]

/-- If one more member of a list passes, a search finds that one or what it found before. -/
theorem find?_of_one {α : Type} {p q : α → Bool} {t : α} (ht : q t = true) (h : ∀ a, a ≠ t → q a = p a)
    (l : List α) : l.find? q = some t ∨ l.find? q = l.find? p := by
  induction l with
  | nil => exact .inr rfl
  | cons a l ih =>
    by_cases ha : a = t
    · subst ha
      exact .inl (List.find?_cons_of_pos ht)
    · rw [List.find?_cons, List.find?_cons, h a ha]
      cases p a with
      | true => exact .inr rfl
      | false => exact ih

/-- Setting a name makes its target the owner, or leaves the owner as it was. -/
theorem owner?_set_cases (he : e < f.size) (d : ScopeId) :
    (f.set e n v).owner? d n = some (f.target e n) ∨ (f.set e n v).owner? d n = f.owner? d n := by
  have htarget : (f.set e n v).owns (f.target e n) n = true :=
    (owns_set_iff he _ _).2 (.inr ⟨rfl, rfl⟩)
  have hothers : ∀ x, x ≠ f.target e n → (f.set e n v).owns x n = f.owns x n := by
    intro x hx
    rw [Bool.eq_iff_iff, owns_set_iff he]
    exact ⟨fun h => h.resolve_right fun hnew => hx hnew.1, .inl⟩
  unfold owner?
  rw [chain_set]
  exact find?_of_one (q := ((f.set e n v).owns · n)) htarget hothers (f.chain d)

/-- Who owns a name does not depend on what it is set to. -/
theorem owner?_set_value (he : e < f.size) (v w : Datum) (d : ScopeId) :
    (f.set e n v).owner? d n = (f.set e n w).owner? d n := by
  refine owner?_congr (fun x => ?_) (fun x => ?_) d
  · rw [parent?_set, parent?_set]
  · rw [Bool.eq_iff_iff, owns_set_iff he, owns_set_iff he]

theorem Ordered.set (hf : f.Ordered) (e : ScopeId) (n : Name) (v : Datum) : (f.set e n v).Ordered :=
  hf.congr fun x => f.parent?_set e x n v

/-- Other names are resolved as before. -/
theorem Ordered.set_of_ne (hf : f.Ordered) (he : e < f.size) (hne : m ≠ n) (d : ScopeId) :
    ResolvesAlike f (f.set e n v) d m := by
  refine .of_owner hf (hf.set e n v) (owner?_put_of_ne hne v) fun o _ => ?_
  rw [own?_set he, if_neg fun h => hne h.2]

/-- Where the target is not the nearest owner, the name itself is resolved as before. -/
theorem Ordered.set_unseen (hf : f.Ordered) (he : e < f.size)
    (h : (f.set e n v).owner? d n ≠ some (f.target e n)) : ResolvesAlike f (f.set e n v) d n := by
  have howner := (owner?_set_cases (v := v) he d).resolve_left h
  refine .of_owner hf (hf.set e n v) howner fun o ho => ?_
  have hother : o ≠ f.target e n := by
    rintro rfl
    exact h (howner.trans ho)
  rw [own?_set he, if_neg fun hnew => hother hnew.1]

/-- Where it is, the name has the value that has been set. -/
theorem get?_set_of_owner (he : e < f.size) (h : (f.set e n v).owner? d n = some (f.target e n)) :
    (f.set e n v).get? d n = some v := by
  rw [get?_eq_bind, h]
  show (f.set e n v).own? (f.target e n) n = some v
  rw [own?_set he, if_pos ⟨rfl, rfl⟩]

/-- **A change is seen exactly by those that have the target as the nearest owner:** for them the name has
    whatever value is set. -/
theorem Ordered.sees_iff (hf : f.Ordered) (he : e < f.size) (v : Datum) (d : ScopeId) :
    (∀ w, (f.set e n w).get? d n = some w) ↔ (f.set e n v).owner? d n = some (f.target e n) := by
  constructor
  · intro hsees
    by_contra hunseen
    have hkept : ∀ w, (f.set e n w).get? d n = f.get? d n := fun w =>
      (hf.set_unseen he (by rwa [owner?_set_value he w v])).value
    -- one value cannot be all that are set
    have hnil := (hkept ⟨.nil, none⟩).symm.trans (hsees ⟨.nil, none⟩)
    have htrue := (hkept ⟨.bool true, none⟩).symm.trans (hsees ⟨.bool true, none⟩)
    cases hnil.symm.trans htrue
  · intro howner w
    exact get?_set_of_owner he (by rwa [owner?_set_value he w v])

/-! ## §4. Setting a name again -/

/-- **The last of two values stands.** -/
theorem set_set (he : e < f.size) (v w : Datum) : (f.set e n v).set e n w = f.set e n w := by
  rw [set_eq_put, target_set he, set_eq_put, put_put, set_eq_put]

/-! ## §5. Setting two names -/

/-- The own variables of a scope, in the order in which they were first set. -/
def listed (f : Forest) (e : ScopeId) : List (Name × Datum) := (f.scopes[e]?.map (·.bindings)).getD []

theorem lookup_listed (f : Forest) (e : ScopeId) (n : Name) : (f.listed e).lookup n = f.own? e n := by
  unfold listed own?
  cases f.scopes[e]? <;> rfl

theorem listed_put (he : e < f.size) (x : ScopeId) :
    (f.put e n v).listed x = if x = e then Pairs.put n v (f.listed x) else f.listed x := by
  unfold listed put
  rw [Array.getElem?_modify]
  by_cases hx : e = x
  · subst hx
    rw [if_pos rfl, if_pos rfl, Array.getElem?_eq_getElem he]
    rfl
  · rw [if_neg hx, if_neg (Ne.symm hx)]

/-- Names keep their places, and a new one comes last. -/
theorem names_set (he : e < f.size) (x : ScopeId) :
    ((f.set e n v).listed x).map Prod.fst
      = (f.listed x).map Prod.fst ++ if x = f.target e n ∧ f.owns x n = false then [n] else [] := by
  rw [set_eq_put, listed_put (target_lt_size he n)]
  by_cases hx : x = f.target e n
  · rw [if_pos hx]
    cases hown : f.owns x n with
    | true =>
      rw [if_neg fun h => Bool.false_ne_true h.2.symm, List.append_nil]
      refine Pairs.map_fst_put v ?_
      rwa [lookup_listed]
    | false =>
      have hnone : (f.listed x).lookup n = none := by
        rw [lookup_listed]
        exact owns_eq_false.1 hown
      rw [if_pos ⟨hx, rfl⟩, Pairs.put_of_lookup_none v hnone, List.map_append]
      rfl
  · rw [if_neg hx, if_neg fun h => hx h.1, List.append_nil]

/-- Two forests that have come from one differ in nothing but the order in which scopes list names that
    are new since. -/
structure Relisted (f g h : Forest) : Prop where
  /-- Scopes lie where they do. -/
  parents : ∀ x, g.parent? x = h.parent? x
  /-- They own the same names with the same values. -/
  owned : ∀ x n, g.own? x n = h.own? x n
  /-- They list the same variables. -/
  perm : ∀ x, (g.listed x).Perm (h.listed x)
  /-- Those that they listed before are still listed alike. -/
  kept : ∀ x, (g.listed x).take (f.listed x).length = (h.listed x).take (f.listed x).length

theorem Relisted.of_eq {h : Forest} (heq : g = h) : Relisted f g h := by
  subst heq
  exact ⟨fun _ => rfl, fun _ _ => rfl, fun _ => .refl _, fun _ => rfl⟩

/-- Own variables of different scopes can be set in any order. -/
theorem put_comm_of_ne (hne : d ≠ e) : (f.put d m w).put e n v = (f.put e n v).put d m w := by
  refine congrArg Forest.mk (Array.ext_getElem? fun i => ?_)
  unfold put
  simp only [Array.getElem?_modify]
  by_cases hi : e = i
  · subst hi
    simp only [if_neg hne]
  · simp only [if_neg hi]

/-- New variables of one scope are listed in the order in which they are set. -/
theorem listed_put_put (he : e < f.size) (hne : m ≠ n) (hn : f.own? e n = none) (hm : f.own? e m = none)
    (x : ScopeId) :
    ((f.put e n v).put e m w).listed x
      = if x = e then f.listed x ++ [(n, v), (m, w)] else f.listed x := by
  rw [listed_put (by rwa [size_put]), listed_put he]
  by_cases hx : x = e
  · subst hx
    have hn' : (f.listed x).lookup n = none := by rwa [lookup_listed]
    have hm' : (f.listed x ++ [(n, v)]).lookup m = none := by
      rw [List.lookup_append, lookup_listed, hm, List.lookup_cons, beq_eq_false_iff_ne.2 hne]
      rfl
    rw [if_pos rfl, if_pos rfl, if_pos rfl, Pairs.put_of_lookup_none v hn',
      Pairs.put_of_lookup_none w hm', List.append_assoc]
    rfl
  · rw [if_neg hx, if_neg hx, if_neg hx]

/-- New variables of one scope can be set in any order, but for their order. -/
theorem relisted_put_put (he : e < f.size) (hne : m ≠ n) (hn : f.own? e n = none)
    (hm : f.own? e m = none) :
    Relisted f ((f.put e n v).put e m w) ((f.put e m w).put e n v) := by
  refine ⟨fun x => ?_, fun x k => ?_, fun x => ?_, fun x => ?_⟩
  · simp only [parent?_put]
  · simp only [own?_put, size_put]
    by_cases hk : k = n
    · subst hk
      simp [Ne.symm hne]
    · simp [hk]
  · rw [listed_put_put he hne hn hm, listed_put_put he hne.symm hm hn]
    split
    · exact (List.Perm.swap _ _ _).append_left _
    · exact .refl _
  · rw [listed_put_put he hne hn hm, listed_put_put he hne.symm hm hn]
    split
    · rw [List.take_left, List.take_left]
    · rfl

theorem target_put_of_ne (hne : m ≠ n) : (f.put o n v).target d m = f.target d m := by
  unfold target
  rw [owner?_put_of_ne hne]

/-- **Different names can be set in any order,** from any two scopes. -/
theorem relisted_set_set (he : e < f.size) (hne : m ≠ n) :
    Relisted f ((f.set e n v).set d m w) ((f.set d m w).set e n v) := by
  rw [set_eq_put, set_eq_put, target_put_of_ne hne, set_eq_put, set_eq_put, target_put_of_ne hne.symm]
  by_cases hn : f.owns (f.target e n) n = true
  · exact .of_eq (put_comm hne.symm hn v w).symm
  by_cases hm : f.owns (f.target d m) m = true
  · exact .of_eq (put_comm hne hm w v)
  by_cases hsame : f.target d m = f.target e n
  · rw [Bool.not_eq_true, owns_eq_false] at hn hm
    rw [hsame] at hm ⊢
    exact relisted_put_put (target_lt_size he n) hne hn hm
  · exact .of_eq (put_comm_of_ne hsame).symm

/-! ## §6. The laws -/

/-- **The laws of looking up and setting names.**  Set a name as seen from any scope of a forest in which
    parents come before their children.  One own variable may have changed: that of the name in the nearest
    scope that owned it, or in the scope itself if none did.  The scope sees the value.  Any other scope does
    so exactly if the scope of that variable is now the nearest owner of the name for it, and otherwise
    resolves the name as before; all other names are resolved as before everywhere.  Setting the name
    again is as if it had not been set before; and another name can be set first or last, from
    any scope, up to the order in which new names are listed. -/
theorem set_laws {f : Forest} (hf : f.Ordered) {e : ScopeId} (he : e < f.size) (n : Name) (v : Datum) :
    ∃ t : ScopeId, (f.Nearest n e t ∨ (∀ o, ¬ f.Nearest n e o) ∧ t = e) ∧
      -- what has changed
      (∀ x m, (f.set e n v).own? x m = if x = t ∧ m = n then some v else f.own? x m) ∧
      (∀ x, (f.set e n v).parent? x = f.parent? x) ∧
      (∀ x, ((f.set e n v).listed x).map Prod.fst
        = (f.listed x).map Prod.fst ++ if x = t ∧ f.owns x n = false then [n] else []) ∧
      -- who sees it
      (f.set e n v).get? e n = some v ∧
      (∀ d, (∀ w, (f.set e n w).get? d n = some w) ↔ (f.set e n v).Nearest n d t) ∧
      (∀ d, ¬ (f.set e n v).Nearest n d t → ResolvesAlike f (f.set e n v) d n) ∧
      (∀ d m, m ≠ n → ResolvesAlike f (f.set e n v) d m) ∧
      -- setting more
      (f.set e n v).set e n v = f.set e n v ∧
      (∀ w, (f.set e n v).set e n w = f.set e n w) ∧
      ∀ d m w, m ≠ n → Relisted f ((f.set e n v).set d m w) ((f.set d m w).set e n v) := by
  have hset : (f.set e n v).Ordered := hf.set e n v
  refine ⟨f.target e n, ?_, own?_set he v, fun x => f.parent?_set e x n v, names_set he, get?_set he v,
    fun d => ?_, fun d hunseen => ?_, fun d m hne => hf.set_of_ne he hne d, set_set he v v,
    set_set he v, fun d m w hne => relisted_set_set he hne⟩
  · cases ho : f.owner? e n with
    | some o =>
      rw [target_of_owner ho]
      exact .inl (hf.nearest_iff.2 ho)
    | none =>
      refine .inr ⟨fun o hnearest => ?_, ?_⟩
      · rw [hf.nearest_iff, ho] at hnearest
        cases hnearest
      · unfold target
        rw [ho]
        rfl
  · rw [hset.nearest_iff]
    exact hf.sees_iff he v d
  · rw [hset.nearest_iff] at hunseen
    exact hf.set_unseen he hunseen

/-- A scope that owns `x`, a scope inside it, and two inside that one, the first of which owns an `x` of
    its own. -/
def shadowed : Forest :=
  ⟨#[⟨none, [(.text "x", ⟨.int 1, none⟩)]⟩, ⟨some 0, []⟩, ⟨some 1, [(.text "x", ⟨.int 2, none⟩)]⟩,
    ⟨some 1, []⟩]⟩

theorem shadowed_ordered : shadowed.Ordered := by
  intro e p h
  rcases e with _ | _ | _ | _ | e
  · cases h
  · cases h; decide
  · cases h; decide
  · cases h; decide
  · cases h

/-- Seen from the last scope the outermost one is changed.  The scope between them sees that, and the
    one with an `x` of its own does not. -/
theorem shadowed_set :
    shadowed.Ordered ∧ 3 < shadowed.size ∧
      (shadowed.set 3 (.text "x") ⟨.int 5, none⟩).own? 0 (.text "x") = some ⟨.int 5, none⟩ ∧
      (shadowed.set 3 (.text "x") ⟨.int 5, none⟩).get? 1 (.text "x") = some ⟨.int 5, none⟩ ∧
      (shadowed.set 3 (.text "x") ⟨.int 5, none⟩).get? 2 (.text "x") = some ⟨.int 2, none⟩ := by
  have hsize : 3 < shadowed.size := by decide
  have hnearest : shadowed.Nearest (.text "x") 3 0 :=
    .outwards rfl rfl (.outwards rfl rfl (.here rfl))
  obtain ⟨t, howner, hown, -, -, -, hsees, hunseen, -⟩ :=
    set_laws shadowed_ordered hsize (.text "x") ⟨.int 5, none⟩
  obtain rfl : t = 0 := by
    rcases howner with h | ⟨h, -⟩
    · rw [shadowed_ordered.nearest_iff] at h hnearest
      exact Option.some.inj (h.symm.trans hnearest)
    · exact absurd hnearest (h 0)
  refine ⟨shadowed_ordered, hsize, hown 0 _, ?_, ?_⟩
  · exact (hsees 1).2 (.outwards rfl rfl (.here rfl)) _
  · refine (hunseen 2 fun h => ?_).value
    cases h with
    | outwards hnot _ _ => cases hnot

end Forest

end Scrawl
