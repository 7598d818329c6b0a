/-
  Scrawl.Proofs.Scope.Growth — what making scopes and registering add-ons do to the forest.

  Both set many names in turn.  Parents stay as they are, names stay owned, and a scope comes to own
  only what is set and was unknown to it.  No value turns up that was neither there nor among those
  set, and a change of all values commutes with both if it leaves alone what is set.
-/

import Scrawl.Proofs.Run
import Scrawl.Proofs.Scope.Forest

namespace Scrawl

/-! ## §1. Bindings of the language and of add-ons -/

/-- The names of the language stand for functions, for two numbers and for nothing. -/
theorem standardNames_values :
    ∀ b ∈ standardNames, (∃ fn, b.2 = .nativeValue fn) ∨ (∃ x, b.2 = .number (.float x)) ∨
      b.2 = .nothing := by
  unfold standardNames
  iterate 10 refine List.forall_mem_cons.2 ⟨.inl ⟨_, rfl⟩, ?_⟩
  iterate 2 refine List.forall_mem_cons.2 ⟨.inr (.inl ⟨_, rfl⟩), ?_⟩
  exact List.forall_mem_singleton.2 (.inr (.inr rfl))

/-- What is bound for add-ons is a value registered. -/
theorem mem_addonBindingsFrom {addons : List (Value × Value)} {first : Nat} {b : Name × Datum}
    (h : b ∈ addonBindingsFrom first addons) :
    ∃ a ∈ addons, a.1.toName = .ok b.1 ∧ a.2 = b.2.value := by
  induction addons generalizing first with
  | nil => exact nomatch h
  | cons a addons ih =>
    obtain ⟨key, v⟩ := a
    rw [addonBindingsFrom] at h
    split at h
    · next n hn =>
      rcases List.mem_cons.1 h with rfl | h
      · exact ⟨_, List.mem_cons_self, hn, rfl⟩
      · obtain ⟨a, ha, hname, hvalue⟩ := ih h
        exact ⟨a, List.mem_cons_of_mem _ ha, hname, hvalue⟩
    · cases h

theorem mem_addonBindings {addons : List (Value × Value)} {b : Name × Datum}
    (h : b ∈ addonBindings addons) : ∃ a ∈ addons, a.1.toName = .ok b.1 ∧ a.2 = b.2.value :=
  mem_addonBindingsFrom h

/-- Where every name can be one, every add-on is bound. -/
theorem exists_addonBinding {addons : List (Value × Value)}
    (h : ∀ a ∈ addons, ∃ n, a.1.toName = .ok n) {a : Value × Value} (ha : a ∈ addons) {n : Name}
    (hn : a.1.toName = .ok n) : ∃ b ∈ addonBindings addons, b.1 = n := by
  unfold addonBindings
  generalize 0 = first
  induction addons generalizing first with
  | nil => exact nomatch ha
  | cons a' addons ih =>
    obtain ⟨n', hn'⟩ := h a' List.mem_cons_self
    rw [addonBindingsFrom, hn']
    rcases List.mem_cons.1 ha with rfl | ha
    · exact ⟨_, List.mem_cons_self, Except.ok.inj (hn'.symm.trans hn)⟩
    · obtain ⟨b, hb, hbn⟩ := ih (fun a ha => h a (List.mem_cons_of_mem _ ha)) ha (first + 1)
      exact ⟨b, List.mem_cons_of_mem _ hb, hbn⟩

/-- There is no fault exactly where every name can be one. -/
theorem addonFault?_eq_none {addons : List (Value × Value)} :
    addonFault? addons = none ↔ ∀ a ∈ addons, ∃ n, a.1.toName = .ok n := by
  unfold addonFault?
  rw [List.findSome?_eq_none_iff]
  refine forall₂_congr fun a _ => ?_
  cases a.1.toName with
  | ok n => exact ⟨fun _ => ⟨n, rfl⟩, fun _ => rfl⟩
  | error f => exact ⟨nofun, nofun⟩

/-- Bindings whose values a change leaves alone. -/
theorem map_bindings_eq {g : Value → Value} {bindings : List (Name × Datum)}
    (h : ∀ b ∈ bindings, g b.2.value = b.2.value) :
    (bindings.map fun b => (b.1, b.2.map g)) = bindings := by
  refine (List.map_congr_left fun b hb => ?_).trans bindings.map_id
  obtain ⟨n, v, mark⟩ := b
  exact congrArg (fun u => (n, Datum.mk u mark)) (h _ hb)

/-! ## §2. Spellings -/

/-- Writing down how a name is spelt is all that happens. -/
theorem World.noteSpelling_eq (w : World) (e : ScopeId) (n : Name) (key : Value) :
    ∃ spellings, w.noteSpelling e n key = { w with spellings } := by
  unfold noteSpelling
  split
  · exact ⟨w.spellings, rfl⟩
  · split
    · exact ⟨w.spellings, rfl⟩
    · exact ⟨_, rfl⟩

/-- A spelling is noted by nothing of the forest but whether the name is known. -/
theorem World.noteSpelling_withForest (w : World) {f : Forest} {e : ScopeId} {n : Name}
    (h : f.has e n = w.forest.has e n) (key : Value) :
    World.noteSpelling { w with forest := f } e n key
      = { w.noteSpelling e n key with forest := f } := by
  unfold noteSpelling
  cases n <;> dsimp only <;> rw [h] <;> split <;> rfl

namespace Forest

variable (f : Forest) (rules : Rules) (addons : List (Value × Value))

/-! ## §3. New scopes -/

/-- Rules matter to a new scope only in whether it sets names again. -/
theorem newScope_congr {rules' : Rules} (h : rules'.restores = rules.restores)
    (parent : Option ScopeId) : f.newScope rules' addons parent = f.newScope rules addons parent := by
  unfold newScope Rules.sets
  rw [h]

@[simp] theorem size_newScope (parent : Option ScopeId) :
    (f.newScope rules addons parent).size = f.size + 1 := by
  unfold newScope
  dsimp only
  split
  · rw [size_setAll, size_grow]
  · exact f.size_grow parent

theorem lt_size_newScope (parent : Option ScopeId) :
    f.size < (f.newScope rules addons parent).size := by
  rw [size_newScope]
  exact Nat.lt_succ_self _

theorem parent?_newScope (parent : Option ScopeId) (e : ScopeId) :
    (f.newScope rules addons parent).parent? e
      = if e = f.size then some parent else f.parent? e := by
  unfold newScope
  dsimp only
  split
  · rw [parent?_setAll, parent?_grow]
  · exact f.parent?_grow parent e

theorem le_newScope (parent : Option ScopeId) : f ≤ f.newScope rules addons parent := by
  intro e parent' h
  rw [parent?_newScope, if_neg (Nat.ne_of_lt (lt_size_of_parent? h)), h]

theorem own?_newScope_cases {parent : Option ScopeId} {e : ScopeId} {n : Name} {d : Datum}
    (h : (f.newScope rules addons parent).own? e n = some d) :
    (∃ b ∈ standardBindings ++ addonBindings addons, d = b.2) ∨ f.own? e n = some d := by
  unfold newScope at h
  dsimp only at h
  split at h
  · rcases own?_setAll_cases _ h with hb | h
    · exact .inl hb
    · exact .inr (f.own?_grow parent e n ▸ h)
  · exact .inr (f.own?_grow parent e n ▸ h)

@[simp] theorem owns_grow (parent : Option ScopeId) (e : ScopeId) (n : Name) :
    (f.grow parent).owns e n = f.owns e n :=
  congrArg Option.isSome (f.own?_grow parent e n)

variable {f rules addons}

theorem owns_newScope {parent : Option ScopeId} {e : ScopeId} {n : Name} (h : f.owns e n = true) :
    (f.newScope rules addons parent).owns e n = true := by
  unfold newScope
  dsimp only
  rw [← f.owns_grow parent] at h
  split
  · exact owns_setAll h
  · exact h

theorem owns_newScope_cases {parent : Option ScopeId} {e : ScopeId} {n : Name}
    (h : (f.newScope rules addons parent).owns e n = true) :
    f.owns e n = true ∨ e = f.size ∧ (∃ b ∈ standardBindings ++ addonBindings addons, b.1 = n) ∧
      (f.grow parent).has f.size n = false := by
  unfold newScope at h
  dsimp only at h
  split at h
  · exact (owns_setAll_cases h).imp (fun h => f.owns_grow parent e n ▸ h) id
  · exact .inl (f.owns_grow parent e n ▸ h)

theorem has_newScope {parent : Option ScopeId} (hsets : rules.sets parent = true)
    {b : Name × Datum} (hb : b ∈ standardBindings ++ addonBindings addons) :
    (f.newScope rules addons parent).has f.size b.1 = true := by
  unfold newScope
  dsimp only
  rw [if_pos hsets]
  exact has_setAll (by rw [size_grow]; exact Nat.lt_succ_self _) hb

variable (f rules addons)

theorem newScope_mapValues (g : Value → Value) (parent : Option ScopeId)
    (h : ∀ b ∈ standardBindings ++ addonBindings addons, g b.2.value = b.2.value) :
    (f.mapValues g).newScope rules addons parent
      = (f.newScope rules addons parent).mapValues g := by
  unfold newScope
  dsimp only
  rw [size_mapValues, grow_mapValues]
  split
  · rw [← setAll_mapValues, map_bindings_eq h]
  · rfl

/-! ## §4. Add-ons set again -/

/-- One more scope in which add-ons are set again. -/
theorem refresh_succ (count : Nat) :
    f.refresh addons (count + 1) = (f.refresh addons count).setAll count (addonBindings addons) := by
  unfold refresh
  rw [List.range_succ, List.foldl_append]
  rfl

@[simp] theorem size_refresh (count : Nat) : (f.refresh addons count).size = f.size := by
  induction count with
  | zero => rfl
  | succ count ih => rw [refresh_succ, size_setAll, ih]

@[simp] theorem parent?_refresh (count : Nat) (e : ScopeId) :
    (f.refresh addons count).parent? e = f.parent? e := by
  induction count with
  | zero => rfl
  | succ count ih => rw [refresh_succ, parent?_setAll, ih]

theorem le_refresh (count : Nat) : f ≤ f.refresh addons count :=
  le_of_parent?_eq fun e => f.parent?_refresh addons count e

theorem own?_refresh_cases {count : Nat} {e : ScopeId} {n : Name} {d : Datum}
    (h : (f.refresh addons count).own? e n = some d) :
    (∃ b ∈ addonBindings addons, d = b.2) ∨ f.own? e n = some d := by
  induction count with
  | zero => exact .inr h
  | succ count ih =>
    rw [refresh_succ] at h
    rcases own?_setAll_cases _ h with hb | h
    · exact .inl hb
    · exact ih h

variable {f addons}

theorem owns_refresh {count : Nat} {e : ScopeId} {n : Name} (h : f.owns e n = true) :
    (f.refresh addons count).owns e n = true := by
  induction count with
  | zero => exact h
  | succ count ih => rw [refresh_succ]; exact owns_setAll ih

/-- A scope comes to own only what it did not know when its turn came. -/
theorem owns_refresh_cases {count : Nat} {e : ScopeId} {n : Name}
    (h : (f.refresh addons count).owns e n = true) :
    f.owns e n = true ∨ e < count ∧ (∃ b ∈ addonBindings addons, b.1 = n) ∧
      (f.refresh addons e).has e n = false := by
  induction count with
  | zero => exact .inl h
  | succ count ih =>
    rw [refresh_succ] at h
    rcases owns_setAll_cases h with h | ⟨rfl, hb, hhas⟩
    · exact (ih h).imp id fun h => ⟨Nat.lt_succ_of_lt h.1, h.2⟩
    · exact .inr ⟨Nat.lt_succ_self e, hb, hhas⟩

theorem has_refresh {count : Nat} {e : ScopeId} (he : e < count) (hsize : e < f.size)
    {b : Name × Datum} (hb : b ∈ addonBindings addons) :
    (f.refresh addons count).has e b.1 = true := by
  induction count with
  | zero => exact absurd he (Nat.not_lt_zero e)
  | succ count ih =>
    rw [refresh_succ]
    rcases Nat.lt_succ_iff_lt_or_eq.1 he with he | rfl
    · exact has_mono (fun x => parent?_setAll _ count x _) owns_setAll (ih he)
    · exact has_setAll (by rwa [size_refresh]) hb

variable (f addons)

theorem refresh_mapValues (g : Value → Value) (count : Nat)
    (h : ∀ b ∈ addonBindings addons, g b.2.value = b.2.value) :
    (f.mapValues g).refresh addons count = (f.refresh addons count).mapValues g := by
  induction count with
  | zero => rfl
  | succ count ih =>
    rw [refresh_succ, refresh_succ, ih, ← setAll_mapValues, map_bindings_eq h]

end Forest

/-! ## §5. Scopes that have been made -/

/-- A scope that has been made is the next one, and all that is new; where names are set in it, all
    add-ons have one. -/
theorem makeScope_eq_ok {rules : Rules} {room : Room} {parent : Option ScopeId} {w w' : World}
    {e : ScopeId} (h : makeScope rules room parent w = .ok e w') :
    (rules.sets parent = true → addonFault? w.addons = none) ∧ e = w.forest.size ∧
      w' = { w with forest := w.forest.newScope rules w.addons parent } := by
  obtain ⟨_, _, hget, hdescend⟩ := Run.bind_eq_ok h
  cases hget
  obtain ⟨_, -, hmake⟩ := Run.lift_bind_eq_ok hdescend
  obtain ⟨_, _, hmade, hcheck⟩ := Run.bind_eq_ok hmake
  cases hmade
  obtain ⟨_, _, hget, hend⟩ := Run.bind_eq_ok hcheck
  cases hget
  dsimp only at hend
  cases hfault : addonFault? w.addons with
  | none => rw [hfault] at hend; cases hend; exact ⟨fun _ => rfl, rfl, rfl⟩
  | some f =>
    rw [hfault] at hend
    cases hsets : rules.sets parent with
    | true => rw [hsets] at hend; cases hend
    | false => rw [hsets] at hend; cases hend; exact ⟨nofun, rfl, rfl⟩

/-- An outermost scope can only be made if all add-ons have names. -/
theorem makeScope_root_eq_ok {rules : Rules} {room : Room} {w w' : World} {e : ScopeId}
    (h : makeScope rules room none w = .ok e w') :
    addonFault? w.addons = none ∧ e = w.forest.size ∧
      w' = { w with forest := w.forest.newScope rules w.addons none } :=
  (makeScope_eq_ok h).imp (fun hnames => hnames rfl) id

end Scrawl
