/-
  Scrawl.Proofs.Scope.StandardValues — the values that names of the language and of add-ons stand for.

  The standard value of a name is the one last registered under it, and for a name of the language
  under which nothing was registered the one it has from the start (`World.StandardValue`).  Replaying
  all registrations, superseded ones included, ends with just these values
  (`World.StandardValue.lastBinding?_eq`).  So a new inner scope gives every name of the language and
  of add-ons its standard value where it is owned (`World.ScopeMade`), and registering an add-on gives
  all scopes the values last registered (`World.AddonReached`).
-/

import Scrawl.Proofs.Scope.Evolution
import Scrawl.Proofs.Scope.Regions
import Scrawl.Proofs.Scope.Setting

namespace Scrawl

/-! ## §1. Registrations -/

/-- The registration with number `i` is the last one under a name, and registers `v`. -/
def World.LastRegistered (w : World) (n : Name) (i : Nat) (v : Value) : Prop :=
  ∃ before key after, w.addons = before ++ (key, v) :: after ∧ before.length = i ∧
    key.toName = .ok n ∧ ∀ a ∈ after, a.1.toName ≠ .ok n

/-- A name under which something was registered has a last registration. -/
theorem World.Registered.exists_last {w : World} {n : Name} (h : w.Registered n) :
    ∃ i v, w.LastRegistered n i v := by
  suffices hlist : ∀ addons : List (Value × Value), (∃ a ∈ addons, a.1.toName = .ok n) →
      ∃ before key v after, addons = before ++ (key, v) :: after ∧ key.toName = .ok n ∧
        ∀ a ∈ after, a.1.toName ≠ .ok n by
    obtain ⟨before, key, v, after, haddons, hkey, hafter⟩ := hlist w.addons h
    exact ⟨before.length, v, before, key, after, haddons, rfl, hkey, hafter⟩
  intro addons
  induction addons with
  | nil =>
    rintro ⟨a, ha, -⟩
    cases ha
  | cons a addons ih =>
    intro hsome
    by_cases hrest : ∃ a ∈ addons, a.1.toName = .ok n
    · obtain ⟨before, key, v, after, rfl, hkey, hafter⟩ := ih hrest
      exact ⟨a :: before, key, v, after, rfl, hkey, hafter⟩
    · -- the first of them is the only one
      refine ⟨[], a.1, a.2, addons, rfl, ?_, fun b hb hbn => hrest ⟨b, hb, hbn⟩⟩
      obtain ⟨b, hb, hbn⟩ := hsome
      rcases List.mem_cons.1 hb with rfl | hb
      · exact hbn
      · exact absurd ⟨b, hb, hbn⟩ hrest

theorem World.LastRegistered.registered {w : World} {n : Name} {i : Nat} {v : Value}
    (h : w.LastRegistered n i v) : w.Registered n := by
  obtain ⟨before, key, after, haddons, -, hkey, -⟩ := h
  exact ⟨(key, v), by rw [haddons]; simp, hkey⟩

/-- Registrations bound one after another. -/
theorem addonBindingsFrom_append {before : List (Value × Value)}
    (h : ∀ a ∈ before, ∃ n, a.1.toName = .ok n) (first : Nat) (after : List (Value × Value)) :
    addonBindingsFrom first (before ++ after)
      = addonBindingsFrom first before ++ addonBindingsFrom (first + before.length) after := by
  induction before generalizing first with
  | nil => rfl
  | cons a before ih =>
    obtain ⟨n, hn⟩ := h a List.mem_cons_self
    have hrest := ih (fun b hb => h b (List.mem_cons_of_mem a hb)) (first + 1)
    rw [List.cons_append, addonBindingsFrom, hn, addonBindingsFrom, hn, List.length_cons,
      Nat.add_comm before.length 1, ← Nat.add_assoc]
    exact congrArg (_ :: ·) hrest

/-- What no add-on is called is not bound. -/
theorem lastBinding?_addonBindingsFrom_eq_none {addons : List (Value × Value)} {n : Name}
    (h : ∀ a ∈ addons, a.1.toName ≠ .ok n) (first : Nat) :
    lastBinding? (addonBindingsFrom first addons) n = none := by
  refine lastBinding?_eq_none.2 fun b hb hbn => ?_
  obtain ⟨a, ha, hname, -⟩ := mem_addonBindingsFrom hb
  exact h a ha (hname.trans (congrArg Except.ok hbn))

theorem World.lastBinding?_unregistered {w : World} {n : Name} (h : ¬ w.Registered n) :
    lastBinding? (addonBindings w.addons) n = none :=
  lastBinding?_addonBindingsFrom_eq_none (fun a ha hn => h ⟨a, ha, hn⟩) 0

/-- **Replaying all registrations ends with the last one.** -/
theorem World.LastRegistered.lastBinding?_eq {w : World} {n : Name} {i : Nat} {v : Value}
    (h : w.LastRegistered n i v) (hnameable : ∀ a ∈ w.addons, ∃ n, a.1.toName = .ok n) :
    lastBinding? (addonBindings w.addons) n = some ⟨v, some i⟩ := by
  obtain ⟨before, key, after, haddons, rfl, hkey, hafter⟩ := h
  have hbefore : ∀ a ∈ before, ∃ n, a.1.toName = .ok n := fun a ha =>
    hnameable a (by rw [haddons]; exact List.mem_append_left _ ha)
  unfold addonBindings
  rw [haddons, addonBindingsFrom_append hbefore, Nat.zero_add, addonBindingsFrom, hkey,
    lastBinding?_append, lastBinding?_cons, lastBinding?_addonBindingsFrom_eq_none hafter,
    if_pos rfl]
  rfl

/-! ## §2. Standard values -/

/-- The value that a name of the language or of an add-on should have. -/
inductive World.StandardValue (w : World) (n : Name) : Datum → Prop
  /-- What was last registered under the name. -/
  | addon {i : Nat} {v : Value} (h : w.LastRegistered n i v) : StandardValue w n ⟨v, some i⟩
  /-- What the name stands for from the start, if nothing was registered under it. -/
  | language {d : Datum} (hunregistered : ¬ w.Registered n) (h : (n, d) ∈ standardBindings) :
      StandardValue w n d

/-- All these names have a standard value. -/
theorem World.Known.exists_standardValue {w : World} {n : Name} (h : w.Known n) :
    ∃ d, w.StandardValue n d := by
  by_cases hregistered : w.Registered n
  · obtain ⟨i, v, hlast⟩ := hregistered.exists_last
    exact ⟨_, .addon hlast⟩
  · rcases h with ⟨b, hb, rfl⟩ | h
    · exact ⟨b.2, .language hregistered hb⟩
    · exact absurd h hregistered

theorem World.StandardValue.known {w : World} {n : Name} {d : Datum} (h : w.StandardValue n d) :
    w.Known n := by
  cases h with
  | addon h => exact .inr h.registered
  | language _ h => exact .inl ⟨_, h, rfl⟩

/-- Where no name comes twice, each has its value. -/
theorem lastBinding?_of_mem {bindings : List (Name × Datum)}
    (hnodup : (bindings.map (·.1)).Nodup) {b : Name × Datum} (hb : b ∈ bindings) :
    lastBinding? bindings b.1 = some b.2 := by
  induction bindings with
  | nil => cases hb
  | cons c bindings ih =>
    rw [List.map_cons, List.nodup_cons] at hnodup
    rw [lastBinding?_cons]
    rcases List.mem_cons.1 hb with rfl | hb
    · have hnone : lastBinding? bindings b.1 = none :=
        lastBinding?_eq_none.2 fun c hc hcb => hnodup.1 (List.mem_map.2 ⟨c, hc, hcb⟩)
      rw [hnone, if_pos rfl]
      rfl
    · rw [ih hnodup.2 hb]
      rfl

/-- The language has every name once. -/
theorem standardBindings_nodup : (standardBindings.map (·.1)).Nodup := by decide

/-- **Setting the names of the language and then all registrations ends with the standard
    values.** -/
theorem World.StandardValue.lastBinding?_eq {w : World} {n : Name} {d : Datum}
    (h : w.StandardValue n d) (hnameable : ∀ a ∈ w.addons, ∃ n, a.1.toName = .ok n) :
    lastBinding? (standardBindings ++ addonBindings w.addons) n = some d := by
  rw [lastBinding?_append]
  cases h with
  | addon h =>
    rw [h.lastBinding?_eq hnameable]
    rfl
  | language hunregistered h =>
    rw [World.lastBinding?_unregistered hunregistered]
    exact lastBinding?_of_mem standardBindings_nodup h

/-- No other name is set. -/
theorem World.lastBinding?_unknown {w : World} {n : Name} (h : ¬ w.Known n) :
    lastBinding? (standardBindings ++ addonBindings w.addons) n = none := by
  refine lastBinding?_eq_none.2 fun b hb hbn => h ?_
  rcases List.mem_append.1 hb with hb | hb
  · exact .inl ⟨b, hb, hbn⟩
  · obtain ⟨a, ha, hname, -⟩ := mem_addonBindings hb
    exact .inr ⟨a, ha, hname.trans (congrArg Except.ok hbn)⟩

/-! ## §3. Registering an add-on -/

/-- What registering `v` under a name makes of a world. -/
structure World.AddonReached (w : World) (key v : Value) (n : Name) (w' : World) : Prop where
  /-- It is the last add-on. -/
  addons : w'.addons = w.addons ++ [(key, v)]
  /-- There are no other scopes than before, and they lie where they did. -/
  scopes : w'.forest.size = w.forest.size ∧ ∀ e, w'.forest.parent? e = w.forest.parent? e
  /-- Every scope resolves the name to the value. -/
  registered : ∀ e < w'.forest.size, w'.forest.get? e n = some ⟨v, some w.addons.length⟩
  /-- Every scope resolves the name of any add-on to the value last registered under it, and there is
      such a value. -/
  others : ∀ m, w'.Registered m → ∃ i u, w'.LastRegistered m i u ∧
    ∀ e < w'.forest.size, w'.forest.get? e m = some ⟨u, some i⟩
  /-- Own variables whose names are no names of add-ons are as they were. -/
  kept : ∀ e m, ¬ w'.Registered m → w'.forest.own? e m = w.forest.own? e m

/-- **Add-ons set again in every scope reach all of them.** -/
theorem World.addonReached {w w' : World} {key v : Value} {n : Name} (hkey : key.toName = .ok n)
    (hnameable : ∀ a ∈ w'.addons, ∃ n, a.1.toName = .ok n)
    (haddons : w'.addons = w.addons ++ [(key, v)])
    (hforest : w'.forest = w.forest.refresh w'.addons w.forest.size) :
    w.AddonReached key v n w' := by
  have hsize : w'.forest.size = w.forest.size := by rw [hforest, Forest.size_refresh]
  -- every scope has its turn, and what it gets to know stays known
  have hlast : ∀ m i u, w'.LastRegistered m i u → ∀ e < w'.forest.size,
      w'.forest.get? e m = some ⟨u, some i⟩ := by
    intro m i u h e he
    rw [hsize] at he
    rw [hforest]
    exact Forest.get?_refresh (Nat.le_refl _) he (h.lastBinding?_eq hnameable)
  constructor
  case addons => exact haddons
  case scopes =>
    refine ⟨hsize, fun e => ?_⟩
    rw [hforest, Forest.parent?_refresh]
  case registered =>
    exact hlast n _ v ⟨w.addons, key, [], haddons, rfl, hkey, fun a ha => nomatch ha⟩
  case others =>
    intro m hm
    obtain ⟨i, u, h⟩ := hm.exists_last
    exact ⟨i, u, h, hlast m i u h⟩
  case kept =>
    intro e m hm
    rw [hforest]
    exact Forest.own?_refresh_of_none (Nat.le_refl _) (World.lastBinding?_unregistered hm) e

/-! ## §4. Making a scope -/

/-- What making a scope inside `p` makes of a world. -/
structure World.ScopeMade (w : World) (p : ScopeId) (w' : World) : Prop where
  /-- Nothing else than the forest changes. -/
  aside : w' = { w with forest := w'.forest }
  /-- There is one more scope. -/
  size : w'.forest.size = w.forest.size + 1
  /-- It lies in `p`, and every other one where it did. -/
  parent : ∀ e, w'.forest.parent? e
    = if e = w.forest.size then some (some p) else w.forest.parent? e
  /-- The new scope owns nothing. -/
  bare : ∀ n, w'.forest.own? w.forest.size n = none
  /-- It resolves every name of the language and of an add-on to its standard value. -/
  resolved : ∀ n, w.Known n → ∃ d, w.StandardValue n d ∧
    w'.forest.get? w.forest.size n = some d
  /-- The nearest scope from `p` on that owns such a name holds its standard value. -/
  restored : ∀ n, w.Known n → ∃ d o, w.StandardValue n d ∧ w.forest.owner? p n = some o ∧
    w'.forest.own? o n = some d
  /-- Every other own variable is as it was. -/
  kept : ∀ e n, ¬ (w.Known n ∧ w.forest.owner? p n = some e) →
    w'.forest.own? e n = w.forest.own? e n
  /-- All scopes under the same outermost scope resolve the names of the language to their standard
      values. -/
  shared : ∀ r, w.forest.Under r p → ∀ e, w'.forest.Under r e → ∀ n, n.IsStandard →
    ∃ d, w.StandardValue n d ∧ w'.forest.get? e n = some d

/-- Only the outermost scope owns a name of the language, so whoever lies under it finds that. -/
theorem World.Standing.get?_standard {w : World} (h : w.Standing) {r e : ScopeId}
    (he : w.forest.Under r e) {n : Name} (hn : n.IsStandard) :
    w.forest.get? e n = w.forest.own? r n ∧ w.forest.owner? e n = some r := by
  unfold Forest.get? Forest.owner?
  induction he with
  | root hr =>
    have hown := h.roots hr (.inl hn)
    rw [Forest.chain_root hr, List.findSome?_singleton, List.find?_singleton, if_pos hown]
    exact ⟨rfl, rfl⟩
  | @child e p hp _ ih =>
    have hown := h.children hp hn
    rw [h.ordered.chain_child hp, List.findSome?_cons, Forest.owns_eq_false.1 hown,
      List.find?_cons_of_neg (by rw [hown]; exact Bool.false_ne_true)]
    exact ih

/-- **A new inner scope gives every name of the language and of add-ons its standard value.** -/
theorem World.Standing.scopeMade {w : World} (h : w.Standing) {rules : Rules}
    (hrules : rules.restores = true) {p : ScopeId} (hp : p < w.forest.size) :
    w.ScopeMade p { w with forest := w.forest.newScope rules w.addons (some p) } := by
  have hchange : Change w { w with forest := w.forest.newScope rules w.addons (some p) } :=
    .scope (fun q hq => Option.some.inj hq ▸ hp) rfl rfl
  have hsets : rules.sets (some p) = true := hrules
  -- the names are known from `p` on, so each has its owner there
  have howner : ∀ n, w.Known n → ∃ o, w.forest.owner? p n = some o := fun n hn =>
    Option.isSome_iff_exists.1 (h.has_known hp hn)
  have hrestored : ∀ n d o, w.StandardValue n d → w.forest.owner? p n = some o →
      (w.forest.newScope rules w.addons (some p)).own? o n = some d := by
    intro n d o hd ho
    rw [h.ordered.own?_newScope hp hrules ho, if_pos rfl, hd.lastBinding?_eq h.nameable]
    rfl
  have hkept : ∀ e n, ¬ (w.Known n ∧ w.forest.owner? p n = some e) →
      (w.forest.newScope rules w.addons (some p)).own? e n = w.forest.own? e n := by
    intro e n hne
    by_cases hn : w.Known n
    · obtain ⟨o, ho⟩ := howner n hn
      have heo : e ≠ o := fun heo => hne ⟨hn, heo ▸ ho⟩
      rw [h.ordered.own?_newScope hp hrules ho, if_neg heo]
    · exact Forest.own?_newScope_of_none (World.lastBinding?_unknown hn) e
  constructor
  case aside => rfl
  case size => exact w.forest.size_newScope rules w.addons (some p)
  case parent => exact w.forest.parent?_newScope rules w.addons (some p)
  case bare =>
    intro n
    have hnone := w.forest.own?_eq_none (Nat.le_refl _) n
    refine (hkept _ n fun hnew => ?_).trans hnone
    -- the new scope was no owner of anything before
    have hown := Forest.owns_owner hnew.2
    unfold Forest.owns at hown
    rw [hnone] at hown
    cases hown
  case resolved =>
    intro n hn
    obtain ⟨d, hd⟩ := hn.exists_standardValue
    exact ⟨d, hd, Forest.get?_newScope hsets (hd.lastBinding?_eq h.nameable)⟩
  case restored =>
    intro n hn
    obtain ⟨d, hd⟩ := hn.exists_standardValue
    obtain ⟨o, ho⟩ := howner n hn
    exact ⟨d, o, hd, ho, hrestored n d o hd ho⟩
  case kept => exact hkept
  case shared =>
    intro r hr e he n hn
    obtain ⟨d, hd⟩ := World.Known.exists_standardValue (w := w) (.inl hn)
    -- the outermost scope is the owner, as seen from `p` and from anywhere else
    refine ⟨d, hd, ?_⟩
    rw [((hchange.standing h).get?_standard he hn).1]
    exact hrestored n d r hd (h.get?_standard hr hn).2

end Scrawl
