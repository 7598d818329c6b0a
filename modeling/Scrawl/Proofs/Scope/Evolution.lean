/-
  Scrawl.Proofs.Scope.Evolution — how scopes and add-ons change over time.

  Whatever happens to a world, its scopes and add-ons change in four ways (`Change`): not at all, a
  name is set, a scope is made, or an add-on is registered.  Four facts follow from what a single
  change does, and hold along every sequence of changes: parents are older than their children and
  stay parents, names stay owned, outermost scopes own all names of the language and of add-ons
  (`World.Standing`), and inner scopes come to own none of these (`Evolves.owned_before`).
-/

import Mathlib.Logic.Relation
import Scrawl.Proofs.Scope.Growth

namespace Scrawl

/-! ## §1. Changes -/

/-- A name of the language. -/
def Name.IsStandard (n : Name) : Prop := ∃ b ∈ standardBindings, b.1 = n

/-- A name under which an add-on has been registered. -/
def World.Registered (w : World) (n : Name) : Prop := ∃ a ∈ w.addons, a.1.toName = .ok n

/-- What can happen to the scopes and add-ons of a world at once. -/
inductive Change : World → World → Prop
  /-- Nothing; something else may have been printed, drawn or written down. -/
  | aside {w w' : World} (hforest : w'.forest = w.forest) (haddons : w'.addons = w.addons) :
      Change w w'
  /-- A name is set, as seen from a scope. -/
  | set {w w' : World} {e : ScopeId} {n : Name} {d : Datum} (he : e < w.forest.size)
      (hforest : w'.forest = w.forest.set e n d) (haddons : w'.addons = w.addons) : Change w w'
  /-- A scope is made, outermost or inside one that exists. -/
  | scope {w w' : World} {rules : Rules} {parent : Option ScopeId}
      (hparent : ∀ p, parent = some p → p < w.forest.size)
      (hforest : w'.forest = w.forest.newScope rules w.addons parent)
      (haddons : w'.addons = w.addons) : Change w w'
  /-- An add-on is registered, and set again with all others in every scope. -/
  | register {w w' : World} {key v : Value} {n : Name} (hname : key.toName = .ok n)
      (hforest : w'.forest = w.forest.refresh w'.addons w.forest.size)
      (haddons : w'.addons = w.addons ++ [(key, v)]) : Change w w'

/-- Any number of changes, one after the other. -/
abbrev Evolves : World → World → Prop := Relation.ReflTransGen Change

namespace Change

variable {w w' : World} {e : ScopeId} {n : Name}

theorem size_le (h : Change w w') : w.forest.size ≤ w'.forest.size := by
  cases h with
  | aside hforest _ => exact Nat.le_of_eq (by rw [hforest])
  | set _ hforest _ => exact Nat.le_of_eq (by rw [hforest, Forest.size_set])
  | scope _ hforest _ => rw [hforest, Forest.size_newScope]; exact Nat.le_succ _
  | register _ hforest _ => exact Nat.le_of_eq (by rw [hforest, Forest.size_refresh])

theorem parent?_eq (h : Change w w') (he : e < w.forest.size) :
    w'.forest.parent? e = w.forest.parent? e := by
  cases h with
  | aside hforest _ => rw [hforest]
  | set _ hforest _ => rw [hforest, Forest.parent?_set]
  | scope _ hforest _ => rw [hforest, Forest.parent?_newScope, if_neg (Nat.ne_of_lt he)]
  | register _ hforest _ => rw [hforest, Forest.parent?_refresh]

theorem owns (h : Change w w') (ho : w.forest.owns e n = true) : w'.forest.owns e n = true := by
  cases h with
  | aside hforest _ => rwa [hforest]
  | set _ hforest _ => rw [hforest]; exact Forest.owns_set ho
  | scope _ hforest _ => rw [hforest]; exact Forest.owns_newScope ho
  | register _ hforest _ => rw [hforest]; exact Forest.owns_refresh ho

theorem registered (h : Change w w') (hn : w.Registered n) : w'.Registered n := by
  obtain ⟨a, ha, hname⟩ := hn
  cases h with
  | aside _ haddons => exact ⟨a, haddons ▸ ha, hname⟩
  | set _ _ haddons => exact ⟨a, haddons ▸ ha, hname⟩
  | scope _ _ haddons => exact ⟨a, haddons ▸ ha, hname⟩
  | register _ _ haddons => exact ⟨a, haddons ▸ List.mem_append_left _ ha, hname⟩

end Change

/-! ## §2. The standing invariant -/

/-- A name that every outermost scope owns. -/
def World.Known (w : World) (n : Name) : Prop := n.IsStandard ∨ w.Registered n

/-- What holds of the scopes of a world at all times. -/
structure World.Standing (w : World) : Prop where
  /-- Parents come before their children. -/
  ordered : w.forest.Ordered
  /-- Every add-on has a name. -/
  nameable : ∀ a ∈ w.addons, ∃ n, a.1.toName = .ok n
  /-- Outermost scopes own all names of the language and of add-ons. -/
  roots : ∀ {e}, w.forest.parent? e = some none → ∀ {n}, w.Known n → w.forest.owns e n = true
  /-- Inner scopes own no name of the language. -/
  children : ∀ {e p}, w.forest.parent? e = some (some p) → ∀ {n}, n.IsStandard →
    w.forest.owns e n = false

namespace World

variable {w : World} {e : ScopeId} {n : Name}

theorem Known.congr {w' : World} (haddons : w'.addons = w.addons) (h : w'.Known n) : w.Known n :=
  h.imp id fun ⟨a, ha, hname⟩ => ⟨a, haddons ▸ ha, hname⟩

theorem exists_binding (hnameable : ∀ a ∈ w.addons, ∃ n, a.1.toName = .ok n) (h : w.Known n) :
    ∃ b ∈ standardBindings ++ addonBindings w.addons, b.1 = n := by
  rcases h with ⟨b, hb, hn⟩ | ⟨a, ha, hn⟩
  · exact ⟨b, List.mem_append_left _ hb, hn⟩
  · obtain ⟨b, hb, hbn⟩ := exists_addonBinding hnameable ha hn
    exact ⟨b, List.mem_append_right _ hb, hbn⟩

theorem lt_size_of_owns (h : w.forest.owns e n = true) : e < w.forest.size :=
  Forest.lt_size_of_owns h

/-- A chain ends in an outermost scope, so all these names are known everywhere. -/
theorem Standing.has_known (h : w.Standing) (he : e < w.forest.size) (hn : w.Known n) :
    w.forest.has e n = true :=
  h.ordered.has_of_roots he fun _ _ hroot => h.roots hroot hn

end World

/-! ## §3. What a change keeps -/

section Step

variable {w w' : World} {e p : ScopeId} {n : Name}

/-- **A change makes no inner scope own a name of the language or of an add-on**, not even one that
    is just being registered: the outermost scope around it comes first. -/
theorem Change.owned_before (h : Change w w') (hw : w.Standing)
    (hp : w'.forest.parent? e = some (some p)) (hn : w'.Known n)
    (ho : w'.forest.owns e n = true) : w.forest.owns e n = true := by
  cases h with
  | aside hforest _ => rwa [hforest] at ho
  | set he hforest haddons =>
    rw [hforest] at ho
    rcases Forest.owns_set_cases ho with ho | ⟨rfl, rfl, hhas⟩
    · exact ho
    · rw [hw.has_known he (hn.congr haddons)] at hhas
      cases hhas
  | @scope rules parent hparent hforest haddons =>
    rw [hforest] at ho
    rcases Forest.owns_newScope_cases ho with ho | ⟨rfl, -, hhas⟩
    · exact ho
    · rw [hforest, Forest.parent?_newScope, if_pos rfl] at hp
      obtain rfl := Option.some.inj hp
      -- the new scope lies in one that knows the name
      have hgrown : (w.forest.grow (some p)).has w.forest.size n = true := by
        refine (hw.ordered.grow hparent).has_of_roots (by simp) fun r _ hr => ?_
        rw [Forest.parent?_grow] at hr
        split at hr
        · cases hr
        · rw [Forest.owns_grow]
          exact hw.roots hr (hn.congr haddons)
      rw [hgrown] at hhas
      cases hhas
  | register _ hforest haddons =>
    rw [hforest, Forest.parent?_refresh] at hp
    rw [hforest] at ho
    rcases Forest.owns_refresh_cases ho with ho | ⟨he, ⟨b, hb, rfl⟩, hhas⟩
    · exact ho
    · -- when the turn of the scope comes, the outermost ones before it own the name
      have hparent := w.forest.parent?_refresh w'.addons e
      have hknown : (w.forest.refresh w'.addons e).has e b.1 = true := by
        refine (hw.ordered.congr hparent).has_of_roots (by rwa [Forest.size_refresh]) ?_
        intro r hre hr
        have hr' : w.forest.parent? r = some none := hparent r ▸ hr
        have hlt : r < e := Nat.lt_of_le_of_ne hre fun heq => by
          rw [heq, hp] at hr'
          cases hr'
        rw [← Forest.has_root hr]
        exact Forest.has_refresh hlt (Nat.lt_trans hlt he) hb
      rw [hknown] at hhas
      cases hhas

theorem Change.ordered (h : Change w w') (hw : w.forest.Ordered) : w'.forest.Ordered := by
  cases h with
  | aside hforest _ => exact hforest ▸ hw
  | set _ hforest _ => rw [hforest]; exact hw.congr fun e => Forest.parent?_set _ _ e _ _
  | scope hparent hforest _ =>
    rw [hforest]
    refine (hw.grow hparent).congr fun e => ?_
    rw [Forest.parent?_newScope, Forest.parent?_grow]
  | register _ hforest _ => rw [hforest]; exact hw.congr fun e => Forest.parent?_refresh _ _ _ e

theorem Change.nameable (h : Change w w') (hw : ∀ a ∈ w.addons, ∃ n, a.1.toName = .ok n) :
    ∀ a ∈ w'.addons, ∃ n, a.1.toName = .ok n := by
  cases h with
  | aside _ haddons => exact haddons ▸ hw
  | set _ _ haddons => exact haddons ▸ hw
  | scope _ _ haddons => exact haddons ▸ hw
  | register hname _ haddons =>
    rw [haddons]
    intro a ha
    rcases List.mem_append.1 ha with ha | ha
    · exact hw a ha
    · obtain rfl := List.mem_singleton.1 ha
      exact ⟨_, hname⟩

/-- Outermost scopes own what they should after a change. -/
theorem Change.roots (h : Change w w') (hw : w.Standing)
    (he : w'.forest.parent? e = some none) (hn : w'.Known n) : w'.forest.owns e n = true := by
  -- an outermost scope that was there before owns what was known before
  have hold : w.forest.parent? e = some none → w.Known n → w'.forest.owns e n = true :=
    fun he hn => h.owns (hw.roots he hn)
  cases h with
  | aside hforest haddons => exact hold (hforest ▸ he) (hn.congr haddons)
  | set _ hforest haddons =>
    rw [hforest, Forest.parent?_set] at he
    exact hold he (hn.congr haddons)
  | @scope rules parent _ hforest haddons =>
    rw [hforest, Forest.parent?_newScope] at he
    split at he
    · next heq =>
      obtain rfl := Option.some.inj he
      obtain ⟨b, hb, rfl⟩ := World.exists_binding hw.nameable (hn.congr haddons)
      have hroot : (w.forest.newScope rules w.addons none).parent? w.forest.size = some none := by
        rw [Forest.parent?_newScope, if_pos rfl]
      rw [hforest, heq, ← Forest.has_root hroot]
      exact Forest.has_newScope rfl hb
    · exact hold he (hn.congr haddons)
  | register hname hforest haddons =>
    have hroot : (w.forest.refresh w'.addons w.forest.size).parent? e = some none := hforest ▸ he
    rw [hforest, Forest.parent?_refresh] at he
    have hnameable := Change.nameable (.register hname hforest haddons) hw.nameable
    rcases hn with hn | ⟨a, ha, hn⟩
    · exact hold he (.inl hn)
    · obtain ⟨b, hb, rfl⟩ := exists_addonBinding hnameable ha hn
      rw [hforest, ← Forest.has_root hroot]
      exact Forest.has_refresh (Forest.lt_size_of_parent? he) (Forest.lt_size_of_parent? he) hb

/-- **The standing invariant is kept by every change.** -/
theorem Change.standing (h : Change w w') (hw : w.Standing) : w'.Standing where
  ordered := h.ordered hw.ordered
  nameable := h.nameable hw.nameable
  roots he _ hn := h.roots hw he hn
  children := by
    intro e p hp n hn
    refine Bool.eq_false_iff.2 fun ho => ?_
    have hbefore := h.owned_before hw hp (.inl hn) ho
    rw [h.parent?_eq (World.lt_size_of_owns hbefore)] at hp
    rw [hw.children hp hn] at hbefore
    cases hbefore

end Step

/-! ## §4. Any number of changes -/

namespace Evolves

variable {w w' : World} {e p : ScopeId} {n : Name}

theorem size_le (h : Evolves w w') : w.forest.size ≤ w'.forest.size := by
  induction h with
  | refl => exact Nat.le_refl _
  | tail _ hchange ih => exact Nat.le_trans ih hchange.size_le

theorem parent?_eq (h : Evolves w w') (he : e < w.forest.size) :
    w'.forest.parent? e = w.forest.parent? e := by
  induction h with
  | refl => rfl
  | tail hbefore hchange ih =>
    rw [hchange.parent?_eq (Nat.lt_of_lt_of_le he (size_le hbefore)), ih]

theorem owns (h : Evolves w w') (ho : w.forest.owns e n = true) : w'.forest.owns e n = true := by
  induction h with
  | refl => exact ho
  | tail _ hchange ih => exact hchange.owns ih

theorem registered (h : Evolves w w') (hn : w.Registered n) : w'.Registered n := by
  induction h with
  | refl => exact hn
  | tail _ hchange ih => exact hchange.registered ih

theorem standing (h : Evolves w w') (hw : w.Standing) : w'.Standing := by
  induction h with
  | refl => exact hw
  | tail _ hchange ih => exact hchange.standing ih

/-- **Inner scopes own names of add-ons only from before.**  What an inner scope owns of the names
    that are known, it owned already when they came to be known. -/
theorem owned_before (h : Evolves w w') (hw : w.Standing) (hn : w.Known n)
    (hp : w'.forest.parent? e = some (some p)) (ho : w'.forest.owns e n = true) :
    w.forest.owns e n = true := by
  induction h with
  | refl => exact ho
  | tail hbefore hchange ih =>
    have hknown := hn.imp id fun hn => hchange.registered (registered hbefore hn)
    have howned := hchange.owned_before (standing hbefore hw) hp hknown ho
    exact ih (hchange.parent?_eq (World.lt_size_of_owns howned) ▸ hp) howned

end Evolves

/-- Nothing is wrong where there are no scopes. -/
theorem World.standing_empty (scopeText : String) (files : FileTree) (cues : List Stage.Cue) :
    (World.empty scopeText files cues).Standing where
  ordered _ _ h := nomatch h
  nameable _ h := nomatch h
  roots h := nomatch h
  children h := nomatch h

end Scrawl
