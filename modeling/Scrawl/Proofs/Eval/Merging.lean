/-
  Scrawl.Proofs.Eval.Merging — what merging scopes does, and what it does not.

  Merging one scope into another is meant to copy bindings (`Merged`).  It goes through the names of the
  other scope, all of them or those that are new, and fails at the first one that is to be copied
  (`merge_eq`).  So it does what it is meant to do exactly if there is nothing to copy, and otherwise
  fails and leaves everything as it was (`merged_only_without_copies`).
-/

import Scrawl.Proofs.Eval.Midway
import Scrawl.Proofs.Eval.StandardValues
import Scrawl.Proofs.Scope.Inner

namespace Scrawl

/-! ## §1. What merging is for -/

/-- One scope has been merged into another: all its bindings have been copied, or those that were
    new there. -/
structure Merged (f g : Forest) (e other : ScopeId) (all : Bool) : Prop where
  /-- What was to be copied has the value it has in the other scope. -/
  copied : ∀ n d, f.own? other n = some d → (all = true ∨ f.owns e n = false) → g.get? e n = some d
  /-- If only new names are copied, what the scope owned is as it was. -/
  kept : all = false → ∀ n d, f.own? e n = some d → g.get? e n = some d
  /-- Names that the other scope does not own mean what they did, everywhere. -/
  others : ∀ n, f.owns other n = false → ∀ x, g.get? x n = f.get? x n

/-- No binding of the other scope is to be copied. -/
def NothingToCopy (f : Forest) (e other : ScopeId) (all : Bool) : Prop :=
  ∀ n, f.owns other n = true → all = false ∧ f.owns e n = true

/-! ## §2. What merging does -/

/-- The names of a scope's own bindings are those it owns. -/
theorem Forest.owns_iff_mem (f : Forest) (e : ScopeId) (n : Name) :
    f.owns e n = true ↔ n ∈ ((f.scopes[e]?.map (·.bindings)).getD []).map (·.1) := by
  unfold Forest.owns Forest.own?
  cases f.scopes[e]? with
  | none => simp
  | some s =>
    show (s.bindings.lookup n).isSome = true ↔ n ∈ s.bindings.map (·.1)
    rw [Option.isSome_iff_ne_none, ne_eq, List.lookup_eq_none_iff, List.mem_map]
    constructor
    · intro h
      by_contra hnone
      refine h fun p hp => bne_iff_ne.2 fun heq => hnone ⟨p, hp, heq.symm⟩
    · rintro ⟨p, hp, rfl⟩ hall
      exact absurd rfl (bne_iff_ne.1 (hall p hp))

/-- **Merging fails at the first binding that is to be copied,** and changes nothing either way. -/
theorem merge_eq (w : World) (e other : ScopeId) (all : Bool) :
    (NothingToCopy w.forest e other all → merge e other all w = .ok () w) ∧
      (¬ NothingToCopy w.forest e other all → merge e other all w = .error .mergeUnsupported w) := by
  have hany : (((w.forest.scopes[other]?.map (·.bindings)).getD []).map (·.1)).any
      (fun n => all || !w.forest.owns e n) = true ↔ ¬ NothingToCopy w.forest e other all := by
    unfold NothingToCopy
    rw [List.any_eq_true]
    simp only [not_forall, exists_prop]
    refine exists_congr fun n => and_congr (w.forest.owns_iff_mem other n).symm ?_
    cases all <;> simp
  unfold merge
  constructor
  · intro hnothing
    refine (Run.bind_of_ok rfl _).trans ?_
    rw [if_neg fun h => hany.1 h hnothing]
    rfl
  · intro hsomething
    refine (Run.bind_of_ok rfl _).trans ?_
    rw [if_pos (hany.2 hsomething)]
    rfl

/-- Where nothing is to be copied, everything has been merged already. -/
theorem merged_of_nothing {f : Forest} {e other : ScopeId} {all : Bool} (he : e < f.size)
    (h : NothingToCopy f e other all) : Merged f f e other all where
  copied n d hd hto := by
    obtain ⟨hall, howned⟩ := h n (congrArg Option.isSome hd)
    rcases hto with hto | hto
    · rw [hall] at hto
      cases hto
    · rw [howned] at hto
      cases hto
  kept _ n d hd := by
    have howns : f.owns e n = true := congrArg Option.isSome hd
    rw [Forest.get?_eq_own?_target he, Forest.target_of_owner (Forest.owner?_self he howns), hd]
  others _ _ _ := rfl

/-- An outermost scope always has something to copy into an inner one, or if everything is to be
    copied. -/
theorem World.Standing.something_to_copy {w : World} (h : w.Standing) {e other : ScopeId} {all : Bool}
    (hother : w.forest.parent? other = some none)
    (hto : all = true ∨ ∃ p, w.forest.parent? e = some (some p)) :
    ¬ NothingToCopy w.forest e other all := by
  intro hnothing
  have hstandard : (Name.text "print").IsStandard := ⟨_, List.mem_cons_self, rfl⟩
  obtain ⟨hall, howned⟩ := hnothing _ (h.roots hother (.inl hstandard))
  rcases hto with hto | ⟨p, hp⟩
  · rw [hall] at hto
    cases hto
  · rw [h.children hp hstandard] at howned
    cases howned

/-- **Merging copies nothing.**  At every moment of what a host and its programs do, and for any two
    scopes: merging one into the other returns with the bindings merged if and only if there is nothing
    to copy.  Then it changes nothing.  Otherwise it fails, and changes nothing either.  So an outermost
    scope is never merged into an inner one, nor into any scope if everything is to be copied, and a
    scope is merged into itself if only new names are. -/
theorem merged_only_without_copies {scopeText : String} {files : FileTree} {cues : List Stage.Cue}
    {w : World} (h : Midway (World.empty scopeText files cues) w) {e : ScopeId}
    (he : e < w.forest.size) (other : ScopeId) (all : Bool) :
    ((∃ w', merge e other all w = .ok () w' ∧ Merged w.forest w'.forest e other all) ↔
      NothingToCopy w.forest e other all) ∧
    (NothingToCopy w.forest e other all → merge e other all w = .ok () w) ∧
    (¬ NothingToCopy w.forest e other all → merge e other all w = .error .mergeUnsupported w) ∧
    (w.forest.parent? other = some none →
      (all = true ∨ ∃ p, w.forest.parent? e = some (some p)) →
      merge e other all w = .error .mergeUnsupported w) ∧
    merge e e false w = .ok () w := by
  obtain ⟨hreturns, hfails⟩ := merge_eq w e other all
  refine ⟨⟨?_, fun hnothing => ⟨w, hreturns hnothing, merged_of_nothing he hnothing⟩⟩, hreturns, hfails,
    fun hother hto => hfails (h.lawful.2.something_to_copy hother hto), ?_⟩
  · rintro ⟨w', hok, -⟩
    by_contra hsomething
    rw [hfails hsomething] at hok
    cases hok
  · exact (merge_eq w e e false).1 fun n hn => ⟨rfl, hn⟩

/-- A scope with a variable of its own inside another one.  The outer one is not merged into it. -/
theorem outer_not_merged :
    Midway (World.empty "" ⟨[]⟩ []) (settingWorld "x" "a") ∧
      1 < (settingWorld "x" "a").forest.size ∧
      merge 1 0 false (settingWorld "x" "a") = .error .mergeUnsupported (settingWorld "x" "a") ∧
      merge 1 1 false (settingWorld "x" "a") = .ok () (settingWorld "x" "a") := by
  have hmidway : Midway (World.empty "" ⟨[]⟩ []) (settingWorld "x" "a") :=
    .between (settingWorld_history "x" "a")
  have hinside : 1 < (settingWorld "x" "a").forest.size := by decide +kernel
  have houter : (settingWorld "x" "a").forest.parent? 0 = some none := by decide +kernel
  have hinner : (settingWorld "x" "a").forest.parent? 1 = some (some 0) := by decide +kernel
  obtain ⟨-, -, -, hfails, hself⟩ := merged_only_without_copies hmidway hinside 0 false
  exact ⟨hmidway, hinside, hfails houter (.inr ⟨0, hinner⟩), hself⟩

/-- **The variable of the inner scope cannot be copied into the outer one,** which does not have it. -/
theorem inner_variable_not_copied :
    Midway (World.empty "" ⟨[]⟩ []) (settingWorld "x" "a") ∧
      (settingWorld "x" "a").forest.owns 1 (.text "x") = true ∧
      (settingWorld "x" "a").forest.owns 0 (.text "x") = false ∧
      ¬ ∃ w', merge 0 1 false (settingWorld "x" "a") = .ok () w' ∧
        Merged (settingWorld "x" "a").forest w'.forest 0 1 false := by
  have hmidway : Midway (World.empty "" ⟨[]⟩ []) (settingWorld "x" "a") :=
    .between (settingWorld_history "x" "a")
  have hinner : (settingWorld "x" "a").forest.owns 1 (.text "x") = true := by decide +kernel
  have houter : (settingWorld "x" "a").forest.owns 0 (.text "x") = false := by decide +kernel
  refine ⟨hmidway, hinner, houter, ?_⟩
  rintro ⟨w', hok, -⟩
  have hsomething : ¬ NothingToCopy (settingWorld "x" "a").forest 0 1 false := by
    intro hnothing
    have howned := (hnothing _ hinner).2
    rw [houter] at howned
    cases howned
  rw [(merge_eq _ 0 1 false).2 hsomething] at hok
  cases hok

end Scrawl
