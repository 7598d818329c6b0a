/-
  Scrawl.Proofs.Eval.Restoring — inner scopes need not set names again.

  Every scope sets all names of the language and of the add-ons when it is made.  A program that
  sets none of them itself, and registers no add-on, cannot tell whether inner scopes do this
  (`restoring_redundant`): as long as it runs, the forest stays settled, and setting the names again
  changes nothing.
-/

import Scrawl.Proofs.Eval.Evolution
import Scrawl.Proofs.Eval.Targets
import Scrawl.Proofs.Scope.Restoring

namespace Scrawl

open Grammar (Program Tree)

/-! ## §1. Programs that leave names alone -/

/-- Whether a key names nothing that the language or one of the add-ons does. -/
def Value.isFree (addons : List (Value × Value)) (key : Value) : Bool :=
  match key.toName with
  | .ok n => (standardBindings ++ addonBindings addons).all (·.1 != n)
  | .error _ => true

theorem Value.isFree_ne {addons : List (Value × Value)} {key : Value}
    (h : key.isFree addons = true) {n : Name} (hn : key.toName = .ok n) :
    ∀ b ∈ standardBindings ++ addonBindings addons, b.1 ≠ n := by
  unfold Value.isFree at h
  rw [hn] at h
  intro b hb
  exact bne_iff_ne.1 (List.all_eq_true.1 h b hb)

/-- Whether a text sets no name of the language or of an add-on, and has none as a parameter. -/
def leavesNames (addons : List (Value × Value)) (text : String) : Bool :=
  (Program.ofText grammarDepth text).targets.all (Value.isFree addons)

/-- Running a file that does set such names, and loading a library that registers add-ons. -/
def Action.disturbs (addons : List (Value × Value)) : Action → Bool
  | .call _ _ => false
  | .source text => !leavesNames addons text
  | .load text => Library.drawingText == some text

/-- What is registered as an add-on: a function of the language, a number or a string. -/
def Value.IsAddon (v : Value) : Prop :=
  ∃ tag ∈ ["native", "number", "string"], v.tag = .ok (.text tag)

theorem Value.IsAddon.callable {v : Value} (h : v.IsAddon) (inside : ScopeId → Prop) :
    v.Callable inside := by
  obtain ⟨tag, htag, hv⟩ := h
  intro hfunction
  obtain rfl := Value.text.inj (Except.ok.inj (hv.symm.trans hfunction))
  exact absurd htag (by decide)

theorem Value.IsAddon.setsOnly {v : Value} (h : v.IsAddon) (allowed : Value → Prop) :
    v.SetsOnly allowed := by
  obtain ⟨tag, htag, hv⟩ := h
  refine setsOnly_tagged (fun hpart => ?_) hv
  have hapart : ∀ s ∈ ["native", "number", "string"], s ∉ partTags := by decide
  exact hapart tag htag hpart

/-! ## §2. The invariant -/

/-- A sound world with given add-ons, in which outermost scopes have kept all names of the language
    and of these add-ons as they were set, and no value sets one of them. -/
structure World.Kept (addons : List (Value × Value)) (w : World) : Prop where
  /-- Functions and windows remember scopes that exist. -/
  sound : w.Sound
  /-- No add-on has come to it. -/
  addons_eq : w.addons = addons
  /-- The names are where they were set. -/
  settled : w.forest.Settled (standardBindings ++ addonBindings addons)
  /-- Functions leave them alone. -/
  bindings : ∀ {e n d}, w.forest.own? e n = some d → d.value.SetsOnly (·.isFree addons = true)

/-- Worlds that are kept, in a run whose inner scopes set names again and in one whose inner scopes
    do not. -/
def restoring (addons : List (Value × Value)) (rounds : Nat) (libraries : Libraries) (f : Fault) :
    Condition where
  rules := Rules.refusing { rounds, restores := true, libraries } (Action.disturbs addons) f
  rules' := { rounds, restores := false, libraries }
  escapes _ g := g = f
  world := World.Kept addons
  good := Value.SetsOnly (·.isFree addons = true)
  assignable key := key.isFree addons = true

section Steps

variable {addons : List (Value × Value)} {w : World}

theorem World.Kept.set (h : w.Kept addons) {e : ScopeId} {key : Value} {n : Name} {d : Datum}
    (hkey : key.isFree addons = true) (hn : key.toName = .ok n)
    (hcallable : d.value.Callable (· < w.forest.size))
    (hd : d.value.SetsOnly (·.isFree addons = true)) :
    World.Kept addons { w.noteSpelling e n key with forest := w.forest.set e n d } := by
  obtain ⟨spellings, hspellings⟩ := w.noteSpelling_eq e n key
  rw [hspellings]
  have hsize := w.forest.size_set e n d
  have hspelt : World.Sound { w with spellings } := { h.sound with }
  refine ⟨hspelt.withForest (Nat.le_of_eq hsize.symm) fun {e' n' d'} hd' => ?_, h.addons_eq,
    h.settled.set (Value.isFree_ne hkey hn) d, fun {e' n' d'} hd' => ?_⟩
  · rcases Forest.own?_set_cases _ hd' with rfl | hd'
    · rw [hsize]
      exact .inl hcallable
    · exact .inr hd'
  · rcases Forest.own?_set_cases _ hd' with rfl | hd'
    · exact hd
    · exact h.bindings hd'

/-- A new inner scope is the same by any rules. -/
theorem World.Kept.newScope_eq (h : w.Kept addons) (rules : Rules) {p : ScopeId}
    (hp : p < w.forest.size) :
    w.forest.newScope rules w.addons (some p) = w.forest.grow (some p) := by
  rw [h.addons_eq]
  exact h.settled.newScope_eq rules hp

theorem World.Kept.grow (h : w.Kept addons) {p : ScopeId} (hp : p < w.forest.size) :
    World.Kept addons { w with forest := w.forest.grow (some p) } where
  sound := h.sound.withForest (by rw [Forest.size_grow]; exact Nat.le_succ _)
    fun {e n d} hd => .inr (Forest.own?_grow _ _ e n ▸ hd)
  addons_eq := h.addons_eq
  settled := h.settled.grow hp
  bindings hd := h.bindings (Forest.own?_grow _ _ _ _ ▸ hd)

end Steps

/-- What the rules with refusals say to an action. -/
theorem restoring_refuses (addons : List (Value × Value)) (rounds : Nat) (libraries : Libraries)
    (f : Fault) (action : Action) :
    (restoring addons rounds libraries f).rules.refuses action = some f ∨
      action.disturbs addons = false ∧
        (restoring addons rounds libraries f).rules.refuses action = none := by
  cases h : action.disturbs addons with
  | true => exact .inl (if_pos h)
  | false => exact .inr ⟨rfl, if_neg (by rw [h]; exact Bool.false_ne_true)⟩

/-- What nodes and values leave names alone. -/
theorem restoring_closed (addons : List (Value × Value)) (rounds : Nat) (libraries : Libraries)
    (f : Fault) : (restoring addons rounds libraries f).Closed where
  good_operation h := h.of_operation
  good_assignment h := h.of_assignment
  good_call h := h.of_call
  good_function h := h.of_function
  good_value h := h
  good_block hv := by
    refine .call rfl (fun m hm => Except.ok.inj hm ▸ hv) fun b hb items hitems => ?_
    obtain rfl := Except.ok.inj hb
    obtain rfl := Except.ok.inj hitems
    exact List.forall_mem_nil _
  good_news name args hargs := by
    refine .call rfl (fun m hm => ?_) fun b hb items hitems => ?_
    · obtain rfl := Except.ok.inj hm
      exact Value.setsOnly_tagged (s := "symbol") (by decide) rfl
    · obtain rfl := Except.ok.inj hb
      obtain rfl := Except.ok.inj hitems
      intro m hm
      rcases hargs m hm with ⟨s, rfl⟩ | ⟨i, rfl⟩
      · exact Value.setsOnly_tagged (s := "string") (by decide) rfl
      · exact Value.setsOnly_tagged (s := "number") (by decide) rfl
  value_function hn htag hp hb _ := by
    obtain ⟨hparams, hbody⟩ := hn.of_function htag
    exact .function rfl (fun p hp' => Except.ok.inj hp' ▸ hparams _ hp)
      fun b hb' => Except.ok.inj hb' ▸ hbody _ hb
  value_payload _ _ := trivial
  value_operate _ _ _ _ := Value.setsOnly_tagged (s := "number") (by decide) rfl
  value_float _ := Value.setsOnly_tagged (s := "number") (by decide) rfl
  value_int _ := Value.setsOnly_tagged (s := "number") (by decide) rfl
  value_string _ := Value.setsOnly_tagged (s := "string") (by decide) rfl
  value_text s := .leaf fun tag htag heq => by
    have hlong : ∀ t ∈ Value.partTags, t.toList.length ≠ 1 := by decide
    exact text_tag_absurd (hlong tag htag) heq
  value_nothing := Value.setsOnly_tagged (s := "none") (by decide) rfl
  value_blank := .leaf fun tag _ heq => by
    have hnil : Value.nil = .text tag := Except.ok.inj heq
    cases hnil

/-- **Evaluation keeps the names of the language and of the add-ons as they are**, and goes the same
    way whether or not inner scopes set them again. -/
def restoringInvariant (addons : List (Value × Value)) (rounds : Nat) {libraries : Libraries}
    (hlibraries : libraries.Inert) (f : Fault) : Invariant where
  toCondition := restoring addons rounds libraries f
  fault_refl _ := rfl
  rounds_eq := rfl
  closed := restoring_closed addons rounds libraries f
  inside_mono hjk he := Forest.lt_size_of_le hjk he
  home_mono hjk he := Forest.lt_size_of_le hjk he
  home_inside he := he
  found hw _ hd := by
    obtain ⟨e', -, hown⟩ := List.exists_of_findSome?_eq_some hd
    exact ⟨hw.sound.bindings hown, hw.bindings hown⟩
  nameable hw a ha := (hw.sound.addons a ha).1
  homes _ _ _ _ hw hwindow := hw.sound.homes hwindow
  print _ hw := { hw with sound := { hw.sound with } }
  stage _ hw hhomes :=
    { hw with sound := { hw.sound with homes := fun hwindow => hhomes _ _ hwindow } }
  set hw _ hkey hn hd := hw.set hkey hn hd.1 hd.2
  scope {w p} hw hp := by
    have hlt : w.forest.size < (w.forest.grow (some p)).size := by
      rw [Forest.size_grow]
      exact Nat.lt_succ_self _
    rw [hw.newScope_eq _ hp, hw.newScope_eq _ hp]
    exact ⟨rfl, hw.grow hp, hlt⟩
  calls k fn args _ := .inr ⟨rfl, rfl⟩
  source k text := by
    rcases restoring_refuses addons rounds libraries f (.source text) with hf | ⟨hno, hnone⟩
    · exact .inl (.leaves hf fun _ _ _ _ => rfl)
    · refine .inr ⟨⟨hnone, rfl⟩, Tree.listSetsOnly _ fun key hkey => ?_⟩
      have hleaves : leavesNames addons text = true := by simpa [Action.disturbs] using hno
      exact List.all_eq_true.1 hleaves key hkey
  load _ k text := by
    rcases restoring_refuses addons rounds libraries f (.load text) with hf | ⟨hno, hnone⟩
    · exact .inl (.leaves hf fun _ _ _ _ => rfl)
    · refine .inr ⟨⟨hnone, rfl⟩, ?_⟩
      -- a library that is not the drawing library does nothing
      have hother : Library.drawingText ≠ some text := beq_eq_false_iff_ne.1 hno
      show Comparison.Lockstep _ k Comparison.Anything (Library.load libraries text)
        (Library.load libraries text)
      rw [Library.load_other hother]
      exact Comparison.inert_lockstep (fun _ => rfl) hlibraries text

/-! ## §3. Whole runs -/

/-- What a new scope sets leaves names alone. -/
theorem newBindings_setsOnly {addons : List (Value × Value)} (haddons : ∀ a ∈ addons, a.2.IsAddon)
    (allowed : Value → Prop) {b : Name × Datum} (hb : b ∈ standardBindings ++ addonBindings addons) :
    b.2.value.SetsOnly allowed := by
  rcases List.mem_append.1 hb with hb | hb
  · obtain ⟨s, hs, rfl⟩ := List.mem_map.1 hb
    dsimp only
    rcases standardNames_values s hs with ⟨fn, h⟩ | ⟨x, h⟩ | h
    · rw [h]; exact Value.setsOnly_tagged (s := "native") (by decide) rfl
    · rw [h]; exact Value.setsOnly_tagged (s := "number") (by decide) rfl
    · rw [h]; exact Value.setsOnly_tagged (s := "none") (by decide) rfl
  · obtain ⟨a, ha, -, hvalue⟩ := mem_addonBindings hb
    exact hvalue ▸ (haddons a ha).setsOnly allowed

/-- In a world with one scope, which has just been made, everything is as it was set. -/
theorem World.kept_first {start w : World} (hforest : start.forest = Forest.empty)
    (hstart : start.Rooted) (haddons : ∀ a ∈ start.addons, a.2.IsAddon) {rules : Rules} {room : Room}
    {e : ScopeId} (h : makeScope rules room none start = .ok e w) :
    w.Kept start.addons ∧ e < w.forest.size := by
  obtain ⟨-, rfl, hw⟩ := makeScope_root_eq_ok h
  have hnew : w.forest = start.forest.newScope rules start.addons none := by rw [hw]
  have hsettled := Forest.settled_first rules start.addons
  rw [← hforest, ← hnew] at hsettled
  refine ⟨⟨?_, by rw [hw], hsettled, fun {e n d} hd => ?_⟩, ?_⟩
  · rw [hw]
    exact (evolution_newScope hstart .refl rules fun p hp => nomatch (hp : none = some p)).1.toSound
  · rw [hnew] at hd
    rcases Forest.own?_newScope_cases _ _ _ hd with ⟨b, hb, rfl⟩ | hd
    · exact newBindings_setsOnly haddons _ hb
    · rw [hforest] at hd
      exact nomatch hd
  · rw [hnew, Forest.size_newScope]
    exact Nat.lt_succ_self _

/-- A world in which nothing has happened but that add-ons were registered. -/
theorem World.rooted_addons {addons : List (Value × Value)}
    (hnameable : ∀ a ∈ addons, ∃ n, a.1.toName = .ok n) (haddons : ∀ a ∈ addons, a.2.IsAddon)
    (scopeText : String) (files : FileTree) (cues : List Stage.Cue) :
    World.Rooted { World.empty scopeText files cues with addons } :=
  { World.rooted_empty scopeText files cues with
    addons := fun a ha => ⟨hnameable a ha, fun k => (haddons a ha).callable k⟩ }

/-- **Setting names again is redundant.**  Run a text in a fresh outermost scope, to any depth, with
    any room and any number of rounds for loops.  If neither the text nor a file that it runs sets a
    name of the language or of an add-on or has one as a parameter, and no add-on is registered on
    the way, then the whole outcome is the same if inner scopes start out empty: what is printed and
    drawn, every scope with everything bound in it, and the value or the fault at the end.  Libraries
    that may be loaded on the way do nothing but succeed or fail. -/
theorem restoring_redundant {addons : List (Value × Value)} (haddons : ∀ a ∈ addons, a.2.IsAddon)
    (rounds depth : Nat) {libraries : Libraries} (hlibraries : libraries.Inert) (room : Room)
    {text : String} (htext : leavesNames addons text = true)
    {scopeText : String} {files : FileTree} {cues : List Stage.Cue} {e : ScopeId} {w : World}
    (hfresh : makeScope { rounds, restores := true, libraries } room none
      { World.empty scopeText files cues with addons } = .ok e w)
    (havoids : Avoids (Action.disturbs addons) { rounds, restores := true, libraries }
      (fun rules => runText (eval rules depth) room e text) w) :
    makeScope { rounds, restores := false, libraries } room none
        { World.empty scopeText files cues with addons } = .ok e w ∧
      runText (eval { rounds, restores := false, libraries } depth) room e text w
        = runText (eval { rounds, restores := true, libraries } depth) room e text w := by
  refine ⟨hfresh, ?_⟩
  have hnameable := addonFault?_eq_none.1 (makeScope_root_eq_ok hfresh).1
  obtain ⟨hkept, he⟩ := World.kept_first rfl (World.rooted_addons hnameable haddons _ _ _) haddons
    hfresh
  have hnodes : ∀ n ∈ (Program.ofText grammarDepth text).nodes,
      n.SetsOnly (·.isFree addons = true) :=
    Tree.listSetsOnly _ fun key hkey => List.all_eq_true.1 htext key hkey
  -- whichever fault stands for a refusal, the runs are the same unless they end with it
  refine eq_of_forall_fault fun f => ?_
  let i := restoringInvariant addons rounds hlibraries f
  have hrun := i.outcome (fun _ _ hfault => hfault.symm)
    ((i.cover_self id).runText_lockstep () depth room he hnodes) (fun _ _ _ hab => i.passes_eq hab)
    hkept le_rfl
  have hrefused : runText (eval i.rules depth) room e text w
      = runText (eval { rounds, restores := true, libraries } depth) room e text w := havoids f
  rw [hrefused] at hrun
  exact hrun.imp (fun ⟨_, w', hw', hf⟩ => ⟨w', hf ▸ hw'⟩) And.left

/-- An add-on that takes the place of a function of the language, and a number. -/
def sampleAddons : List (Value × Value) :=
  [(.text "print", .nativeValue .printRaw), (.text "ten", .number (.int 10))]

/-- A program with a function inside another one. -/
def nestedSource : String :=
  "show = \x7b : ( a ) again = \x7b print ( a ) ; \x7d ; again ( ) ; \x7d ; show ( ten ) ;"

/-- Its statements. -/
def nestedStatements : List Tree :=
  [.assignment (.text "show") (some (.function [.text "a"]
      [.assignment (.text "again") (some (.function []
          [.call (some (.symbol (.text "print"))) [.symbol (.text "a")]])),
        .call (some (.symbol (.text "again"))) []])),
    .call (some (.symbol (.text "show"))) [.symbol (.text "ten")]]

theorem nestedSource_read :
    Program.ofText grammarDepth nestedSource = ⟨nestedStatements, none⟩ := by
  cbv

/-- A world with one scope, in which the add-ons are known. -/
def addonWorld : World :=
  { World.empty "" ⟨[]⟩ [] with
    addons := sampleAddons
    forest := Forest.empty.newScope .standard sampleAddons none }

theorem sampleAddons_isAddon : ∀ a ∈ sampleAddons, a.2.IsAddon :=
  List.forall_mem_cons.2 ⟨⟨"native", by decide, rfl⟩,
    List.forall_mem_singleton.2 ⟨"number", by decide, rfl⟩⟩

theorem nestedSource_avoids :
    Avoids (Action.disturbs sampleAddons) { rounds := 1, restores := true, libraries := .idle }
      (fun rules => runText (eval rules 12) .unlimited 0 nestedSource) addonWorld := by
  have hnameable : ∀ a ∈ sampleAddons, ∃ n, a.1.toName = .ok n :=
    List.forall_mem_cons.2 ⟨⟨_, rfl⟩, List.forall_mem_singleton.2 ⟨_, rfl⟩⟩
  have hrooted : addonWorld.Rooted :=
    (evolution_newScope (World.rooted_addons hnameable sampleAddons_isAddon "" ⟨[]⟩ []) .refl _
      fun p hp => nomatch (hp : none = some p)).1
  have hsize : 0 < addonWorld.forest.size := by
    unfold addonWorld
    rw [Forest.size_newScope]
    exact Nat.succ_pos _
  refine avoids_runText (fun _ => rfl) Libraries.idle_inert hrooted hsize (f := .endless)
    fun w' => ?_
  rw [runText_eq_evalItems _ 0 rfl (by rw [nestedSource_read]), nestedSource_read]
  exact Run.ne_error_of_succeeds (by decide +kernel) _ w'

theorem nestedSource_restoring :
    leavesNames sampleAddons nestedSource = true ∧
      makeScope { rounds := 1, restores := false, libraries := .idle } .unlimited none
        { World.empty "" ⟨[]⟩ [] with addons := sampleAddons } = .ok 0 addonWorld ∧
      runText (eval { rounds := 1, restores := false, libraries := .idle } 12) .unlimited 0
          nestedSource addonWorld
        = runText (eval { rounds := 1, restores := true, libraries := .idle } 12) .unlimited 0
          nestedSource addonWorld := by
  have hleaves : leavesNames sampleAddons nestedSource = true := by
    unfold leavesNames
    rw [nestedSource_read]
    decide +kernel
  exact ⟨hleaves, restoring_redundant sampleAddons_isAddon 1 12 Libraries.idle_inert .unlimited
    hleaves rfl nestedSource_avoids⟩

end Scrawl
