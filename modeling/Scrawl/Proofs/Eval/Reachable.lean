/-
  Scrawl.Proofs.Eval.Reachable — the worlds that a host can bring about.

  A host makes scopes, runs programs in them, registers add-ons, loads libraries, merges scopes and
  lets things happen on the stage (`Step`).  Of all libraries, only the drawing library does anything.
  Whatever the host does, and whether it succeeds or not, the world evolves, and so the laws of scopes
  hold in every world it can reach (`reachable_lawful`).
-/

import Scrawl.Proofs.Eval.Evolution

namespace Scrawl

/-! ## §1. What a host does -/

/-- What a host can do to a world, to the end or up to a fault, where libraries other than the drawing
    library do nothing but succeed or fail. -/
inductive Step : World → World → Prop
  /-- Makes a scope, outermost or inside one that exists. -/
  | makeScope {w : World} (rounds : Nat) (libraries : Libraries) (room : Room)
      (parent : Option ScopeId) (hparent : ∀ p, parent = some p → p < w.forest.size) :
      Step w ((makeScope { rounds, restores := true, libraries } room parent).after w)
  /-- Runs the program that a text makes up. -/
  | runText {w : World} (rounds depth : Nat) {libraries : Libraries} (hlibraries : libraries.Inert)
      (room : Room) {e : ScopeId} (he : e < w.forest.size) (text : String) :
      Step w ((runText (eval { rounds, restores := true, libraries } depth) room e text).after w)
  /-- Runs statements from outside. -/
  | evalItems {w : World} (rounds depth : Nat) {libraries : Libraries} (hlibraries : libraries.Inert)
      (room : Room) {e : ScopeId} (he : e < w.forest.size) (tree : Value) :
      Step w ((evalItems (eval { rounds, restores := true, libraries } depth) room e tree).after w)
  /-- Evaluates a single node, such as the call of a function. -/
  | eval {w : World} (rounds depth : Nat) {libraries : Libraries} (hlibraries : libraries.Inert)
      (room : Room) {e : ScopeId} (he : e < w.forest.size) (node : Value) :
      Step w ((eval { rounds, restores := true, libraries } depth room e node).after w)
  /-- Lets something happen to a window. -/
  | play {w : World} (rounds depth : Nat) {libraries : Libraries} (hlibraries : libraries.Inert)
      (room : Room) (window : Nat) (cue : Stage.Cue) :
      Step w ((Stage.play (eval { rounds, restores := true, libraries } depth) room window
        cue).after w)
  /-- Registers an add-on that is no function of a program, under any name. -/
  | register {w : World} {key v : Value} {n : Name} (hkey : key.toName = .ok n)
      (hv : v.tag ≠ .ok (.text "function")) : Step w ((register key v).after w)
  /-- Loads the library with a given text. -/
  | load {w : World} {libraries : Libraries} (hlibraries : libraries.Inert) (text : String) :
      Step w ((Library.load libraries text).after w)
  /-- Merges one scope into another. -/
  | merge {w : World} (e other : ScopeId) (all : Bool) : Step w ((merge e other all).after w)

/-- Any number of things a host does. -/
abbrev Later : World → World → Prop := Relation.ReflTransGen Step

/-- **What a host does evolves the world.** -/
theorem Step.evolves {w w' : World} (h : Step w w') (hw : w.Rooted) :
    w'.Rooted ∧ Evolves w w' := by
  -- what evaluation keeps, by rules that refuse nothing
  have hself : ∀ rounds {libraries : Libraries}, libraries.Inert → ∀ f,
      Rules.Restricts { rounds, restores := true, libraries }
        { rounds, restores := true, libraries } f :=
    fun _ _ hlibraries => Rules.restricts_self (fun _ => rfl) hlibraries
  cases h with
  | makeScope rounds libraries room parent hparent =>
    exact evolves_after (fun f => evolution_makeScope _ room hparent) hw
  | runText rounds depth hlibraries room he text =>
    obtain ⟨r, hr⟩ := hw.places he
    exact evolves_after (fun f => (evolution_cover w (hself rounds hlibraries f)).runText_lockstep r
      depth room hr fun _ _ => trivial) hw
  | evalItems rounds depth hlibraries room he tree =>
    obtain ⟨r, hr⟩ := hw.places he
    exact evolves_after (fun f => (evolution_cover w (hself rounds hlibraries f)).evalItems_lockstep r
      depth room hr fun _ _ _ _ => trivial) hw
  | eval rounds depth hlibraries room he node =>
    obtain ⟨r, hr⟩ := hw.places he
    exact evolves_after (fun f => (evolution_cover w (hself rounds hlibraries f)).eval_lockstep r
      depth room hr trivial) hw
  | play rounds depth hlibraries room window cue =>
    -- the window's own scope decides where its functions are called
    exact evolves_after (fun f => (evolution_cover w (hself rounds hlibraries f)).play_lockstep 0
      depth room (Rules.draws_of_refuses fun _ => rfl) window cue) hw
  | register hkey hv =>
    exact evolves_after (fun f => evolution_register hkey fun _ htag => absurd htag hv) hw
  | load hlibraries text => exact evolves_after (fun f => evolution_load hlibraries text) hw
  | merge e other all =>
    -- merging looks at the scopes and either fails or does nothing
    refine evolves_after (A := fun _ _ _ _ => True) (fun f => ?_) hw
    refine .get ?_
    rintro v _ ⟨rfl, -⟩ -
    dsimp only
    split
    · exact .throw rfl
    · exact .pure fun _ _ => trivial

theorem Later.evolves {w w' : World} (h : Later w w') (hw : w.Rooted) :
    w'.Rooted ∧ Evolves w w' := by
  induction h with
  | refl => exact ⟨hw, .refl⟩
  | tail _ hstep ih =>
    obtain ⟨hrooted, hevolves⟩ := ih
    obtain ⟨hrooted', hevolves'⟩ := hstep.evolves hrooted
    exact ⟨hrooted', hevolves.trans hevolves'⟩

/-! ## §2. The laws of scopes -/

/-- A name was first registered in `u`, on an evolution from `start` to `w`. -/
structure FirstRegistered (start : World) (n : Name) (u w : World) : Prop where
  /-- The world evolved up to then. -/
  before : Evolves start u
  /-- Until then, the name was not registered. -/
  unregistered : ¬ u.Registered n
  /-- With the next change it was, and the world evolved further. -/
  after : ∃ v, Change u v ∧ v.Registered n ∧ Evolves v w

/-- A registered name was first registered at some time. -/
theorem Evolves.exists_first {start w : World} (h : Evolves start w) {n : Name}
    (hstart : ¬ start.Registered n) (hn : w.Registered n) : ∃ u, FirstRegistered start n u w := by
  induction h with
  | refl => exact absurd hn hstart
  | @tail v w hbefore hchange ih =>
    by_cases hv : v.Registered n
    · obtain ⟨u, hu⟩ := ih hv
      obtain ⟨v', hchange', hv', hafter⟩ := hu.after
      exact ⟨u, hu.before, hu.unregistered, v', hchange', hv', hafter.tail hchange⟩
    · exact ⟨v, hbefore, hv, w, hchange, hn, .refl⟩

/-- The laws of scopes in a world `w` that was reached from `start`, and in any later one. -/
structure World.Lawful (start w later : World) : Prop where
  /-- Every parent was made before its child. -/
  parent_older : ∀ e p, w.forest.parent? e = some (some p) → p < e
  /-- No parent ever changes. -/
  parent_stays : ∀ e < w.forest.size, later.forest.parent? e = w.forest.parent? e
  /-- Every chain ends, in an outermost scope. -/
  chain_ends : ∀ e < w.forest.size, ∃ root,
    (w.forest.chain e).getLast? = some root ∧ w.forest.parent? root = some none
  /-- An outermost scope owns every name of the language. -/
  root_standard : ∀ e, w.forest.parent? e = some none → ∀ n, n.IsStandard →
    w.forest.owns e n = true
  /-- An outermost scope owns the name of every add-on. -/
  root_addon : ∀ e, w.forest.parent? e = some none → ∀ n, w.Registered n →
    w.forest.owns e n = true
  /-- An inner scope owns no name of the language. -/
  child_standard : ∀ e p, w.forest.parent? e = some (some p) → ∀ n, n.IsStandard →
    w.forest.owns e n = false
  /-- The name of every add-on was registered at some time, and an inner scope that owns it owned it
      already before it was first registered. -/
  child_addon : ∀ n, w.Registered n → (∃ u, FirstRegistered start n u w) ∧
    ∀ u, FirstRegistered start n u w → ∀ e p, w.forest.parent? e = some (some p) →
      w.forest.owns e n = true → u.forest.owns e n = true
  /-- What a scope owns it owns for ever. -/
  owned_stays : ∀ e n, w.forest.owns e n = true → later.forest.owns e n = true

/-- **The laws of scopes hold in every world that can be reached**, from one without scopes by
    whatever a host does. -/
theorem reachable_lawful {scopeText : String} {files : FileTree} {cues : List Stage.Cue}
    {w later : World} (h : Later (World.empty scopeText files cues) w) (hlater : Later w later) :
    World.Lawful (World.empty scopeText files cues) w later := by
  obtain ⟨hsound, hevolves⟩ := h.evolves (World.rooted_empty scopeText files cues)
  obtain ⟨-, hafter⟩ := hlater.evolves hsound
  have hempty := World.standing_empty scopeText files cues
  have hstanding := hevolves.standing hempty
  constructor
  case parent_older => exact hstanding.ordered
  case parent_stays => exact fun e he => hafter.parent?_eq he
  case chain_ends =>
    intro e he
    obtain ⟨root, hlast, hroot, -⟩ := hstanding.ordered.exists_root e he
    exact ⟨root, hlast, hroot⟩
  case root_standard => exact fun e he n hn => hstanding.roots he (.inl hn)
  case root_addon => exact fun e he n hn => hstanding.roots he (.inr hn)
  case child_standard => exact fun e p hp n hn => hstanding.children hp hn
  case child_addon =>
    intro n hn
    refine ⟨hevolves.exists_first (fun ⟨a, ha, _⟩ => nomatch ha) hn, fun u hu e p hp ho => ?_⟩
    obtain ⟨v, hchange, hv, hvw⟩ := hu.after
    have hustanding := hu.before.standing hempty
    -- back to the registration, and then over the registration itself
    have howned := hvw.owned_before (hchange.standing hustanding) (.inr hv) hp ho
    have hpv := hvw.parent?_eq (World.lt_size_of_owns howned) ▸ hp
    exact hchange.owned_before hustanding hpv (.inr hv) howned
  case owned_stays => exact fun e n ho => hafter.owns ho

/-- A scope inside another one. -/
def nestedWorld : World :=
  (makeScope .standard .unlimited (some 0)).after
    ((makeScope .standard .unlimited none).after (World.empty "" ⟨[]⟩ []))

/-- Both scopes can be made, and an add-on registered then. -/
theorem nestedWorld_lawful :
    Later (World.empty "" ⟨[]⟩ []) nestedWorld ∧
      Later nestedWorld ((register (.text "shout") (.nativeValue .print)).after nestedWorld) ∧
      World.Lawful (World.empty "" ⟨[]⟩ []) nestedWorld
        ((register (.text "shout") (.nativeValue .print)).after nestedWorld) := by
  have houter : 0 < (Forest.empty.newScope .standard [] none).size := by
    rw [Forest.size_newScope]
    exact Nat.succ_pos _
  have hnested : Later (World.empty "" ⟨[]⟩ []) nestedWorld :=
    .tail (.single (.makeScope _ _ .unlimited none nofun))
      (.makeScope _ _ .unlimited (some 0) fun p hp => Option.some.inj hp ▸ houter)
  have hregister : Later nestedWorld
      ((register (.text "shout") (.nativeValue .print)).after nestedWorld) :=
    .single (.register rfl (tag_absurd (by decide)))
  exact ⟨hnested, hregister, reachable_lawful hnested hregister⟩

end Scrawl
