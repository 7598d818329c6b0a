/-
  Scrawl.Proofs.Eval.Blocks — the blocks of a branch.

  A branch with two blocks written in place evaluates its condition, and runs one of the blocks in a new
  scope, inside of another new one, inside the scope where the branch is (`eval_if`).  The outer one of the
  two stays bare.  So a name that is set in the block ends up with its owner around the branch if it is
  known there, and in the scope of the block otherwise, unless that owns it already
  (`if_runs_one_block`).
-/

import Scrawl.Proofs.Eval.Appending
import Scrawl.Proofs.Eval.Control
import Scrawl.Proofs.Eval.Parameters
import Scrawl.Proofs.Eval.Reloading
import Scrawl.Proofs.Files.Writing

namespace Scrawl

/-! ## §1. Getting to a block -/

/-- What a branch has got when it comes to run a block. -/
structure BlockStart where
  /-- The payload of the condition. -/
  payload : Value
  /-- The scope that the block remembers. -/
  outer : ScopeId
  /-- The scope in which it is run. -/
  scope : ScopeId

/-- What a branch with two blocks does before one of them is run. -/
def enterBlock (rules : Rules) (depth : Nat) (room : Room) (e : ScopeId) (condition : Value) :
    Run BlockStart := do
  let d ← eval rules (depth + 2) (room.below 3) e condition
  -- each of the blocks is a function and is given a scope to remember
  let _ ← makeScope rules (room.below 4) (some e)
  let _ ← makeScope rules (room.below 4) (some e)
  let payload ← evalPayload (eval rules (depth + 2)) (room.below 3) e d.value
  -- the one to be run is evaluated again, and called
  let outer ← makeScope rules (room.below 6) (some e)
  let scope ← makeScope rules (room.below 5) (some outer)
  return { payload, outer, scope }

section Getting

variable {rules : Rules} {room : Room} {e : ScopeId} {w : World}

/-- A name that is known, and means something. -/
theorem eval_symbol_eq {name : String} {d : Datum} (hd : w.forest.get? e (.text name) = some d)
    (hnil : d.value.isNil = false) (hroom : room.holds (1 + w.forest.visits e (.text name)) = true)
    (depth : Nat) : eval rules (depth + 1) room e (.symbolNode (.text name)) w = .ok d w := by
  rw [eval_symbol, if_pos hroom, hd]
  exact if_neg (Bool.eq_false_iff.1 hnil)

theorem mapM_three {α β γ : Type} (f : α → Run β) (a b c : α) (k : List β → Run γ) :
    ([a, b, c].mapM f >>= k) = (do let x ← f a; let y ← f b; let z ← f c; k [x, y, z]) := by
  simp only [List.mapM_cons, List.mapM_nil, bind_assoc, pure_bind]

/-- A branch with its three arguments. -/
theorem callNative_choose (hrefuses : ∀ action, rules.refuses action = none)
    (hroom : room.holds inspectionLevels = true) (inner : Evaluator) (callee : Value)
    (condition whenTrue whenFalse : Datum) :
    callNative rules inner room e callee (.nativeValue .choose) [condition, whenTrue, whenFalse]
      = (do branch inner (room.below 1) e condition.value whenTrue.value whenFalse.value
            return .plain .nothing : Run Datum) := by
  rw [callNative_eq hrefuses hroom, checkArity_of_right rfl]
  rfl

/-- **A branch with two blocks runs one of them once**, which one is decided by the payload of its
    condition. -/
theorem eval_if (hrefuses : ∀ action, rules.refuses action = none)
    (hroom : room.holds (2 + inspectionLevels) = true) {d : Datum}
    (hd : w.forest.get? e (.text "if") = some d) (hnative : d.value = .nativeValue .choose)
    (hsees : room.holds (3 + w.forest.visits e (.text "if")) = true) (depth : Nat)
    (condition : Value) (whenTrue whenFalse : List Value) :
    eval rules (depth + 3) room e
        (namedCall "if" [condition, functionNode [] whenTrue, functionNode [] whenFalse]) w
      = (do
          let start ← enterBlock rules depth room e condition
          let _ ← evalItems (eval rules (depth + 1)) (room.below 5) start.scope
            (.list (if start.payload.isOne then whenTrue else whenFalse))
          return .plain .nothing : Run Datum) w := by
  have hnil : d.value.isNil = false := by rw [hnative]; rfl
  have hfn : eval rules (depth + 2) (room.below 2) e (.symbolNode (.text "if")) w = .ok d w :=
    eval_symbol_eq hd hnil (Room.holds_below hsees (by omega)) (depth + 1)
  have hblock : ∀ body : List Value, eval rules (depth + 2) (room.below 3) e (functionNode [] body)
      = (do let fresh ← makeScope rules (room.below 4) (some e)
            return .plain (.function (.list []) (.list body) fresh) : Run Datum) := by
    intro body
    have hinside : (room.below 3).holds 1 = true := Room.holds_below hroom (by decide)
    exact (evalLayer_function hinside rfl rfl rfl _).trans (by rw [Room.below_below]; rfl)
  refine (evalLayer_call_native (Room.holds_of_le hroom (by decide)) rfl hfn hnative).trans ?_
  refine congrFun ?_ w
  rw [mapM_three]
  unfold enterBlock
  simp only [hblock, bind_assoc, pure_bind]
  refine bind_congr fun d => bind_congr fun first => bind_congr fun second => ?_
  rw [callNative_choose hrefuses (Room.holds_below hroom (by decide)), Room.below_below]
  unfold branch
  rw [bind_assoc]
  refine bind_congr fun payload => ?_
  have hchosen : (if payload.isOne then Value.function (.list []) (.list whenTrue) first
        else .function (.list []) (.list whenFalse) second)
      = .function (.list []) (.list (if payload.isOne then whenTrue else whenFalse))
          (if payload.isOne then first else second) := by
    split <;> rfl
  have hinside : (room.below 3).holds 3 = true := Room.holds_below hroom (by decide)
  dsimp only [Datum.plain]
  rw [hchosen, callBlock_function hinside, Room.below_below, Room.below_below]
  unfold runInside
  simp only [bind_assoc, pure_bind]

end Getting

/-! ## §2. The scopes of a block -/

/-- What has been made when a branch in the scope `e` of a world comes to run a block. -/
structure World.BlockScopes (w : World) (e : ScopeId) (start : BlockStart) (v : World) : Prop where
  /-- Neither of the two scopes was there before, and nothing has been made since. -/
  fresh : w.forest.size ≤ start.outer ∧ start.scope = start.outer + 1 ∧
    v.forest.size = start.scope + 1
  /-- The outer one lies in the scope of the branch, and is used for nothing. -/
  outer : v.InPlace e start.outer
  /-- The other one lies in that, and is used for nothing so far. -/
  scope : v.InPlace start.outer start.scope

section Scopes

variable {w : World} {e : ScopeId}

/-- What a host has done without a fault. -/
theorem Step.housed_of_ok {α : Type} {x : Run α} {w' : World} {a : α} (hstep : Step w (x.after w))
    (h : x w = .ok a w') (hw : w.Housed) : w'.Housed ∧ Evolves w w' := by
  have hafter : x.after w = w' := by
    unfold Run.after
    rw [h]
  exact hafter ▸ hstep.housed hw

section Later

variable {u u' : World} {rounds : Nat} {libraries : Libraries} {room : Room} (he : e < w.forest.size)
  (hu : u.Housed ∧ Evolves w u)
include he hu

/-- Evaluation in a scope that has been there for some time. -/
theorem housed_of_eval (hlibraries : libraries.Inert) {depth : Nat} {node : Value} {d : Datum}
    (h : eval { rounds, restores := true, libraries } depth room e node u = .ok d u') :
    u'.Housed ∧ Evolves w u' := by
  have hlt : e < u.forest.size := Nat.lt_of_lt_of_le he (Evolves.size_le hu.2)
  obtain ⟨hhoused, hlater⟩ := (Step.eval rounds depth hlibraries room hlt node).housed_of_ok h hu.1
  exact ⟨hhoused, hu.2.trans hlater⟩

/-- A scope made inside one that has been there for some time. -/
theorem housed_of_makeScope {s : ScopeId}
    (h : makeScope { rounds, restores := true, libraries } room (some e) u = .ok s u') :
    u'.Housed ∧ Evolves w u' := by
  have hlt : ∀ p, some e = some p → p < u.forest.size :=
    fun _ hp => Option.some.inj hp ▸ Nat.lt_of_lt_of_le he (Evolves.size_le hu.2)
  obtain ⟨hhoused, hlater⟩ := (Step.makeScope rounds libraries room (some e) hlt).housed_of_ok h hu.1
  exact ⟨hhoused, hu.2.trans hlater⟩

end Later

/-- A scope that has been made inside another one is used for nothing. -/
theorem inPlace_of_makeScope {rules : Rules} {room : Room} {s : ScopeId} {w' : World}
    (hhoused : w.Housed) (hstanding : w.Standing) (he : e < w.forest.size)
    (h : makeScope rules room (some e) w = .ok s w') :
    s = w.forest.size ∧ w'.forest.size = s + 1 ∧ w'.InPlace e s ∧
      ∀ {p x}, w.InPlace p x → w'.InPlace p x := by
  obtain ⟨-, rfl, rfl⟩ := makeScope_eq_ok h
  refine ⟨rfl, w.forest.size_newScope rules w.addons (some e),
    (World.InPlace.newScope hhoused hstanding rules he).1, fun hx => ⟨?_, ?_, hx.windows⟩⟩
  · exact w.forest.le_newScope rules w.addons (some e) _ _ hx.lies
  · exact hx.bare.newScope (Forest.lt_size_of_parent? hx.lies) _ _ _

/-- **The scopes for a block are new, and bare**, one inside the other inside the scope of the branch. -/
theorem enterBlock_eq_ok {rounds depth : Nat} {libraries : Libraries} (hlibraries : libraries.Inert)
    {room : Room} {condition : Value} {start : BlockStart} {v : World} (hhoused : w.Housed)
    (hstanding : w.Standing) (he : e < w.forest.size)
    (h : enterBlock { rounds, restores := true, libraries } depth room e condition w = .ok start v) :
    v.Housed ∧ Evolves w v ∧ w.BlockScopes e start v := by
  obtain ⟨d, u₁, hcondition, h⟩ := Run.bind_eq_ok h
  obtain ⟨_, u₂, hfirst, h⟩ := Run.bind_eq_ok h
  obtain ⟨_, u₃, hsecond, h⟩ := Run.bind_eq_ok h
  obtain ⟨payload, u₄, hpayload, h⟩ := Run.bind_eq_ok h
  obtain ⟨outer, u₅, houter, h⟩ := Run.bind_eq_ok h
  obtain ⟨scope, u₆, hscope, hpure⟩ := Run.bind_eq_ok h
  cases hpure
  obtain ⟨again, u, hagain, hlifted⟩ := Run.bind_eq_ok hpayload
  obtain ⟨-, rfl⟩ : again.value.payload = .ok payload ∧ u₄ = u := Run.ofExcept_eq_ok hlifted
  have h₁ := housed_of_eval he ⟨hhoused, .refl⟩ hlibraries hcondition
  have h₂ := housed_of_makeScope he h₁ hfirst
  have h₃ := housed_of_makeScope he h₂ hsecond
  have h₄ := housed_of_eval he h₃ hlibraries hagain
  have h₅ := housed_of_makeScope he h₄ houter
  have hsize : w.forest.size ≤ u₄.forest.size := Evolves.size_le h₄.2
  obtain ⟨rfl, hsize₅, hplace, -⟩ := inPlace_of_makeScope h₄.1 (Evolves.standing h₄.2 hstanding)
    (Nat.lt_of_lt_of_le he hsize) houter
  have hinside : u₄.forest.size < u₅.forest.size := by omega
  have h₆ := housed_of_makeScope hinside ⟨h₅.1, .refl⟩ hscope
  obtain ⟨rfl, hsize₆, hplace', hkept⟩ :=
    inPlace_of_makeScope h₅.1 (Evolves.standing h₅.2 hstanding) hinside hscope
  exact ⟨h₆.1, h₅.2.trans h₆.2, ⟨hsize, hsize₅, hsize₆⟩, hkept hplace, hplace'⟩

end Scopes

/-! ## §3. Setting names in a block -/

/-- What setting a variable of the scope `o` makes of a world. -/
structure World.VariableSet (x : World) (o : ScopeId) (n : Name) (d : Datum) (x' : World) : Prop where
  /-- Only variables change; at most, the spelling of the name is noted. -/
  aside : x' = { x with forest := x'.forest, spellings := x'.spellings }
  /-- No scope is made or moved. -/
  scopes : x'.forest.size = x.forest.size ∧ ∀ s, x'.forest.parent? s = x.forest.parent? s
  /-- The variable has its new value, and every other one is as it was. -/
  own : ∀ s m, x'.forest.own? s m = if s = o ∧ m = n then some d else x.forest.own? s m

/-- What setting a name in the scope of a block makes of a world, if the branch is in the scope `e`. -/
inductive World.SetInBlock (x : World) (e scope : ScopeId) (n : Name) (d : Datum) (x' : World) : Prop
  /-- The block's own variable is set, if it has one of that name. -/
  | own (hown : x.forest.owns scope n = true) (hset : x.VariableSet scope n d x')
  /-- Otherwise the variable that `e` sees is set, if there is one. -/
  | around {o : ScopeId} (hown : x.forest.owns scope n = false)
      (howner : x.forest.owner? e n = some o) (hset : x.VariableSet o n d x')
      (hseen : x'.forest.get? e n = some d)
  /-- Otherwise the block gets a variable of its own, which `e` does not see. -/
  | new (hown : x.forest.owns scope n = false) (hunknown : x.forest.has e n = false)
      (hset : x.VariableSet scope n d x') (hunseen : x'.forest.has e n = false)

/-- What holds at a moment of a block that was started in the world `v`. -/
structure World.BlockMoment (v : World) (e : ScopeId) (start : BlockStart) (x : World) : Prop where
  /-- The two scopes lie where they did. -/
  lies : x.forest.parent? start.outer = some (some e) ∧
    x.forest.parent? start.scope = some (some start.outer)
  /-- The outer one still owns nothing. -/
  bare : x.forest.Bare start.outer
  /-- The block has no variable of its own whose name was known around the branch from the start. -/
  kept : ∀ n, v.forest.has e n = true → x.forest.owns start.scope n = false
  /-- Names are set by the rules for blocks, given the room to look for them. -/
  sets : ∀ (room : Room) (key : Value) (n : Name) (d : Datum), key.toName = .ok n →
    room.holds (x.forest.visits start.scope n) = true →
    ∃ x', assign room start.scope key d x = .ok () x' ∧ x.SetInBlock e start.scope n d x'

section Moments

variable {v : World} {e outer scope : ScopeId}

/-- **The outer scope of a block stays bare**, at every moment of it. -/
theorem bare_until (hhoused : v.Housed) (hstanding : v.Standing) {rules : Rules}
    (hrefuses : ∀ action, rules.refuses action = none) (hlibraries : rules.libraries.Inert)
    (houter : v.InPlace e outer) (hscope : v.forest.parent? scope = some (some outer))
    (stop : World → Bool) (depth : Nat) (room : Room) (body : Value) :
    Evolves v ((evalItems (evalUntil stop rules depth) room scope body).after v) ∧
      ((evalItems (evalUntil stop rules depth) room scope body).after v).forest.Bare outer := by
  have hordered := hstanding.ordered scope outer hscope
  have hsize := Forest.lt_size_of_parent? hscope
  -- moving the scope of the block to where it lies makes no difference
  let m := moving hstanding rules hrefuses hlibraries e outer outer scope
  have hself : ∀ {w w'}, m.world w w' → w' = w := by
    intro w w' h
    have hmoved : w' = { w with forest := w.forest.move scope outer } := Moved.moved h
    rw [hmoved, Forest.move_self (Moved.beside h).inside]
  have hmoved : Moved v rules e outer outer scope v v := by
    refine ⟨by rw [Forest.move_self hscope], ⟨hhoused, .refl⟩, ⟨houter.lies, houter.lies, hscope, ?_⟩,
      ⟨houter.bare, houter.bare⟩, ?_⟩
    · exact hordered
    · intro n window hwindow
      exact ⟨hhoused.homes hwindow, houter.windows n window hwindow, houter.windows n window hwindow⟩
  have hstop : ∀ {w w'}, m.world w w' → stop w' = stop w := fun h => congrArg stop (hself h)
  have hevaluates := m.evalUntil_lockstep hstop (m.cover_self id) depth
  have hnodes : m.nodes body body := Condition.nodes_self (fun _ => rfl) fun _ _ _ _ => trivial
  have hagrees : m.Agrees v.forest m.datum (evalItems (evalUntil stop rules depth) room scope body v)
      (evalItems (evalUntil stop rules depth) room scope body v) :=
    m.evalItems_lockstep hevaluates ⟨hsize, Nat.ne_of_gt hordered, Nat.ne_of_gt hordered⟩ room hnodes
      v v hmoved le_rfl
  unfold Run.after
  generalize evalItems (evalUntil stop rules depth) room scope body v = r at hagrees
  cases hagrees with
  | ok hw _ _ => exact ⟨(Moved.housed hw).2, (Moved.bare hw).1⟩
  | error hw _ _ => exact ⟨(Moved.housed hw).2, (Moved.bare hw).1⟩
  | escape hescape => exact hescape.elim

/-- **How a name is set in a block**, as long as its outer scope is bare. -/
theorem exists_setInBlock {x : World} (hordered : x.forest.Ordered)
    (houter : x.forest.parent? outer = some (some e))
    (hscope : x.forest.parent? scope = some (some outer)) (hbare : x.forest.Bare outer) {room : Room}
    {key : Value} {n : Name} (hkey : key.toName = .ok n)
    (hroom : room.holds (x.forest.visits scope n) = true) (d : Datum) :
    ∃ x', assign room scope key d x = .ok () x' ∧ x.SetInBlock e scope n d x' := by
  have hsize := Forest.lt_size_of_parent? hscope
  obtain ⟨spellings, hassign⟩ := assign_eq hkey hroom d
  refine ⟨_, hassign, ?_⟩
  have hset : ∀ o, x.forest.target scope n = o →
      x.VariableSet o n d { x with forest := x.forest.set scope n d, spellings } := by
    rintro o rfl
    exact ⟨rfl, ⟨x.forest.size_set scope n d, fun s => x.forest.parent?_set scope s n d⟩,
      x.forest.own?_set hsize d⟩
  cases hown : x.forest.owns scope n with
  | true => exact .own hown (hset _ (Forest.target_of_owner (Forest.owner?_self hsize hown)))
  | false =>
    -- neither of the two scopes owns the name, so it is looked for around the branch
    have howner : x.forest.owner? scope n = x.forest.owner? e n :=
      (hordered.owner?_child hscope hown).trans (hordered.owner?_child houter (hbare n))
    have hlt : outer < scope := hordered scope outer hscope
    cases ho : x.forest.owner? e n with
    | some o =>
      refine .around hown ho (hset o (Forest.target_of_owner (howner.trans ho))) ?_
      -- they do not own it after it has been set either, so `e` sees what the block sees
      have hordered' : (x.forest.set scope n d).Ordered :=
        hordered.congr fun s => x.forest.parent?_set scope s n d
      have hown' : (x.forest.set scope n d).owns scope n = false := by
        refine Bool.eq_false_iff.2 fun hnow => ?_
        rcases Forest.owns_set_cases hnow with hbefore | ⟨-, -, hunknown⟩
        · exact Bool.eq_false_iff.1 hown hbefore
        · rw [Forest.has_eq_isSome, howner, ho] at hunknown
          cases hunknown
      have hbare' := hbare.set (Nat.ne_of_gt hlt) n d
      have hchain := hordered'.get?_child ((x.forest.parent?_set scope scope n d).trans hscope) hown'
      rw [hordered'.get?_child ((x.forest.parent?_set scope outer n d).trans houter) (hbare' n),
        Forest.get?_set hsize] at hchain
      exact hchain.symm
    | none =>
      have hunknown : x.forest.has e n = false := by rw [Forest.has_eq_isSome, ho]; rfl
      have htarget : x.forest.target scope n = scope := by
        unfold Forest.target
        rw [howner, ho]
        rfl
      refine .new hown hunknown (hset scope htarget) (Bool.eq_false_iff.2 fun hnow => ?_)
      -- the scope of the block is not among those around the branch
      obtain ⟨y, hy, howns⟩ := Forest.has_iff.1 hnow
      rw [Forest.chain_set] at hy
      have hclosed : x.forest.ClosedOutwards (· ≤ e) := fun s p hs hp =>
        Nat.le_trans (Nat.le_of_lt (hordered s p hp)) hs
      have hle : y ≤ e := hclosed.chain (Nat.le_refl e) y hy
      rcases Forest.owns_set_cases howns with hbefore | ⟨rfl, -, -⟩
      · exact Bool.eq_false_iff.1 hunknown (Forest.has_iff.2 ⟨y, hy, hbefore⟩)
      · have hbelow : e < outer := hordered outer e houter
        exact Nat.lt_irrefl _ (Nat.lt_of_lt_of_le (Nat.lt_trans hbelow hlt) hle)

end Moments

/-! ## §4. Blocks in place -/

/-- **A branch with two blocks written in place**, at any moment of what a host does and in any scope `e`
    in which `if` means the branch of the language.  It evaluates its condition once.  If that fails, or
    what it gives has no payload when it is evaluated again, or there is no room for a scope, neither block
    is run.  Otherwise one of them is run once, the first exactly if the payload counts as one, in a new
    scope inside another new one inside `e`, and the branch comes to nothing if the block comes to an end.
    At every moment of the block, beside libraries that do nothing but succeed or fail, names are set by
    the rules for blocks: a name that was known to `e` when the block started is set where `e` sees it. -/
theorem if_runs_one_block {scopeText : String} {files : FileTree} {cues : List Stage.Cue} {w : World}
    (h : Midway (World.empty scopeText files cues) w) {e : ScopeId} (he : e < w.forest.size) {d : Datum}
    (hd : w.forest.get? e (.text "if") = some d) (hnative : d.value = .nativeValue .choose)
    {room : Room} (hroom : room.holds (2 + inspectionLevels) = true)
    (hsees : room.holds (3 + w.forest.visits e (.text "if")) = true) (rounds depth : Nat)
    (libraries : Libraries) (condition : Value) (whenTrue whenFalse : List Value) :
    eval { rounds, restores := true, libraries } (depth + 3) room e
        (namedCall "if" [condition, functionNode [] whenTrue, functionNode [] whenFalse]) w
      = (do
          let start ← enterBlock { rounds, restores := true, libraries } depth room e condition
          let _ ← evalItems (eval { rounds, restores := true, libraries } (depth + 1)) (room.below 5)
            start.scope (.list (if start.payload.isOne then whenTrue else whenFalse))
          return .plain .nothing : Run Datum) w ∧
      (∀ f v, enterBlock { rounds, restores := true, libraries } depth room e condition w = .error f v →
        eval { rounds, restores := true, libraries } (depth + 3) room e
          (namedCall "if" [condition, functionNode [] whenTrue, functionNode [] whenFalse]) w
            = .error f v) ∧
      (libraries.Inert → ∀ start v,
        enterBlock { rounds, restores := true, libraries } depth room e condition w = .ok start v →
        w.BlockScopes e start v ∧ ∀ stop : World → Bool, v.BlockMoment e start
          ((evalItems (evalUntil stop { rounds, restores := true, libraries } (depth + 1)) (room.below 5)
            start.scope (.list (if start.payload.isOne then whenTrue else whenFalse))).after v)) := by
  obtain ⟨hhoused, hstanding⟩ := h.lawful
  have hrefuses : ∀ action, Rules.refuses { rounds, restores := true, libraries } action = none :=
    fun _ => rfl
  have hruns := eval_if hrefuses hroom hd hnative hsees depth condition whenTrue whenFalse
  refine ⟨hruns, fun f v hfails => hruns.trans (Run.bind_of_error hfails _), ?_⟩
  intro hlibraries start v hentered
  obtain ⟨hhoused', hlater, hscopes⟩ := enterBlock_eq_ok hlibraries hhoused hstanding he hentered
  refine ⟨hscopes, fun stop => ?_⟩
  have hstanding' : v.Standing := Evolves.standing hlater hstanding
  generalize hbody : Value.list (if start.payload.isOne then whenTrue else whenFalse) = body
  obtain ⟨hevolves, hbare⟩ := bare_until hhoused' hstanding' hrefuses hlibraries hscopes.outer
    hscopes.scope.lies stop (depth + 1) (room.below 5) body
  generalize (evalItems (evalUntil stop { rounds, restores := true, libraries } (depth + 1)) (room.below 5)
    start.scope body).after v = x at hevolves hbare
  have houter := Evolves.forest_le hevolves _ _ hscopes.outer.lies
  have hscope := Evolves.forest_le hevolves _ _ hscopes.scope.lies
  have hordered := (Evolves.standing hevolves hstanding').ordered
  constructor
  case lies => exact ⟨houter, hscope⟩
  case bare => exact hbare
  case kept =>
    intro n hn
    -- the outer scope knows what is known around it
    have hknown : v.forest.has start.outer n = true := by
      rw [Forest.has_eq_isSome,
        hstanding'.ordered.owner?_child hscopes.outer.lies (hscopes.outer.bare n)]
      exact hn
    exact Evolves.unowned hevolves hstanding' hscopes.scope.lies hknown (hscopes.scope.bare n)
  case sets =>
    intro room key n d hkey hroom
    exact exists_setInBlock hordered houter hscope hbare hkey hroom d

/-- A block of a new program. -/
theorem literal_runs_one_block :
    ∃ start v, enterBlock .standard 1 .unlimited 0 (.number (.text "1")) programWorld = .ok start v ∧
      programWorld.BlockScopes 0 start v ∧ ∀ stop : World → Bool, v.BlockMoment 0 start
        ((evalItems (evalUntil stop .standard 2) .unlimited start.scope
          (.list (if start.payload.isOne then [setNode "x" (.string "a")] else []))).after v) := by
  have hmoment : Midway (World.empty "" ⟨[]⟩ []) programWorld :=
    .between (.single (.step (.makeScope _ .idle .unlimited none nofun)))
  have hif : programWorld.forest.get? 0 (.text "if") = some (.plain (.nativeValue .choose)) :=
    programWorld_get? (List.mem_iff_getElem?.2 ⟨6, rfl⟩)
  obtain ⟨start, v, hentered⟩ := Run.eq_ok_of_fault?
    (x := enterBlock .standard 1 .unlimited 0 (.number (.text "1"))) (w := programWorld)
    (by decide +kernel)
  have hroom : Room.unlimited.holds (2 + inspectionLevels) = true := rfl
  obtain ⟨-, -, hblock⟩ := if_runs_one_block hmoment (by decide +kernel) hif rfl hroom rfl
    Rules.standard.rounds 1 .idle (.number (.text "1")) [setNode "x" (.string "a")] []
  exact ⟨start, v, hentered, hblock Libraries.idle_inert start v hentered⟩

/-! ## §5. Names that become known -/

/-- A library is loaded from a file in a scope where `library` has its value. -/
theorem eval_library {rules : Rules} (hrefuses : ∀ action, rules.refuses action = none) {e : ScopeId}
    {w : World} {d : Datum} (hd : w.forest.get? e (.text "library") = some d)
    (hnative : d.value = .nativeValue .library) {path : String} {content : Codec.Bytes}
    (hread : w.files.read path = .ok content) {text : String}
    (hunpack : Library.unpack content = .ok text) (depth : Nat) :
    eval rules (depth + 2) .unlimited e (namedCall "library" [.string path]) w
      = (do Library.load rules.libraries text; return .plain .nothing : Run Datum) w := by
  have hnil : d.value.isNil = false := by rw [hnative]; rfl
  have hfn : eval rules (depth + 1) .unlimited e (.symbolNode (.text "library")) w = .ok d w :=
    eval_symbol_eq hd hnil rfl depth
  have hds : [Value.string path].mapM (eval rules (depth + 1) .unlimited e) w
      = .ok [.plain (.string path)] w := by
    rw [List.mapM_cons, List.mapM_nil, eval_string rfl]
    rfl
  have hpath : evalPayload (eval rules (depth + 1)) .unlimited e (.string path) w = .ok (.text path) w :=
    evalPayload_string path rfl
  have hplain : plainText (.text path) w = .ok path w := rfl
  have hget : (get : Run World) w = .ok w w := rfl
  refine (evalLayer_call_native rfl rfl hfn hnative).trans ((Run.bind_of_ok hds _).trans ?_)
  rw [callNative_eq hrefuses rfl, checkArity_of_right rfl, pure_bind]
  show (do
    let path ← plainText (← evalPayload (eval rules (depth + 1)) .unlimited e (.string path))
    loadLibrary rules (← Library.unpack (← (← get).files.read path))
    return .plain .nothing : Run Datum) w = _
  refine (Run.bind_of_ok hpath _).trans ?_
  refine (Run.bind_of_ok hplain _).trans ?_
  refine (Run.bind_of_ok hget _).trans ?_
  rw [hread]
  refine (Run.bind_of_ok rfl _).trans ?_
  rw [hunpack]
  refine (Run.bind_of_ok rfl _).trans ?_
  unfold loadLibrary
  rw [Rules.permit_of_refuses (hrefuses _), pure_bind]

/-- Setting a name to a text. -/
theorem eval_setNode_string (rules : Rules) (depth : Nat) (e : ScopeId) (name text : String) (w : World) :
    ∃ spellings, eval rules (depth + 2) .unlimited e (setNode name (.string text)) w
      = .ok (.plain (.string text))
          { w with forest := w.forest.set e (.text name) (.plain (.string text)), spellings } := by
  have hkey : (Value.text name).toName = .ok (.text name) := rfl
  have hroom : Room.unlimited.holds (w.forest.visits e (.text name)) = true := rfl
  obtain ⟨spellings, hassign⟩ := assign_eq hkey hroom (.plain (.string text))
  have hsets : eval rules (depth + 2) .unlimited e (setNode name (.string text))
      = (do let d ← eval rules (depth + 1) .unlimited e (.string text)
            assign .unlimited e (.text name) d
            return d : Run Datum) := rfl
  rw [hsets, eval_string rfl, pure_bind]
  exact ⟨spellings, Run.bind_of_ok hassign _⟩

/-- What getting to a block makes of a world, if the condition is a numeral. -/
theorem enterBlock_number {rules : Rules} {depth : Nat} {e : ScopeId} {p : Value} {x : Float}
    (hx : p.toFloat = .ok x) {w v : World} {start : BlockStart}
    (h : enterBlock rules depth .unlimited e (.number p) w = .ok start v) :
    start.payload = .float x ∧ ∃ f : Forest, start.scope = f.size ∧
      v = { w with forest := f.newScope rules w.addons (some start.outer) } := by
  obtain ⟨d, u₁, hcondition, h⟩ := Run.bind_eq_ok h
  obtain ⟨_, u₂, hfirst, h⟩ := Run.bind_eq_ok h
  obtain ⟨_, u₃, hsecond, h⟩ := Run.bind_eq_ok h
  obtain ⟨payload, u₄, hpayload, h⟩ := Run.bind_eq_ok h
  obtain ⟨outer, u₅, houter, h⟩ := Run.bind_eq_ok h
  obtain ⟨scope, u₆, hscope, hpure⟩ := Run.bind_eq_ok h
  cases hpure
  rw [eval_number rfl, hx] at hcondition
  cases hcondition
  have hagain : evalPayload (eval rules (depth + 2)) .unlimited e (.number (.float x)) u₃
      = .ok (.float x) u₃ := evalPayload_number rfl rfl
  cases hagain.symm.trans hpayload
  obtain ⟨-, -, rfl⟩ := makeScope_eq_ok hfirst
  obtain ⟨-, -, rfl⟩ := makeScope_eq_ok hsecond
  obtain ⟨-, -, rfl⟩ := makeScope_eq_ok houter
  obtain ⟨-, rfl, rfl⟩ := makeScope_eq_ok hscope
  exact ⟨rfl, _, rfl, rfl⟩

/-- A world with one scope and one file. -/
def fileWorld (content : Codec.Bytes) : World :=
  (makeScope .standard .unlimited none).after (World.empty "" ⟨[(["g2d.lib"], content)]⟩ [])

theorem fileWorld_read (content : Codec.Bytes) :
    (fileWorld content).files.read "g2d.lib" = .ok content := by
  have hresolve : FileTree.empty.resolve "g2d.lib" = .ok (.free ["g2d.lib"]) := by decide +kernel
  have hwrite : FileTree.empty.write "g2d.lib" content = .ok (fileWorld content).files := by
    unfold FileTree.write
    rw [hresolve]
    rfl
  exact FileTree.read_write hwrite

/-- The names of the language have their values in it. -/
theorem fileWorld_get? {n : Name} {d : Datum} (h : (n, d) ∈ standardBindings) (content : Codec.Bytes) :
    (fileWorld content).forest.get? 0 n = some d := by
  have hforest : (fileWorld content).forest = Forest.empty.newScope .standard [] none := rfl
  rw [hforest]
  exact Forest.get?_newScope (f := .empty) rfl (lastBinding?_standard h)

/-- A world in which the drawing library is at hand. -/
def shippedWorld : World := fileWorld Library.shippedFile

/-- Whether a scope has variables with given values. -/
def Forest.holds (f : Forest) (e : ScopeId) (values : List (Name × Value)) : Bool :=
  values.all fun b => (f.own? e b.1).any (·.value.equal b.2)

/-- A block that sets a name before it loads the drawing library, which has a function of that name. -/
def shadowingBlock : List Value :=
  [setNode "g2d_create" (.string "mine"), namedCall "library" [.string "g2d.lib"]]

/-- It goes on to set that name, and the name of another function. -/
def resettingBlock : List Value :=
  [setNode "g2d_create" (.string "new"), setNode "g2d_line" (.string "new")]

/-- The block is run. -/
def blockNode (body : List Value) : Value :=
  namedCall "if" [.number (.text "1"), functionNode [] body, functionNode [] []]

/-- What the block does until the library is loaded. -/
def shadowingRun : Run ScopeId := do
  let start ← enterBlock .standard 17 .unlimited 0 (.number (.text "1"))
  let _ ← eval .standard 18 .unlimited start.scope (setNode "g2d_create" (.string "mine"))
  Library.loadDrawing
  return start.scope

section Shadowing

variable {w v : World} {start : BlockStart}
  (hentered : enterBlock .standard 17 .unlimited 0 (.number (.text "1")) w = .ok start v)
  (haddons : w.addons = []) (hread : w.files.read "g2d.lib" = .ok Library.shippedFile)
include hentered haddons hread

/-- In the scope of the block, `library` still has its value after the name has been set. -/
theorem shadowing_loads :
    ∃ u, eval .standard 18 .unlimited start.scope (setNode "g2d_create" (.string "mine")) v
          = .ok (.plain (.string "mine")) u ∧
      eval .standard 18 .unlimited start.scope (namedCall "library" [.string "g2d.lib"]) u
          = (do Library.loadDrawing; return .plain .nothing : Run Datum) u := by
  have hrefuses : ∀ action, Rules.standard.refuses action = none := fun _ => rfl
  have hx : (Value.text "1").toFloat = .ok 1 := by decide +kernel
  obtain ⟨-, f, hscope, hv⟩ := enterBlock_number hx hentered
  have hforest : v.forest = f.newScope .standard [] (some start.outer) := by rw [hv, haddons]
  have hsize : start.scope < v.forest.size := by
    rw [hforest, hscope, Forest.size_newScope]
    exact Nat.lt_succ_self f.size
  have hstandard : (.text "library", .plain (.nativeValue .library)) ∈ standardBindings :=
    List.mem_iff_getElem?.2 ⟨4, rfl⟩
  have hsets : Rules.standard.sets (some start.outer) = true := rfl
  have hlibrary : v.forest.get? start.scope (.text "library") = some (.plain (.nativeValue .library)) := by
    rw [hforest, hscope]
    exact Forest.get?_newScope hsets (lastBinding?_standard hstandard)
  obtain ⟨spellings, hset⟩ := eval_setNode_string .standard 16 start.scope "g2d_create" "mine" v
  refine ⟨_, hset, ?_⟩
  generalize hu : { v with
      forest := v.forest.set start.scope (.text "g2d_create") (.plain (.string "mine")),
      spellings } = u
  have hlibrary' : u.forest.get? start.scope (.text "library") = some (.plain (.nativeValue .library)) := by
    rw [← hu]
    exact (Forest.get?_set_of_ne hsize (by decide) _ _).trans hlibrary
  have hread' : u.files.read "g2d.lib" = .ok Library.shippedFile := by
    rw [← hu, hv]
    exact hread
  obtain ⟨text, htext⟩ := drawingText_eq_some
  have hload := eval_library hrefuses hlibrary' rfl hread' (Library.unpack_of_drawingText htext) 16
  rwa [Library.load_drawing htext] at hload

/-- **The block loads the library**, and goes on. -/
theorem eval_shadowing
    (hif : w.forest.get? 0 (.text "if") = some (.plain (.nativeValue .choose))) (rest : List Value) :
    eval .standard 20 .unlimited 0 (blockNode (shadowingBlock ++ rest)) w
      = (do let e ← shadowingRun
            let _ ← evalNodes (eval .standard 18) .unlimited e rest
            return .plain .nothing : Run Datum) w := by
  have hrefuses : ∀ action, Rules.standard.refuses action = none := fun _ => rfl
  have hx : (Value.text "1").toFloat = .ok 1 := by decide +kernel
  have hone : (Value.float 1).isOne = true := by decide +kernel
  have hpayload := (enterBlock_number hx hentered).1
  obtain ⟨u, hset, hload⟩ := shadowing_loads hentered haddons hread
  have hbody : evalNodes (eval .standard 18) .unlimited start.scope shadowingBlock
      = (do let _ ← eval .standard 18 .unlimited start.scope (setNode "g2d_create" (.string "mine"))
            eval .standard 18 .unlimited start.scope (namedCall "library" [.string "g2d.lib"])) := by
    unfold evalNodes shadowingBlock
    simp only [List.foldlM_cons, List.foldlM_nil, bind_pure]
  refine (eval_if hrefuses rfl hif rfl rfl 17 _ _ _).trans ?_
  unfold shadowingRun
  simp only [bind_assoc, pure_bind]
  refine (Run.bind_of_ok hentered _).trans (Eq.trans ?_ (Run.bind_of_ok hentered _).symm)
  rw [hpayload, if_pos hone]
  show (evalNodes (eval .standard 18) .unlimited start.scope (shadowingBlock ++ rest) >>= _) v = _
  rw [evalNodes_append, hbody]
  simp only [bind_assoc, pure_bind]
  refine (Run.bind_of_ok hset _).trans (Eq.trans ?_ (Run.bind_of_ok hset _).symm)
  rw [Run.bind_of_eq hload, bind_assoc]
  rfl

end Shadowing

/-- **A name that a block owns is not set around it, even if it has become known there.**  Neither name
    is known to scope 0 at first, both are once the library has been loaded, and then both are set in the
    block.  Scope 0 still has the function under the one that the block owns, and the text under the
    other one. -/
theorem shadowed_not_set :
    (∀ name ∈ ["g2d_create", "g2d_line"], shippedWorld.forest.has 0 (.text name) = false) ∧
      (∀ name ∈ ["g2d_create", "g2d_line"],
        ((eval .standard 20 .unlimited 0 (blockNode shadowingBlock)).after shippedWorld).forest.has 0
          (.text name) = true) ∧
      ((eval .standard 20 .unlimited 0 (blockNode (shadowingBlock ++ resettingBlock))).after
        shippedWorld).forest.holds 0
          [(.text "g2d_create", .nativeValue (.drawing 1 .create)), (.text "g2d_line", .string "new")]
            = true := by
  obtain ⟨start, v, hentered⟩ := Run.eq_ok_of_fault?
    (x := enterBlock .standard 17 .unlimited 0 (.number (.text "1"))) (w := shippedWorld)
    (by decide +kernel)
  have hif : shippedWorld.forest.get? 0 (.text "if") = some (.plain (.nativeValue .choose)) :=
    fileWorld_get? (List.mem_iff_getElem?.2 ⟨6, rfl⟩) _
  have hruns := eval_shadowing hentered rfl (fileWorld_read _) hif
  have hloaded := hruns []
  rw [List.append_nil] at hloaded
  refine ⟨by decide +kernel, ?_, ?_⟩
  · rw [Run.after_of_eq hloaded]
    decide +kernel
  · rw [Run.after_of_eq (hruns resettingBlock)]
    decide +kernel

end Scrawl
