/-
  Scrawl.Proofs.Eval.Parameters — what calling a function does to variables before its body is run.

  Parameters are set like any other name, in turn, as seen from the new scope for the call
  (`bindParams_eq`).  So a parameter that is known around the function overwrites the variable there, and
  any other one becomes a variable of the new scope; a name that comes twice ends up with its last
  argument (`World.ParamsBound`).  The body is run in the world that this leaves, and nothing is done
  after it (`call_binds_parameters`).
-/

import Scrawl.Proofs.Eval.Midway
import Scrawl.Proofs.Eval.StandardValues
import Scrawl.Proofs.Scope.Inner

namespace Scrawl

/-! ## §1. Setting parameters in turn -/

/-- A parameter binds a name. -/
def Value.Binds (p : Value) (n : Name) : Prop := ∃ key, p.payload = .ok key ∧ key.toName = .ok n

/-- With enough room a name is set; at most its spelling is noted besides. -/
theorem assign_eq {room : Room} {e : ScopeId} {key : Value} {n : Name} {w : World}
    (hkey : key.toName = .ok n) (hroom : room.holds (w.forest.visits e n) = true) (d : Datum) :
    ∃ spellings, assign room e key d w
      = .ok () { w with forest := w.forest.set e n d, spellings } := by
  obtain ⟨spellings, hspellings⟩ := w.noteSpelling_eq e n key
  refine ⟨spellings, ?_⟩
  unfold assign
  rw [hkey]
  refine (Run.bind_of_ok rfl _).trans ((Run.bind_of_ok rfl _).trans ?_)
  rw [Room.descend_of_holds hroom]
  refine (Run.bind_of_ok rfl _).trans ?_
  show EStateM.Result.ok () { w.noteSpelling e n key with
    forest := (w.noteSpelling e n key).forest.set e n d } = _
  rw [hspellings]

/-- **Parameters are set in turn**, each name to its argument. -/
theorem bindParams_eq {room : Room} {e : ScopeId} {params : List Value} {names : List Name}
    (h : List.Forall₂ Value.Binds params names) (args : List Datum) {w : World}
    (hroom : room.holds (w.forest.chain e).length = true) :
    ∃ spellings, bindParams room e (params.zip args) w
      = .ok () { w with forest := w.forest.setAll e (names.zip args), spellings } := by
  induction h generalizing args w with
  | nil => exact ⟨w.spellings, rfl⟩
  | @cons p n params names hbinds _ ih =>
    cases args with
    | nil => exact ⟨w.spellings, rfl⟩
    | cons d args =>
      obtain ⟨key, hpayload, hkey⟩ := hbinds
      obtain ⟨spellings, hassign⟩ :=
        assign_eq hkey (Room.holds_of_le hroom (w.forest.visits_le e n)) d
      -- setting a name leaves the chain as it is, so there is room for the others
      obtain ⟨spellings', hrest⟩ := ih args
        (w := { w with forest := w.forest.set e n d, spellings }) (by simpa using hroom)
      refine ⟨spellings', ?_⟩
      show (liftM p.payload >>= fun key => assign room e key d >>= fun _ =>
        bindParams room e (params.zip args) : Run Unit) w = _
      rw [hpayload]
      exact (Run.bind_of_ok hassign _).trans hrest

/-! ## §2. Variables when the body starts -/

/-- As many arguments as names give every name a value, and no other one. -/
theorem lastBinding?_zip_isSome {names : List Name} {args : List Datum}
    (hlength : args.length = names.length) (n : Name) :
    (lastBinding? (names.zip args) n).isSome = true ↔ n ∈ names := by
  rw [Option.isSome_iff_ne_none, Ne, lastBinding?_eq_none, not_forall]
  constructor
  · rintro ⟨b, hb⟩
    obtain ⟨hmem, hname⟩ := Classical.not_imp.1 hb
    exact not_not.1 hname ▸ (List.of_mem_zip hmem).1
  · intro hn
    obtain ⟨i, hi, rfl⟩ := List.getElem_of_mem hn
    have hi' : i < (names.zip args).length := by simp; omega
    refine ⟨(names.zip args)[i], Classical.not_imp.2 ⟨List.getElem_mem hi', ?_⟩⟩
    simp

/-- What binding names to arguments for a call of a function that remembers `home` makes of the world
    `w`, by way of the world `u` in which only the scope for the call has been made. -/
structure World.ParamsBound (w : World) (home : ScopeId) (names : List Name) (args : List Datum)
    (u w' : World) : Prop where
  /-- The scope for the call is made first. -/
  made : w.ScopeMade home u
  /-- Then only variables are set; at most, spellings of their names are noted. -/
  aside : w' = { u with forest := w'.forest, spellings := w'.spellings }
  /-- No other scope is made or moved. -/
  scopes : w'.forest.size = u.forest.size ∧ ∀ e, w'.forest.parent? e = u.forest.parent? e
  /-- The new scope lies in the one that the function remembers. -/
  lies : w'.forest.parent? w.forest.size = some (some home)
  /-- It resolves every parameter to the last argument given for it. -/
  resolved : ∀ n ∈ names, ∃ d, lastBinding? (names.zip args) n = some d ∧
    w'.forest.get? w.forest.size n = some d
  /-- It owns the parameters that are not known around the function, and nothing else. -/
  owned : ∀ n, w'.forest.owns w.forest.size n = true ↔ n ∈ names ∧ w.forest.has home n = false
  /-- A parameter that is known around the function has overwritten the variable there. -/
  written : ∀ n ∈ names, ∀ o, w.forest.owner? home n = some o → ∃ d,
    lastBinding? (names.zip args) n = some d ∧ w'.forest.own? o n = some d
  /-- Every other own variable is as it was when the scope had been made. -/
  kept : ∀ e n, n ∉ names ∨ e ≠ (w.forest.owner? home n).getD w.forest.size →
    w'.forest.own? e n = u.forest.own? e n
  /-- If no parameter is known around the function, no scope but the new one is touched. -/
  apart : (∀ n ∈ names, w.forest.has home n = false) → ∀ e, e ≠ w.forest.size →
    ∀ n, w'.forest.own? e n = u.forest.own? e n
  /-- If one is, the scope that the function remembers sees the argument, too. -/
  seen : ∀ n ∈ names, w.forest.has home n = true → ∃ d,
    lastBinding? (names.zip args) n = some d ∧ w'.forest.get? home n = some d

/-- **Setting names from a new scope**, which owns nothing yet. -/
theorem World.ScopeMade.paramsBound {w u : World} {home : ScopeId} (h : w.ScopeMade home u)
    (hw : w.forest.Ordered) (hhome : home < w.forest.size) {names : List Name} {args : List Datum}
    (hlength : args.length = names.length) (spellings : List ((ScopeId × Name) × Value)) :
    w.ParamsBound home names args u
      { u with forest := u.forest.setAll w.forest.size (names.zip args), spellings } := by
  have hnew : w.forest.size < u.forest.size := by rw [h.size]; omega
  have htarget : ∀ n, u.forest.target w.forest.size n
      = (w.forest.owner? home n).getD w.forest.size := by
    intro n
    unfold Forest.target
    rw [h.owner?_new hw hhome]
  have hlast : ∀ n ∈ names, ∃ d, lastBinding? (names.zip args) n = some d := fun n hn =>
    Option.isSome_iff_exists.1 ((lastBinding?_zip_isSome hlength n).2 hn)
  have hown : ∀ e n, (u.forest.setAll w.forest.size (names.zip args)).own? e n
      = if e = (w.forest.owner? home n).getD w.forest.size
        then (lastBinding? (names.zip args) n).or (u.forest.own? e n) else u.forest.own? e n := by
    intro e n
    rw [Forest.own?_setAll hnew, htarget]
  have hlies : (u.forest.setAll w.forest.size (names.zip args)).parent? w.forest.size
      = some (some home) := by
    rw [Forest.parent?_setAll, h.lies]
  have hordered : (u.forest.setAll w.forest.size (names.zip args)).Ordered :=
    (h.ordered hw hhome).congr fun e => u.forest.parent?_setAll _ e _
  have hresolved : ∀ n ∈ names, ∃ d, lastBinding? (names.zip args) n = some d ∧
      (u.forest.setAll w.forest.size (names.zip args)).get? w.forest.size n = some d := by
    intro n hn
    obtain ⟨d, hd⟩ := hlast n hn
    refine ⟨d, hd, ?_⟩
    rw [Forest.get?_setAll hnew, hd]
    rfl
  have howned : ∀ n, (u.forest.setAll w.forest.size (names.zip args)).owns w.forest.size n = true ↔
      n ∈ names ∧ w.forest.has home n = false := by
    intro n
    rw [Forest.owns, hown, h.bare, Forest.has_eq_isSome, ← lastBinding?_zip_isSome hlength]
    cases ho : w.forest.owner? home n with
    | none => simp
    | some o =>
      -- the owner was there before the new scope
      have hlt : o < w.forest.size := World.lt_size_of_owns (Forest.owns_owner ho)
      simp [Nat.ne_of_gt hlt]
  have hkept : ∀ e n, n ∉ names ∨ e ≠ (w.forest.owner? home n).getD w.forest.size →
      (u.forest.setAll w.forest.size (names.zip args)).own? e n = u.forest.own? e n := by
    intro e n hne
    rw [hown]
    split
    · next he =>
      have hn : n ∉ names := hne.resolve_right fun hne => hne he
      have hnone : lastBinding? (names.zip args) n = none := by
        rw [← lastBinding?_zip_isSome hlength] at hn
        simpa using hn
      rw [hnone, Option.none_or]
    · rfl
  constructor
  case made => exact h
  case aside => rfl
  case scopes => exact ⟨u.forest.size_setAll _ _, fun e => u.forest.parent?_setAll _ e _⟩
  case lies => exact hlies
  case resolved => exact hresolved
  case owned => exact howned
  case written =>
    intro n hn o ho
    obtain ⟨d, hd⟩ := hlast n hn
    refine ⟨d, hd, ?_⟩
    rw [hown, ho, Option.getD_some, if_pos rfl, hd]
    rfl
  case kept => exact hkept
  case apart =>
    intro hunknown e he n
    refine hkept e n ?_
    by_cases hn : n ∈ names
    · have hnone : w.forest.owner? home n = none := by
        simpa [Forest.has_eq_isSome] using hunknown n hn
      rw [hnone]
      exact .inr he
    · exact .inl hn
  case seen =>
    intro n hn hhas
    obtain ⟨d, hd, hget⟩ := hresolved n hn
    -- the new scope does not own the name, so it sees what the one around it sees
    have hnot : (u.forest.setAll w.forest.size (names.zip args)).owns w.forest.size n = false := by
      rw [Bool.eq_false_iff, Ne, howned, hhas]
      simp
    exact ⟨d, hd, (hordered.get?_child hlies hnot).symm.trans hget⟩

/-! ## §3. Calls -/

/-- A value has as many items as it says. -/
theorem Value.length_of_items {v : Value} {items : List Value} (h : v.items = .ok items) :
    v.length = .ok items.length := by
  cases v <;> simp_all [Value.items, Value.length, Value.characters] <;> simp [← h]

/-- **How parameters are passed**, at any moment of what a host does.  Call a function that remembers
    `home` with as many arguments as it has parameters, names among which may come twice.  If there is
    room for it, its body is run in a new scope and in the world in which the parameters have been bound,
    and the call comes out just as the body does: what has been overwritten is not given back. -/
theorem call_binds_parameters {scopeText : String} {files : FileTree} {cues : List Stage.Cue}
    {w : World} (h : Midway (World.empty scopeText files cues) w) {home : ScopeId}
    (hhome : home < w.forest.size) {params : Value} {items : List Value}
    (hitems : params.items = .ok items) {names : List Name}
    (hnames : List.Forall₂ Value.Binds items names) {args : List Datum}
    (hlength : args.length = names.length) (rounds : Nat) (libraries : Libraries) (room : Room) :
    (room.holds (w.scopeLevels (some home)) = true → ∃ u w', w.ParamsBound home names args u w' ∧
      ∀ (inner : Evaluator) (callee body : Value),
        callFunction { rounds, restores := true, libraries } inner room callee
            (.function params body home) args w
          = evalItems inner room w.forest.size body w') ∧
      (room.holds (w.scopeLevels (some home)) = false →
        ∀ (inner : Evaluator) (callee body : Value),
          callFunction { rounds, restores := true, libraries } inner room callee
              (.function params body home) args w
            = .error .tooDeep w) := by
  obtain ⟨hhoused, hstanding⟩ := h.lawful
  have harity : params.length = .ok args.length := by
    rw [Value.length_of_items hitems, hnames.length_eq, hlength]
  constructor
  · intro hroom
    have hrestores : Rules.restores { rounds, restores := true, libraries } = true := rfl
    obtain ⟨u, hmade, hscope⟩ := hstanding.exists_scope hrestores hhome hroom
    -- a scope takes at least as many levels as there are scopes on its chain
    have hchain : room.holds (u.forest.chain w.forest.size).length = true := by
      refine Room.holds_of_le hroom ?_
      rw [(hscope.ordered hstanding.ordered hhome).chain_child hscope.lies,
        hscope.chain_eq hstanding.ordered hhome hhome]
      simp only [World.scopeLevels, List.length_cons]
      omega
    obtain ⟨spellings, hbind⟩ := bindParams_eq hnames args hchain
    refine ⟨u, _, hscope.paramsBound hstanding.ordered hhome hlength spellings, ?_⟩
    intro inner callee body
    rw [callFunction_eq hmade harity, hitems]
    exact Run.bind_of_ok hbind _
  · intro hroom inner callee body
    rw [callFunction_of_arity harity]
    exact Run.bind_of_error (makeScope_tooDeep _ hroom) _

/-- The arguments of a call, for parameters `x`, `y`, `y` and `print`. -/
def fourArgs : List Datum :=
  [.plain (.string "first"), .plain (.string "second"), .plain (.string "third"),
    .plain (.string "fourth")]

/-- A name of an enclosing variable, a new one twice and a name of the language. -/
def fourParams : List String := ["x", "y", "y", "print"]

/-- A call overwrites the variable `x` of the scope that the function remembers and the outermost
    `print`, and makes `y` its own. -/
theorem fourParams_bound :
    (settingWorld "x" "outer").forest.owner? 1 (.text "x") = some 1 ∧
      (settingWorld "x" "outer").forest.owner? 1 (.text "print") = some 0 ∧
      (settingWorld "x" "outer").forest.has 1 (.text "y") = false ∧
      ∃ u w', (settingWorld "x" "outer").ParamsBound 1 (fourParams.map .text) fourArgs u w' ∧
        callFunction .standard (eval .standard 5) .unlimited .nothing
            (.function (.list (fourParams.map fun name => .symbolNode (.text name))) (.list []) 1)
            fourArgs (settingWorld "x" "outer")
          = evalItems (eval .standard 5) .unlimited (settingWorld "x" "outer").forest.size (.list [])
              w' := by
  have hmidway : Midway (World.empty "" ⟨[]⟩ []) (settingWorld "x" "outer") :=
    .between (settingWorld_history "x" "outer")
  have hhome : 1 < (settingWorld "x" "outer").forest.size := by decide +kernel
  have hnames : List.Forall₂ Value.Binds
      (fourParams.map fun name => Value.symbolNode (.text name)) (fourParams.map Name.text) := by
    rw [List.forall₂_map_left_iff, List.forall₂_map_right_iff, List.forall₂_same]
    exact fun name _ => ⟨.text name, rfl, rfl⟩
  have hitems : (Value.list (fourParams.map fun name => .symbolNode (.text name))).items
      = .ok (fourParams.map fun name => .symbolNode (.text name)) := rfl
  have hlength : fourArgs.length = (fourParams.map Name.text).length := rfl
  obtain ⟨u, w', hbound, hcall⟩ := (call_binds_parameters hmidway hhome hitems hnames hlength
    Rules.standard.rounds .idle .unlimited).1 rfl
  exact ⟨by decide +kernel, by decide +kernel, by decide +kernel, u, w', hbound, hcall _ _ _⟩

end Scrawl
