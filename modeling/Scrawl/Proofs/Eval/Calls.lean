/-
  Scrawl.Proofs.Eval.Calls — calls, and the number of arguments they are given.

  A call evaluates its callee and then its arguments, and only then looks at what is to be called
  (`evalLayer_callNode`).  A function of the program that is given another number of arguments than it has
  parameters fails with a fault of the language.  A function of the language does so only for two
  arguments too many, and fails in other words otherwise; nothing has been done by then in any case
  (`calls_check_arity`).
-/

import Scrawl.Proofs.Eval.StandardValues

namespace Scrawl

/-! ## §1. Calls -/

section Calls

variable {rules : Rules} {inner : Evaluator} {room : Room} {e : ScopeId} {callee args : Value}
  {nodes : List Value}

/-- A call evaluates its callee, then its arguments, and goes by the tag of what is called. -/
theorem evalLayer_callNode (hroom : room.holds 3 = true) (hargs : args.items = .ok nodes)
    (inner : Evaluator) (callee : Value) :
    evalLayer rules inner room e (.callNode callee args)
      = (do let d ← inner (room.below 2) e callee
            let ds ← nodes.mapM (inner (room.below 3) e)
            let tag ← d.value.tag
            if tag.isText "function" then
              callFunction rules inner (room.below 2) callee d.value ds
            else if tag.isText "native" then
              callNative rules inner (room.below 2) e callee d.value ds
            else throw .notFunction : Run Datum) := by
  have hnode : room.descend 1 = .ok (room.below 1) :=
    Room.descend_of_holds (Room.holds_of_le hroom (by decide))
  have hcall : (room.below 1).descend 1 = .ok (room.below 2) :=
    Room.descend_below hroom (by decide)
  have hlist : (room.below 2).descend 1 = .ok (room.below 3) :=
    Room.descend_below hroom (by decide)
  unfold evalLayer
  rw [hnode]
  show evalCall rules inner (room.below 1) e (.callNode callee args) = _
  unfold evalCall
  rw [hcall]
  show (inner (room.below 2) e callee >>= fun d => liftM args.items >>= fun nodes =>
    _ : Run Datum) = _
  rw [hargs, hlist]
  rfl

variable {w u : World} {fn : Datum}

/-- A call of a function of the program. -/
theorem evalLayer_call_function (hroom : room.holds 3 = true) (hargs : args.items = .ok nodes)
    (hfn : inner (room.below 2) e callee w = .ok fn u) {params body : Value} {home : ScopeId}
    (hvalue : fn.value = .function params body home) :
    evalLayer rules inner room e (.callNode callee args) w
      = (do let ds ← nodes.mapM (inner (room.below 3) e)
            callFunction rules inner (room.below 2) callee (.function params body home) ds : Run Datum) u := by
  rw [evalLayer_callNode hroom hargs]
  refine (Run.bind_of_ok hfn _).trans ?_
  rw [hvalue]
  rfl

/-- A call of a function of the language. -/
theorem evalLayer_call_native (hroom : room.holds 3 = true) (hargs : args.items = .ok nodes)
    (hfn : inner (room.below 2) e callee w = .ok fn u) {native : Native}
    (hvalue : fn.value = .nativeValue native) :
    evalLayer rules inner room e (.callNode callee args) w
      = (do let ds ← nodes.mapM (inner (room.below 3) e)
            callNative rules inner (room.below 2) e callee (.nativeValue native) ds : Run Datum) u := by
  rw [evalLayer_callNode hroom hargs]
  refine (Run.bind_of_ok hfn _).trans ?_
  rw [hvalue]
  rfl

theorem Rules.permit_of_refuses {action : Action} (h : rules.refuses action = none) :
    rules.permit action = pure () := by
  unfold Rules.permit
  rw [h]

/-- With room to find out its parameters, a function of the language is called once the number of
    arguments has been looked at. -/
theorem callNative_eq (hrefuses : ∀ action, rules.refuses action = none)
    (hroom : room.holds inspectionLevels = true) (inner : Evaluator) (e : ScopeId) (callee : Value)
    (native : Native) (ds : List Datum) :
    callNative rules inner room e callee (.nativeValue native) ds
      = (do checkArity callee (native.params.length + 1) ds.length true
            native.apply rules inner (room.below 1) e (ds.map (·.value)) : Run Datum) := by
  have hinspect : inspect room (.native native) = .ok native := by
    unfold inspect
    rw [hroom, Room.holds_of_le hroom (show 2 ≤ inspectionLevels by decide)]
    rfl
  unfold callNative
  show (liftM (inspect room (.native native)) >>= fun native => _ : Run Datum) = _
  rw [hinspect]
  show (checkArity callee (native.params.length + 1) ds.length true >>= fun _ =>
    rules.permit (.call native (ds.map (·.value))) >>= fun _ => _ : Run Datum) = _
  rw [Rules.permit_of_refuses (hrefuses _), Room.descend_of_holds (Room.holds_of_le hroom (by decide))]
  rfl

end Calls

/-! ## §2. The number of arguments -/

/-- The language's own fault for a call with a wrong number of arguments, which shows the callee; one
    that cannot be written is the fault then. -/
def arityFault (w : World) (callee : Value) (given required : Nat) : Fault :=
  if callee.isWritable then .wrongArity given (callee.plainText w.scopeText) required
  else .numberTooLong

section Arity

variable {callee : Value} {w : World}

/-- A number of arguments that is found to be wrong gives the language's own fault. -/
theorem checkArity_of_wrong {params given required : Nat} {offset : Bool}
    (h : wrongArity? params given offset = some (required : Int)) :
    checkArity callee params given offset w = .error (arityFault w callee given required) w := by
  unfold checkArity arityFault
  rw [h]
  show (plainText callee >>= fun text => throw (.wrongArity given text required) : Run Unit) w = _
  unfold plainText
  by_cases hcallee : callee.isWritable = true
  · rw [if_pos hcallee, if_pos hcallee]
    rfl
  · rw [if_neg hcallee, if_neg hcallee]
    rfl

/-- One that is not found to be wrong goes through. -/
theorem checkArity_of_right {params given : Nat} {offset : Bool}
    (h : wrongArity? params given offset = none) : checkArity callee params given offset = pure () := by
  unfold checkArity
  rw [h]

/-- For a function of the language only two arguments too many are found to be wrong, as the scope in
    which it is called is counted the wrong way round. -/
theorem wrongArity?_native (takes given : Nat) :
    wrongArity? (takes + 1) given true = if given = takes + 2 then some (takes : Int) else none := by
  unfold wrongArity?
  by_cases h : given = takes + 2
  · subst h
    simp
  · simp [h]

variable {rules : Rules} {inner : Evaluator} {room : Room} {e : ScopeId} {ds : List Datum}

/-- A function of the program with a wrong number of arguments is not run. -/
theorem callFunction_wrongArity {params : Value} {takes : Nat} (htakes : params.length = .ok takes)
    (hne : ds.length ≠ takes) (body : Value) (home : ScopeId) :
    callFunction rules inner room callee (.function params body home) ds w
      = .error (arityFault w callee ds.length takes) w := by
  have hwrong : wrongArity? takes ds.length false = some (takes : Int) := by
    unfold wrongArity?
    simp [Ne.symm hne]
  unfold callFunction
  show (liftM params.length >>= fun count => checkArity callee count ds.length false >>= fun _ =>
    _ : Run Datum) w = _
  rw [htakes]
  exact Run.bind_of_error (checkArity_of_wrong hwrong) _

/-- How a function of the language takes a number of arguments. -/
theorem callNative_arity (hrefuses : ∀ action, rules.refuses action = none)
    (hroom : room.holds inspectionLevels = true) (native : Native) :
    callNative rules inner room e callee (.nativeValue native) ds w
      = if ds.length = native.params.length + 2 then
          .error (arityFault w callee ds.length native.params.length) w
        else native.apply rules inner (room.below 1) e (ds.map (·.value)) w := by
  rw [callNative_eq hrefuses hroom]
  have hcheck := wrongArity?_native native.params.length ds.length
  by_cases h : ds.length = native.params.length + 2
  · rw [if_pos h]
    rw [if_pos h] at hcheck
    exact Run.bind_of_error (checkArity_of_wrong hcheck) _
  · rw [if_neg h]
    rw [if_neg h] at hcheck
    rw [checkArity_of_right hcheck]
    rfl

end Arity

/-- **What a wrong number of arguments leads to.**  Take any call whose callee and arguments have been
    evaluated.  A function of the program is run if it is given as many arguments as it has parameters,
    and fails with the language's own fault otherwise.  A function of the language is run if it is given
    as many as it takes, and fails otherwise: with that fault if there are two too many, and with a fault
    about missing or extra arguments in all other cases.  Where a call fails so, nothing has been done
    since the arguments were evaluated. -/
theorem calls_check_arity {rules : Rules} (hrefuses : ∀ action, rules.refuses action = none)
    {room : Room} (hroom : room.holds (2 + inspectionLevels) = true) {args : Value}
    {nodes : List Value} (hargs : args.items = .ok nodes) {depth : Nat} {e : ScopeId} {callee : Value}
    {w u v : World} {fn : Datum} {ds : List Datum}
    (hfn : eval rules depth (room.below 2) e callee w = .ok fn u)
    (hds : nodes.mapM (eval rules depth (room.below 3) e) u = .ok ds v) :
    (∀ params body home takes, fn.value = .function params body home → params.length = .ok takes →
      (ds.length = takes →
        eval rules (depth + 1) room e (.callNode callee args) w
          = (do
              let scope ← makeScope rules (room.below 2) (some home)
              bindParams (room.below 2) scope ((← params.items).zip ds)
              evalItems (eval rules depth) (room.below 2) scope body : Run Datum) v) ∧
      (ds.length ≠ takes →
        eval rules (depth + 1) room e (.callNode callee args) w
          = .error (arityFault v callee ds.length takes) v)) ∧
      ∀ native, fn.value = .nativeValue native →
        (ds.length = native.params.length →
          eval rules (depth + 1) room e (.callNode callee args) w
            = native.run rules (eval rules depth) (room.below 3) e (ds.map (·.value)) v) ∧
        (ds.length = native.params.length + 2 →
          eval rules (depth + 1) room e (.callNode callee args) w
            = .error (arityFault v callee ds.length native.params.length) v) ∧
        (ds.length < native.params.length →
          eval rules (depth + 1) room e (.callNode callee args) w
            = .error (.missingArguments native.name (native.params.drop ds.length)) v) ∧
        (native.params.length < ds.length → ds.length ≠ native.params.length + 2 →
          eval rules (depth + 1) room e (.callNode callee args) w
            = .error (.extraArguments native.name (native.params.length + 1) (ds.length + 1)) v) := by
  have hcall : room.holds 3 = true := Room.holds_of_le hroom (by decide)
  constructor
  · intro params body home takes hvalue htakes
    have heval : eval rules (depth + 1) room e (.callNode callee args) w = _ :=
      (evalLayer_call_function hcall hargs hfn hvalue).trans (Run.bind_of_ok hds _)
    rw [heval]
    constructor
    · rintro rfl
      rw [callFunction_of_arity htakes]
    · intro hne
      exact callFunction_wrongArity htakes hne body home
  · intro native hvalue
    have hinspect : (room.below 2).holds inspectionLevels = true := Room.holds_below hroom le_rfl
    have heval : eval rules (depth + 1) room e (.callNode callee args) w = _ :=
      (evalLayer_call_native hcall hargs hfn hvalue).trans (Run.bind_of_ok hds _)
    rw [heval, callNative_arity hrefuses hinspect, Room.below_below]
    unfold Native.apply
    simp only [List.length_map]
    refine ⟨fun h => ?_, fun h => ?_, fun h => ?_, fun hmore hne => ?_⟩
    · rw [if_neg (by omega), if_neg (by omega), if_neg (by omega)]
    · rw [if_pos h]
    · rw [if_neg (by omega), if_pos h]
      rfl
    · rw [if_neg hne, if_neg (by omega), if_pos hmore]
      rfl

/-- A call of `print` with some strings. -/
def printCall (texts : List String) : Value := namedCall "print" (texts.map .string)

/-- Without add-ons the names of the language are set to their values. -/
theorem lastBinding?_standard {n : Name} {d : Datum} (h : (n, d) ∈ standardBindings) :
    lastBinding? (standardBindings ++ addonBindings []) n = some d := by
  rw [show addonBindings [] = [] from rfl, List.append_nil]
  exact lastBinding?_of_mem standardBindings_nodup h

/-- In the world of a new program the names of the language have their values. -/
theorem programWorld_get? {n : Name} {d : Datum} (h : (n, d) ∈ standardBindings) :
    programWorld.forest.get? 0 n = some d := by
  have hforest : programWorld.forest
      = Forest.empty.newScope { rounds := 1, restores := true, libraries := .idle } [] none := rfl
  rw [hforest]
  exact Forest.get?_newScope (f := .empty) rfl (lastBinding?_standard h)

/-- With three arguments in place of one, `print` fails with the language's own fault. -/
theorem print_three_texts :
    ∃ v, eval .standard 5 .unlimited 0 (printCall ["a", "b", "c"]) programWorld
      = .error (.wrongArity 3 "('symbol', 'print')" 1) v ∧ v.printed = "" := by
  have hprint : programWorld.forest.get? 0 (.text "print") = some (.plain (.nativeValue .print)) :=
    programWorld_get? (List.mem_iff_getElem?.2 ⟨0, rfl⟩)
  have hfn : eval .standard 4 .unlimited 0 (.symbolNode (.text "print")) programWorld
      = .ok (.plain (.nativeValue .print)) programWorld := by
    rw [eval_symbol, hprint]
    rfl
  have hds : (["a", "b", "c"].map Value.string).mapM (eval .standard 4 .unlimited 0) programWorld
      = .ok (["a", "b", "c"].map fun text => .plain (.string text)) programWorld := rfl
  have hrefuses : ∀ action, Rules.standard.refuses action = none := fun _ => rfl
  have hargs : (Value.list (["a", "b", "c"].map Value.string)).items
      = .ok (["a", "b", "c"].map Value.string) := rfl
  have hroom : Room.unlimited.holds (2 + inspectionLevels) = true := rfl
  have hchecked := ((calls_check_arity hrefuses hroom hargs hfn hds).2 .print rfl).2.1 rfl
  exact ⟨programWorld, hchecked, rfl⟩

/-- **Functions of the language do not fail with the language's own fault** when they are given no
    argument or two in place of one. -/
theorem print_arity_not_own :
    Run.fault? (eval .standard 5 .unlimited 0 (printCall [])) programWorld
        = some (.missingArguments "builtin_print" ["value"]) ∧
      Run.fault? (eval .standard 5 .unlimited 0 (printCall ["a", "b"])) programWorld
        = some (.extraArguments "builtin_print" 2 3) := by
  constructor <;> decide +kernel

end Scrawl
