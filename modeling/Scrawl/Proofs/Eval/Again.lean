/-
  Scrawl.Proofs.Eval.Again — what functions of the language see of their arguments.

  Most functions of the language evaluate their arguments once more, and a value is evaluated by its tag
  like any other node.  So a floating point number, a string and nothing give themselves, other numbers
  are turned into floating point numbers, a function of the program remembers a new scope, and all other
  values make the evaluation fail (`values_seen_again`).
-/

import Scrawl.Proofs.Decimal.Rounding
import Scrawl.Proofs.Eval.Midway
import Scrawl.Proofs.Eval.StandardValues

namespace Scrawl

open Grammar (Program Tree)

/-! ## §1. One more evaluation -/

/-- The fault of evaluating a bare text.  It is taken for a node by its first character, which is no tag,
    and an empty one has none. -/
def bareTextFault (s : String) : Fault :=
  match s.toList with
  | [] => .indexRange "string"
  | c :: _ => .unknownNode (String.singleton c)

section Shapes

variable {rules : Rules} {depth : Nat} {room : Room} {e : ScopeId}

/-- Without room nothing can be evaluated. -/
theorem eval_tooDeep (h : depth = 0 ∨ room.holds 1 = false) (v : Value) (w : World) :
    eval rules depth room e v w = .error .tooDeep w := by
  cases depth with
  | zero => rfl
  | succ depth =>
    have hfull := h.resolve_left (Nat.succ_ne_zero depth)
    unfold eval evalLayer
    rw [Room.descend_of_not_holds hfull]
    exact Run.bind_of_error rfl _

variable (hroom : room.holds 1 = true)
include hroom

/-- A number becomes a floating point number. -/
theorem eval_number (p : Value) :
    eval rules (depth + 1) room e (.number p)
      = (do let x ← p.toFloat
            return .plain (.number (.float x)) : Run Datum) := by
  unfold eval evalLayer
  rw [Room.descend_of_holds hroom]
  rfl

/-- A string gives itself. -/
theorem eval_string (s : String) :
    eval rules (depth + 1) room e (.string s) = pure (.plain (.string s)) := by
  unfold eval evalLayer
  rw [Room.descend_of_holds hroom]
  rfl

/-- So does what has no value. -/
theorem eval_nothing : eval rules (depth + 1) room e .nothing = pure (.plain .nothing) := by
  unfold eval evalLayer
  rw [Room.descend_of_holds hroom]
  rfl

/-- A function literal gives a function that remembers a new scope. -/
theorem evalLayer_function {node params body : Value} (htag : node.tag = .ok (.text "function"))
    (hparams : node.item 1 = .ok params) (hbody : node.item 2 = .ok body) (inner : Evaluator) :
    evalLayer rules inner room e node
      = (do let fresh ← makeScope rules (room.below 1) (some e)
            return .plain (.function params body fresh) : Run Datum) := by
  unfold evalLayer evalFunction
  rw [Room.descend_of_holds hroom, htag, hparams, hbody]
  rfl

/-- So does a function that is evaluated again, whatever it remembers. -/
theorem eval_function_again (params body : Value) (home : ScopeId) :
    eval rules (depth + 1) room e (.function params body home)
      = (do let fresh ← makeScope rules (room.below 1) (some e)
            return .plain (.function params body fresh) : Run Datum) :=
  evalLayer_function hroom rfl rfl rfl _

/-- What has no tag that evaluation knows cannot be evaluated. -/
theorem eval_unknown {v tag : Value} (htag : v.tag = .ok tag) (hunknown : Tag.of? tag = none)
    (hwritable : tag.isWritable = true) (w : World) :
    eval rules (depth + 1) room e v w = .error (.unknownNode (tag.plainText w.scopeText)) w := by
  unfold eval evalLayer
  rw [Room.descend_of_holds hroom, htag]
  refine (Run.bind_of_ok rfl _).trans ((Run.bind_of_ok rfl _).trans ?_)
  rw [hunknown]
  show (plainText tag >>= fun text => throw (.unknownNode text) : Run Datum) w = _
  unfold plainText
  rw [if_pos hwritable]
  rfl

/-- A function of the language cannot be evaluated. -/
theorem eval_native (fn : Native) (w : World) :
    eval rules (depth + 1) room e (.nativeValue fn) w = .error (.unknownNode "native") w :=
  eval_unknown hroom (show (Value.nativeValue fn).tag = .ok (.text "native") from rfl) rfl rfl w

/-- Neither can what drawing functions give back. -/
theorem eval_blank (w : World) :
    eval rules (depth + 1) room e .blank w = .error (.unknownNode "None") w :=
  eval_unknown hroom (show Value.blank.tag = .ok .nil from rfl) rfl rfl w

/-- Nor can a bare text. -/
theorem eval_text (s : String) (w : World) :
    eval rules (depth + 1) room e (.text s) w = .error (bareTextFault s) w := by
  have htags : (Value.text s).tag = Value.pick "string" (Value.characters s) 0 := rfl
  unfold Value.characters at htags
  unfold bareTextFault
  cases hs : s.toList with
  | nil =>
    rw [hs] at htags
    unfold eval evalLayer
    rw [Room.descend_of_holds hroom, htags]
    rfl
  | cons c cs =>
    rw [hs] at htags
    have hunknown : Tag.of? (.text (String.singleton c)) = none := by
      rw [Option.eq_none_iff_forall_ne_some]
      intro tag hsome
      have htext := congrArg String.toList (Value.text.inj (Tag.of?_eq_some hsome))
      rw [String.toList_singleton] at htext
      cases tag <;> cases htext
    exact eval_unknown hroom htags hunknown rfl w

end Shapes

/-- How a value comes out that is evaluated once more in the scope `e` of a world. -/
inductive SeenAgain (room : Room) (w : World) (e : ScopeId) :
    Value → EStateM.Result Fault World Datum → Prop
  /-- A floating point number is seen as it is. -/
  | float (x : Float) : SeenAgain room w e (.number (.float x)) (.ok (.plain (.number (.float x))) w)
  /-- So is a string. -/
  | string (s : String) : SeenAgain room w e (.string s) (.ok (.plain (.string s)) w)
  /-- So is nothing. -/
  | nothing : SeenAgain room w e .nothing (.ok (.plain .nothing) w)
  /-- A whole number becomes the nearest floating point number. -/
  | int {i : Int} {x : Float} (h : Decimal.ofInt? i = some x) :
      SeenAgain room w e (.number (.int i)) (.ok (.plain (.number (.float x))) w)
  /-- It is too large for that from half a step above the largest one on. -/
  | wide {i : Int} (h : 2 ^ 1024 ≤ i.natAbs + 2 ^ 970) :
      SeenAgain room w e (.number (.int i)) (.error .intTooLarge w)
  /-- A text in the place of a number is read as one. -/
  | numeral {s : String} {x : Float} (h : Decimal.readFloat? s = some x) :
      SeenAgain room w e (.number (.text s)) (.ok (.plain (.number (.float x))) w)
  /-- It may not be a number. -/
  | word {s : String} (h : Decimal.readFloat? s = none) :
      SeenAgain room w e (.number (.text s)) (.error (.badFloat s) w)
  /-- A list in the place of a number is none. -/
  | list (items : List Value) :
      SeenAgain room w e (.number (.list items)) (.error (.notFloat "list") w)
  /-- A function of the program is made again, with a new scope inside `e` to remember. -/
  | function (params body : Value) (home : ScopeId) {w' : World}
      (hroom : room.holds (1 + w.scopeLevels (some e)) = true) (h : w.ScopeMade e w') :
      SeenAgain room w e (.function params body home)
        (.ok (.plain (.function params body w.forest.size)) w')
  /-- There may be no room for that scope. -/
  | deep (params body : Value) (home : ScopeId)
      (hroom : room.holds (1 + w.scopeLevels (some e)) = false) :
      SeenAgain room w e (.function params body home) (.error .tooDeep w)
  /-- A function of the language cannot be evaluated. -/
  | native (fn : Native) : SeenAgain room w e (.nativeValue fn) (.error (.unknownNode "native") w)
  /-- Neither can what drawing functions give back. -/
  | blank : SeenAgain room w e .blank (.error (.unknownNode "None") w)
  /-- Nor can a bare text. -/
  | text (s : String) : SeenAgain room w e (.text s) (.error (bareTextFault s) w)

/-- Values that are seen as they are. -/
inductive Value.Steady : Value → Prop
  /-- A floating point number. -/
  | float (x : Float) : Steady (.number (.float x))
  /-- A string. -/
  | string (s : String) : Steady (.string s)
  /-- Nothing. -/
  | nothing : Steady .nothing

/-- How a whole number is turned into a floating point number. -/
theorem Value.toFloat_int (i : Int) :
    (Value.int i).toFloat = (Decimal.ofInt? i).elim (.error .intTooLarge) .ok := by
  simp only [toFloat, numeral?, Numeral.toFloat]
  cases Decimal.ofInt? i with
  | some x => rfl
  | none => rfl

/-- How a text is read as one. -/
theorem Value.toFloat_text (s : String) :
    (Value.text s).toFloat = (Decimal.readFloat? s).elim (.error (.badFloat s)) .ok := by
  simp only [toFloat, numeral?]
  cases Decimal.readFloat? s with
  | some x => rfl
  | none => rfl

section Again

variable {room : Room} {w : World} {e : ScopeId} {v : Value}

/-- **Every value of a program comes out like that.** -/
theorem Value.Shaped.seenAgain {k : Nat} (hv : v.Shaped k) (hw : w.Standing) {rules : Rules}
    (hrules : rules.restores = true) (he : e < w.forest.size) (hroom : room.holds 1 = true)
    (depth : Nat) : SeenAgain room w e v (eval rules (depth + 1) room e v w) := by
  cases hv with
  | number hp =>
    rw [eval_number hroom]
    cases hp with
    | float x => exact .float x
    | int i =>
      rw [Value.toFloat_int]
      cases hx : Decimal.ofInt? i with
      | some x => exact .int hx
      | none => exact .wide (Decimal.ofInt?_eq_none.1 hx)
    | text s =>
      rw [Value.toFloat_text]
      cases hx : Decimal.readFloat? s with
      | some x => exact .numeral hx
      | none => exact .word hx
    | names _ => exact .list _
  | string s =>
    rw [eval_string hroom]
    exact .string s
  | nothing =>
    rw [eval_nothing hroom]
    exact .nothing
  | native fn =>
    rw [eval_native hroom]
    exact .native fn
  | text s =>
    rw [eval_text hroom]
    exact .text s
  | blank =>
    rw [eval_blank hroom]
    exact .blank
  | function hnames hbody hhome =>
    rw [eval_function_again hroom]
    have hlevels := room.holds_add 1 (w.scopeLevels (some e))
    rw [hroom, Bool.true_and] at hlevels
    cases hscope : (room.below 1).holds (w.scopeLevels (some e)) with
    | true =>
      obtain ⟨w', hmade, hscopeMade⟩ := hw.exists_scope hrules he hscope
      rw [Run.bind_of_ok hmade]
      exact .function _ _ _ (hlevels.trans hscope) hscopeMade
    | false =>
      rw [Run.bind_of_error (makeScope_tooDeep rules hscope)]
      exact .deep _ _ _ (hlevels.trans hscope)

/-- A value that comes out as it is, in the same world, is of one of three kinds. -/
theorem SeenAgain.steady {d : Datum} (h : SeenAgain room w e v (.ok d w)) (hd : d.value = v) :
    v.Steady := by
  generalize hr : EStateM.Result.ok d w = r at h
  cases h with
  | float x => exact .float x
  | string s => exact .string s
  | nothing => exact .nothing
  | int _ =>
    cases hr
    cases hd
  | numeral _ =>
    cases hr
    cases hd
  | function _ _ _ _ hmade =>
    -- there is one more scope than before
    cases hr
    exact absurd hmade.size (Nat.ne_of_lt (Nat.lt_succ_self _))
  | _ => cases hr

/-- Values of these kinds come out as they are. -/
theorem Value.Steady.eval_eq (h : v.Steady) (rules : Rules) (hroom : room.holds 1 = true) (depth : Nat) :
    eval rules (depth + 1) room e v = pure (.plain v) := by
  cases h with
  | float x => exact eval_number hroom _
  | string s => exact eval_string hroom s
  | nothing => exact eval_nothing hroom

/-- Turning a payload into text gives a bare text. -/
theorem str_apply_eq_ok {rules : Rules} {inner : Evaluator} {args : List Value} {w' : World} {d : Datum}
    (h : Native.str.apply rules inner room e args w = .ok d w') : ∃ s, d.value = .text s := by
  unfold Native.apply at h
  split at h
  · cases h
  split at h
  · cases h
  · cases args with
    | nil => cases h
    | cons v rest =>
      cases rest with
      | cons _ _ => cases h
      | nil =>
        obtain ⟨p, u, -, hrest⟩ := Run.bind_eq_ok h
        obtain ⟨s, u', -, hpure⟩ := Run.bind_eq_ok hrest
        cases hpure
        exact ⟨s, rfl⟩

end Again

/-! ## §2. Values that programs compute -/

open Classical in
/-- Gives a result on, or raises the alarm if it is a given value. -/
noncomputable def spot (v : Value) (alarm : Fault) (d : Datum) : Run Datum :=
  if d.value = v then throw alarm else return d

theorem spot_self (v : Value) (alarm : Fault) (w : World) :
    spot v alarm (.plain v) w = .error alarm w := by
  have hvalue : (Datum.plain v).value = v := rfl
  unfold spot
  rw [if_pos hvalue]
  rfl

/-- Evaluation that breaks off at the first node that gives a certain value, however deeply nested. -/
noncomputable def spotting (rules : Rules) (v : Value) (alarm : Fault) : (depth : Nat) → Evaluator
  | 0, _, _, _ => throw .tooDeep
  | depth + 1, room, e, node =>
    evalLayer rules (spotting rules v alarm depth) room e node >>= spot v alarm

/-- A value that programs compute: in a world that they have brought about from nothing something can go
    on in which a node is evaluated to it, which is where an alarm at this value would be raised, beside
    libraries that do nothing but succeed or fail. -/
inductive Value.Computed (v : Value) : Prop
  /-- The world, what goes on, and the world in which the value comes up. -/
  | intro {scopeText : String} {files : FileTree} {cues : List Stage.Cue} {w w' : World}
      (hreached : Relation.ReflTransGen ProgramStep (World.empty scopeText files cues) w)
      {a : Activity} (ha : a.Possible w.forest) (rounds depth : Nat) {libraries : Libraries}
      (hlibraries : libraries.Inert) (room : Room)
      (hspotted : ∀ alarm,
        a.perform (spotting { rounds, restores := true, libraries } v alarm depth) room w
          = .error alarm w')

section Spotting

variable {rules : Rules} {v : Value}
  (hdiffer : rules.Differ rules Eq fun w _ => v.Shaped w.forest.size)

/-- Raising one alarm or the other at a value that is found to have a shape. -/
theorem spotting_lockstep (depth : Nat) :
    (shapingInvariant hdiffer).simulation.Evaluates (spotting rules v .endless depth)
      (spotting rules v .tooDeep depth) := by
  set i := shapingInvariant hdiffer
  induction depth with
  | zero => exact fun _ _ _ _ _ _ _ => .throw rfl
  | succ depth ih =>
    intro k room e n n' he hn
    have htells := Simulation.Cover.tells (shaping_cover hdiffer) (fun _ => ih) ()
    refine (i.simulation.evalLayer_lockstep ih htells k room e n n' he hn).bind fun j _ d d' hd => ?_
    obtain rfl := i.passes_eq hd.1
    unfold spot
    by_cases hvalue : d'.value = v
    · -- the value that has come up has a shape, so the comparison may be left here
      rw [if_pos hvalue, if_pos hvalue]
      intro w w' hw hj
      have hshaped : v.Shaped w.forest.size :=
        hvalue ▸ (Value.shaped_iff.2 hd.1.1.2).mono (Forest.size_le_of_le hj)
      exact .escape hshaped
    · rw [if_neg hvalue, if_neg hvalue]
      exact .pure fun m hm => ⟨i.simulation.datum_mono hm hd.1, hd.2⟩

end Spotting

/-- **Values that programs compute have one of the shapes of values.** -/
theorem Value.Computed.shaped {v : Value} (hv : v.Computed) : ∃ k, v.Shaped k := by
  obtain @⟨scopeText, files, cues, w, w', hreached, a, ha, rounds, depth, libraries, hlibraries, room,
    hspotted⟩ := hv
  have hw := World.wellShaped_of_programs hreached
  have hdiffer : Rules.Differ { rounds, restores := true, libraries } _ Eq
      fun w _ => v.Shaped w.forest.size :=
    Rules.differ_of_refuses (fun _ => rfl) hlibraries _
  have hagrees := a.perform_lockstep _ ha room (spotting_lockstep hdiffer depth) w w ⟨rfl, hw⟩ le_rfl
  rw [hspotted .endless, hspotted .tooDeep] at hagrees
  -- the two runs end with different alarms, so the first one left the comparison
  cases hagrees with
  | error _ _ hfault => exact nomatch (hfault : Fault.endless = .tooDeep)
  | escape hescape => exact ⟨_, hescape⟩

/-! ## §3. What is seen of them -/

/-- **What functions of the language see of their arguments**, at any moment of what a host does and in
    any scope.  A value that programs can compute comes out as it is, in the same world, exactly if it is
    a floating point number, a string or nothing; all others come out changed or fail, and only a function
    of the program changes the world, by a new scope.  What turning a payload into text gives always
    fails. -/
theorem values_seen_again {scopeText : String} {files : FileTree} {cues : List Stage.Cue} {w : World}
    (h : Midway (World.empty scopeText files cues) w) {e : ScopeId} (he : e < w.forest.size) {v : Value}
    (hv : v.Computed) (rounds depth : Nat) (libraries : Libraries) {room : Room}
    (hroom : room.holds 1 = true) :
    SeenAgain room w e v (eval { rounds, restores := true, libraries } (depth + 1) room e v w) ∧
      ((∃ d, eval { rounds, restores := true, libraries } (depth + 1) room e v w = .ok d w ∧ d.value = v) ↔
        v.Steady) ∧
      ∀ (inner : Evaluator) (inside : Room) (args : List Value) (u u' : World) (d : Datum),
        Native.str.apply { rounds, restores := true, libraries } inner inside e args u = .ok d u' →
          ∃ f, eval { rounds, restores := true, libraries } (depth + 1) room e d.value w = .error f w := by
  have hstanding := h.lawful.2
  obtain ⟨k, hshaped⟩ := hv.shaped
  have hrules : Rules.restores { rounds, restores := true, libraries } = true := rfl
  have hseen := hshaped.seenAgain hstanding hrules he hroom depth
  refine ⟨hseen, ⟨?_, ?_⟩, ?_⟩
  · rintro ⟨d, heval, hd⟩
    rw [heval] at hseen
    exact hseen.steady hd
  · intro hsteady
    exact ⟨.plain v, congrFun (hsteady.eval_eq _ hroom depth) w, rfl⟩
  · intro inner inside args u u' d hstr
    obtain ⟨s, hs⟩ := str_apply_eq_ok hstr
    rw [hs]
    exact ⟨_, eval_text hroom s w⟩

/-- A program that makes a function and drops it. -/
def idleSource : String := "\x7b \x7d ;"

theorem idleSource_read :
    Program.ofText grammarDepth idleSource = ⟨[.function [] []], none⟩ := by
  cbv

/-- The function that it makes. -/
theorem idle_computed : (Value.function (.list []) (.list []) 1).Computed := by
  have hfirst : 0 < programWorld.forest.size := by decide +kernel
  have hsize : programWorld.forest.size = 1 := by decide +kernel
  have hreached : Relation.ReflTransGen ProgramStep (World.empty "" ⟨[]⟩ []) programWorld :=
    .single (.makeScope 1 .idle .unlimited none nofun)
  have hstanding : programWorld.Standing :=
    (History.lawful (.single (.step (.makeScope 1 .idle .unlimited none nofun)))).2
  have hrestores : Rules.restores { rounds := 1, restores := true, libraries := .idle } = true := rfl
  have hroom : Room.unlimited.holds (programWorld.scopeLevels (some 0)) = true := rfl
  obtain ⟨w', hmade, -⟩ := hstanding.exists_scope hrestores hfirst hroom
  rw [hsize] at hmade
  have hpossible : (Activity.run 0 idleSource).Possible programWorld.forest := hfirst
  have hspotted : ∀ alarm, (Activity.run 0 idleSource).perform
      (spotting { rounds := 1, restores := true, libraries := .idle }
        (.function (.list []) (.list []) 1) alarm 1) .unlimited programWorld = .error alarm w' := by
    intro alarm
    -- the function literal is the first node, and gives the value at once
    have hnode : spotting { rounds := 1, restores := true, libraries := .idle }
        (.function (.list []) (.list []) 1) alarm 1 .unlimited 0 (functionNode [] []) programWorld
          = .error alarm w' := by
      unfold spotting
      rw [evalLayer_function rfl rfl rfl rfl, bind_assoc]
      refine (Run.bind_of_ok hmade _).trans ?_
      rw [pure_bind]
      exact spot_self _ alarm w'
    unfold Activity.perform
    dsimp only
    rw [runText_eq_evalItems _ 0 rfl (by rw [idleSource_read]), idleSource_read]
    exact Run.bind_of_error (Run.bind_of_error hnode _) _
  exact .intro hreached hpossible 1 1 Libraries.idle_inert .unlimited hspotted

/-- A function that is seen again, where a program has set a name of the language. -/
theorem idle_seen_again :
    (Value.function (.list []) (.list []) 1).Computed ∧
      SeenAgain .unlimited (settingWorld "print" "x") 1 (.function (.list []) (.list []) 1)
        (eval .standard 3 .unlimited 1 (.function (.list []) (.list []) 1) (settingWorld "print" "x")) := by
  have hmidway : Midway (World.empty "" ⟨[]⟩ []) (settingWorld "print" "x") :=
    .between (settingWorld_history "print" "x")
  have hinside : 1 < (settingWorld "print" "x").forest.size := by decide +kernel
  have hroom : Room.unlimited.holds 1 = true := rfl
  exact ⟨idle_computed,
    (values_seen_again hmidway hinside idle_computed Rules.standard.rounds 2 .idle hroom).1⟩

end Scrawl
