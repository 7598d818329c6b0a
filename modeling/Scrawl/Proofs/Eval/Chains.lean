/-
  Scrawl.Proofs.Eval.Chains — evaluating operands with operators between them.

  A chain groups to the right, and an operator looks at payloads only when both of its operands have been
  evaluated.  So the operands of a chain are evaluated from left to right, and then the operators are
  applied from right to left (`eval_chain`), wherever the chain stands.
-/

import Scrawl.Proofs.Eval.Appending
import Scrawl.Proofs.Grammar.Phrases
import Scrawl.Proofs.Run

namespace Scrawl

open Scrawl.Grammar (Program Tree Phrase Operand Operator Chain Symbol listText listTrees headText
  headNames)

/-! ## §1. Operands and operators in turn -/

/-- What an operator does to two payloads. -/
def Grammar.Operator.apply : Operator → Value → Value → Except Fault Value
  | .plus => Value.add
  | .minus => Value.sub
  | .times => Value.mul
  | .over => Value.div

/-- Applies an operator to the payloads of two results. -/
def Grammar.Operator.combine (op : Operator) (left right : Datum) : Except Fault Datum := do
  return .plain (.number (← op.apply (← left.value.payload) (← right.value.payload)))

/-- Evaluates the nodes of operands in turn.  All that is to the right of an operator is nested in it,
    so each operand is a level further down than the one before; the last two are at one level. -/
def evalInTurn (rules : Rules) : (depth : Nat) → Room → ScopeId → (front : List Value) →
    (last : Value) → Run (List Datum × Datum)
  | depth, room, e, [], last => do return ([], ← eval rules depth room e last)
  | 0, _, _, _ :: _, _ => throw .tooDeep
  | depth + 1, room, e, first :: front, last => do
    let room ← room.descend 1
    let d ← eval rules depth room e first
    let others ← evalInTurn rules depth room e front last
    return (d :: others.1, others.2)

/-- Applies operators from right to left, each to the operand in front of it and to what all that is to
    its right has given. -/
def applyFromRight (front : List (Datum × Operator)) (last : Datum) : Except Fault Datum :=
  front.foldrM (fun x right => x.2.combine x.1 right) last

/-- Evaluates the operands of a chain. -/
def Grammar.Chain.operands (c : Chain) (rules : Rules) (depth : Nat) (room : Room) (e : ScopeId) :
    Run (List Datum × Datum) :=
  evalInTurn rules depth room e (c.front.map (·.1.tree.toValue)) c.last.tree.toValue

/-- Evaluates the operands of a chain, and then applies its operators. -/
def Grammar.Chain.run (c : Chain) (rules : Rules) (depth : Nat) (room : Room) (e : ScopeId) :
    Run Datum := do
  let ds ← c.operands rules depth room e
  applyFromRight (ds.1.zip (c.front.map (·.2))) ds.2

/-- An operator evaluates its two operands, in turn, and is then applied to their payloads. -/
theorem eval_operation (rules : Rules) (depth : Nat) (room : Room) (e : ScopeId) (op : Operator)
    (left right : Tree) :
    eval rules (depth + 1) room e (Tree.operation (.text op.text) (some left) (some right)).toValue
      = (do
          let room ← room.descend 1
          let d ← eval rules depth room e left.toValue
          let d' ← eval rules depth room e right.toValue
          op.combine d d' : Run Datum) := by
  rw [Tree.toValue, Tree.optionToValue, Tree.optionToValue]
  show evalLayer rules (eval rules depth) room e _ = _
  unfold evalLayer
  refine bind_congr fun room => ?_
  show evalOperation (eval rules depth) room e
    (.tuple [.text "operation", .text op.text, left.toValue, right.toValue]) = _
  unfold evalOperation
  show (eval rules depth room e left.toValue >>= fun d =>
    eval rules depth room e right.toValue >>= fun d' => _ : Run Datum) = _
  refine bind_congr fun d => bind_congr fun d' => ?_
  simp only [Operator.combine, Run.lift_bind]
  cases op <;> rfl

/-- **The operands of a chain are evaluated from left to right, and then its operators are applied from
    right to left.** -/
theorem eval_chain (rules : Rules) (c : Chain) (depth : Nat) (room : Room) (e : ScopeId) :
    eval rules depth room e c.tree.toValue = c.run rules depth room e := by
  obtain ⟨front, last⟩ := c
  induction front generalizing depth room with
  | nil =>
    simp only [Chain.run, Chain.operands, Chain.tree, evalInTurn, applyFromRight, List.map_nil,
      List.foldr_nil, bind_assoc, pure_bind, List.zip_nil_left, List.foldrM_nil]
    exact (bind_pure _).symm
  | cons x front ih =>
    cases depth with
    | zero => rfl
    | succ depth =>
      have htree : Chain.tree ⟨x :: front, last⟩
          = .operation (.text x.2.text) (some x.1.tree) (some (Chain.tree ⟨front, last⟩)) := rfl
      rw [htree, eval_operation]
      simp only [ih, Chain.run, Chain.operands, List.map_cons, evalInTurn, bind_assoc, pure_bind,
        List.zip_cons_cons, applyFromRight, List.foldrM_cons, Run.lift_bind]

/-! ## §2. Where a chain can stand -/

/-- An assignment evaluates what is to its right, and then sets the name. -/
theorem eval_assignment (rules : Rules) (depth : Nat) (room : Room) (e : ScopeId) (name : Value)
    (value : Tree) :
    eval rules (depth + 1) room e (Tree.assignment name (some value)).toValue
      = (do
          let room ← room.descend 1
          let d ← eval rules depth room e value.toValue
          assign room e name d
          return d : Run Datum) := by
  rw [Tree.toValue, Tree.optionToValue]
  show evalLayer rules (eval rules depth) room e _ = _
  unfold evalLayer
  refine bind_congr fun room => ?_
  show evalAssignment (eval rules depth) room e
    (.tuple [.text "assignment", .symbolNode name, value.toValue]) = _
  rfl

/-- Calls what has been evaluated, by its tag. -/
def callValue (rules : Rules) (inner : Evaluator) (room : Room) (e : ScopeId) (callee fn : Value)
    (args : List Datum) : Run Datum := do
  let tag ← fn.tag
  if tag.isText "function" then callFunction rules inner room callee fn args
  else if tag.isText "native" then callNative rules inner room e callee fn args
  else throw .notFunction

/-- A call evaluates its callee, then its arguments in turn, and then calls the one with the others. -/
theorem eval_call (rules : Rules) (depth : Nat) (room : Room) (e : ScopeId) (callee : Tree)
    (args : List Tree) :
    eval rules (depth + 1) room e (Tree.call (some callee) args).toValue
      = (do
          let room ← room.descend 1
          let room ← room.descend 1
          let fn ← eval rules depth room e callee.toValue
          let argRoom ← room.descend 1
          let ds ← args.mapM fun t => eval rules depth argRoom e t.toValue
          callValue rules (eval rules depth) room e callee.toValue fn.value ds : Run Datum) := by
  rw [Tree.toValue, Tree.optionToValue, Tree.listToValues_eq_map]
  show evalLayer rules (eval rules depth) room e _ = _
  unfold evalLayer
  refine bind_congr fun room => ?_
  show evalCall rules (eval rules depth) room e (.callNode callee.toValue (.list (args.map Tree.toValue))) = _
  unfold evalCall
  refine bind_congr fun room => ?_
  show (eval rules depth room e callee.toValue >>= fun fn => liftM (room.descend 1) >>= fun argRoom =>
    (args.map Tree.toValue).mapM (eval rules depth argRoom e) >>= fun ds =>
    callValue rules (eval rules depth) room e callee.toValue fn.value ds : Run Datum) = _
  simp only [List.mapM_map]
  rfl

/-- A function remembers its body, and a new scope. -/
theorem eval_function (rules : Rules) (depth : Nat) (room : Room) (e : ScopeId) (params : List Value)
    (body : List Tree) :
    eval rules (depth + 1) room e (Tree.function params body).toValue
      = (do
          let room ← room.descend 1
          let home ← makeScope rules room (some e)
          return .plain (.function (.list (params.map Value.symbolNode))
            (.list (Tree.listToValues body)) home) : Run Datum) := by
  rw [Tree.toValue]
  show evalLayer rules (eval rules depth) room e _ = _
  unfold evalLayer
  refine bind_congr fun room => ?_
  show evalFunction rules room e
    (.tuple [.text "function", .list (params.map Value.symbolNode), .list (Tree.listToValues body)]) = _
  rfl

/-- A statement in a body is evaluated after those in front of it; what it gives is the result if none
    follows. -/
theorem evalItems_statement (inner : Evaluator) (room : Room) (e : ScopeId) (before after : List Tree)
    (t : Tree) :
    evalItems inner room e (.list (Tree.listToValues (before ++ t :: after)))
      = (do
          let room ← room.descend 2
          let _ ← evalNodes inner room e (Tree.listToValues before)
          let d ← inner room e t.toValue
          let last ← evalNodes inner room e (Tree.listToValues after)
          return if after.isEmpty then d else last : Run Datum) := by
  unfold evalItems
  refine bind_congr fun room => ?_
  show evalNodes inner room e (Tree.listToValues (before ++ t :: after)) = _
  have hsingle : evalNodes inner room e [t.toValue] = inner room e t.toValue := by
    simp [evalNodes]
  have hnodes : Tree.listToValues (before ++ t :: after)
      = Tree.listToValues before ++ ([t.toValue] ++ Tree.listToValues after) := by
    simp [Tree.listToValues_eq_map]
  rw [hnodes, evalNodes_append, evalNodes_append, hsingle]
  simp [Tree.listToValues_eq_map]

/-- What running a text of one statement does, given what evaluating the statement does. -/
def asStatement (room : Room) (statement : Room → Run Datum) : Run Datum := do
  let room ← room.descend 2
  let _ ← room.descend readingLevels
  statement room

/-- A phrase is run as a statement, unless it is nested too deep to be read. -/
theorem runText_phrase (inner : Evaluator) (room : Room) (e : ScopeId) (p : Phrase) {t : Tree}
    (ht : p.tree = some t)
    (hdeep : (Program.ofText grammarDepth (p.text ++ ";")).fault ≠ some .tooDeep) :
    runText inner room e (p.text ++ ";") = asStatement room fun room => inner room e t.toValue := by
  unfold runText asStatement
  rw [p.ofText_statement hdeep, ht]
  refine bind_congr fun room => bind_congr fun _ => ?_
  simp [runProgram, evalNodes, Program.nodes, Tree.listToValues]

/-! ## §3. Chains wherever they stand -/

theorem listTrees_around (before after : List Phrase) (c : Chain) :
    listTrees (before ++ c.phrase :: after) = listTrees before ++ c.tree :: listTrees after := by
  have hcons : listTrees (c.phrase :: after) = c.tree :: listTrees after :=
    Grammar.listTrees_cons c.phrase after
  rw [← hcons]
  exact List.filterMap_append

/-- **Operands from left to right, then operators from right to left.**  Take any chain, as it is written,
    with blanks and comments anywhere.  Run as a statement, to the right of an assignment, among the arguments
    of a call or among the statements of a body, it first has its operands evaluated in turn, and then its
    operators applied from the right, whatever they are.  If an operand fails, that is all that happens; if
    they all succeed, nothing but the result or the fault comes from the operators.  Texts that are nested
    too deep to be read are left aside. -/
theorem chain_applies_from_right (c : Chain) (rules : Rules) (depth : Nat) (e : ScopeId) (room : Room) :
    -- as a statement
    ((Program.ofText grammarDepth (c.text ++ ";")).fault ≠ some .tooDeep →
      runText (eval rules depth) room e (c.text ++ ";")
        = asStatement room fun room => c.run rules depth room e) ∧
    -- to the right of an assignment
    (∀ target : Symbol,
      (Program.ofText grammarDepth (target.text ++ "=" ++ c.text ++ ";")).fault ≠ some .tooDeep →
      runText (eval rules (depth + 1)) room e (target.text ++ "=" ++ c.text ++ ";")
        = asStatement room fun room => do
            let room ← room.descend 1
            let d ← c.run rules depth room e
            assign room e target.name d
            return d) ∧
    -- as an argument
    (∀ (callee : Operand) (before after : List Phrase),
      (Program.ofText grammarDepth (callee.text ++ "(" ++
        (listText "," (before ++ c.phrase :: after) ++ ")") ++ ";")).fault ≠ some .tooDeep →
      runText (eval rules (depth + 1)) room e (callee.text ++ "(" ++
          (listText "," (before ++ c.phrase :: after) ++ ")") ++ ";")
        = asStatement room fun room => do
            let room ← room.descend 1
            let room ← room.descend 1
            let fn ← eval rules depth room e callee.tree.toValue
            let argRoom ← room.descend 1
            let ds ← (listTrees before).mapM fun t => eval rules depth argRoom e t.toValue
            let d ← c.run rules depth argRoom e
            let ds' ← (listTrees after).mapM fun t => eval rules depth argRoom e t.toValue
            callValue rules (eval rules depth) room e callee.tree.toValue fn.value (ds ++ d :: ds')) ∧
    -- in the body of a function, whenever that is run
    (∀ (params : Option (List Symbol)) (before after : List Phrase),
      (Program.ofText grammarDepth ("\x7b" ++ (headText params ++
        (listText ";" (before ++ c.phrase :: after) ++ "\x7d")) ++ ";")).fault ≠ some .tooDeep →
      ∃ body : Value,
        runText (eval rules (depth + 1)) room e ("\x7b" ++ (headText params ++
            (listText ";" (before ++ c.phrase :: after) ++ "\x7d")) ++ ";")
          = (asStatement room fun room => do
              let room ← room.descend 1
              let home ← makeScope rules room (some e)
              return .plain (.function (.list ((headNames params).map Value.symbolNode)) body home)) ∧
        ∀ room e', evalItems (eval rules depth) room e' body = (do
          let room ← room.descend 2
          let _ ← evalNodes (eval rules depth) room e' (Tree.listToValues (listTrees before))
          let d ← c.run rules depth room e'
          let last ← evalNodes (eval rules depth) room e' (Tree.listToValues (listTrees after))
          return if (listTrees after).isEmpty then d else last)) ∧
    -- where an operand fails, and where none does
    (∀ w f v, c.operands rules depth room e w = .error f v → c.run rules depth room e w = .error f v) ∧
    (∀ w ds v, c.operands rules depth room e w = .ok ds v →
      (∀ d, applyFromRight (ds.1.zip (c.front.map (·.2))) ds.2 = .ok d →
        c.run rules depth room e w = .ok d v) ∧
      ∀ f, applyFromRight (ds.1.zip (c.front.map (·.2))) ds.2 = .error f →
        c.run rules depth room e w = .error f v) := by
  refine ⟨fun hdeep => ?_, fun target hdeep => ?_, fun callee before after hdeep => ?_,
    fun params before after hdeep => ?_, fun w f v h => Run.bind_of_error h _,
    fun w ds v h => ⟨fun d hd => ?_, fun f hf => ?_⟩⟩
  · refine (runText_phrase _ room e c.phrase rfl hdeep).trans ?_
    simp only [eval_chain]
  · refine (runText_phrase (t := .assignment target.name (some c.tree)) _ room e
      (target.assigned c.phrase) rfl hdeep).trans ?_
    simp only [eval_assignment, eval_chain]
  · refine (runText_phrase
      (t := .call (some callee.tree) (listTrees (before ++ c.phrase :: after))) _ room e
      (callee.call (before ++ c.phrase :: after)).phrase rfl hdeep).trans ?_
    simp only [listTrees_around, eval_call, List.mapM_append, List.mapM_cons, eval_chain, bind_assoc,
      pure_bind]
  · refine ⟨.list (Tree.listToValues (listTrees (before ++ c.phrase :: after))), ?_, fun room e' => ?_⟩
    · refine (runText_phrase
        (t := .function (headNames params) (listTrees (before ++ c.phrase :: after))) _ room e
        (Operand.function params (before ++ c.phrase :: after)).phrase rfl hdeep).trans ?_
      simp only [eval_function]
    · simp only [listTrees_around, evalItems_statement, eval_chain]
  · refine (Run.bind_of_ok h _).trans ?_
    rw [hd]
    rfl
  · refine (Run.bind_of_ok h _).trans ?_
    rw [hf]
    rfl

theorem cuts_quoted : Grammar.Cuts "'a' " [⟨.text "string", .text "a"⟩] := by
  unfold Grammar.Cuts
  cbv

theorem cuts_one : Grammar.Cuts " 1" [⟨.text "number", .text "1"⟩] := by
  unfold Grammar.Cuts
  cbv

/-- Two strings with a number between them: `'a' * 1+'a' `. -/
def sampleChain : Chain :=
  ⟨[(.ofLeaf cuts_quoted rfl, .times), (.ofLeaf cuts_one rfl, .plus)], .ofLeaf cuts_quoted rfl⟩

/-- The sum is computed first, and fails. -/
theorem sampleChain_applies :
    (Program.ofText grammarDepth (sampleChain.text ++ ";")).fault ≠ some .tooDeep ∧
      Run.fault? (runText (eval .standard 5) .unlimited 0 (sampleChain.text ++ ";"))
        (World.empty "" ⟨[]⟩ []) = some (.badOperands "+" "float" "str") := by
  have hdeep : (Program.ofText grammarDepth (sampleChain.text ++ ";")).fault ≠ some .tooDeep := by
    decide +kernel
  refine ⟨hdeep, ?_⟩
  rw [(chain_applies_from_right sampleChain .standard 5 0 .unlimited).1 hdeep]
  decide +kernel

end Scrawl
