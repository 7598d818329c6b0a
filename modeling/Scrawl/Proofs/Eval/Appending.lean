/-
  Scrawl.Proofs.Eval.Appending — running one text behind another.

  Statements are read ahead of their evaluation only as far as one token, and the program of two
  texts is the program of the first in front of that of the second.  So running both as one text is
  running one after the other, whatever evaluates the statements (`runText_append`).
-/

import Scrawl.Eval.Node
import Scrawl.Proofs.Grammar.Appending

namespace Scrawl

open Scrawl.Grammar (Program Tree)

/-! ## §1. Nodes one after another -/

/-- Where there are nodes, what stood before them has no say in the result. -/
theorem foldlM_node {inner : Evaluator} {room : Room} {e : ScopeId} {nodes : List Value}
    (h : nodes ≠ []) (d d' : Datum) :
    nodes.foldlM (fun _ node => inner room e node) d
      = nodes.foldlM (fun _ node => inner room e node) d' := by
  cases nodes with
  | nil => exact absurd rfl h
  | cons node nodes => rfl

/-- The nodes of two lists are evaluated one list after the other. -/
theorem evalNodes_append (inner : Evaluator) (room : Room) (e : ScopeId)
    (nodes nodes' : List Value) :
    evalNodes inner room e (nodes ++ nodes') = do
      let first ← evalNodes inner room e nodes
      let second ← evalNodes inner room e nodes'
      return if nodes'.isEmpty then first else second := by
  unfold evalNodes
  rw [List.foldlM_append]
  refine bind_congr fun first => ?_
  cases nodes' with
  | nil => rfl
  | cons node nodes' =>
    rw [foldlM_node (List.cons_ne_nil node nodes') first (.plain .nothing)]
    simp

/-! ## §2. Programs one after another -/

theorem nodes_behind (front : List Tree) (p : Program) :
    (p.behind front).nodes = Tree.listToValues front ++ p.nodes := by
  simp only [Program.nodes, Program.behind, Tree.listToValues_eq_map, List.map_append]

theorem isEmpty_nodes (p : Program) : p.nodes.isEmpty = p.statements.isEmpty := by
  simp only [Program.nodes, Tree.listToValues_eq_map, List.isEmpty_map]

/-- Statements without a fault behind them are run, and then the program that follows. -/
theorem runProgram_behind (inner : Evaluator) (room : Room) (e : ScopeId) {p : Program}
    (h : p.fault = none) (q : Program) :
    runProgram inner room e (q.behind p.statements) = do
      let first ← runProgram inner room e p
      let second ← runProgram inner room e q
      return if q.statements.isEmpty then first else second := by
  have hfault : (q.behind p.statements).fault = q.fault := rfl
  have hnodes : (q.behind p.statements).nodes = p.nodes ++ q.nodes := nodes_behind _ q
  simp only [runProgram, h, hfault, hnodes, evalNodes_append, bind_assoc, pure_bind, isEmpty_nodes]
  refine bind_congr fun first => bind_congr fun second => ?_
  cases q.fault <;> rfl

/-- There is no room to run any text, or there is room for all programs at one level. -/
theorem runText_cases (inner : Evaluator) (room : Room) (e : ScopeId) :
    (∃ f, ∀ text, runText inner room e text = throw f) ∨
      ∃ below, ∀ text,
        runText inner room e text = runProgram inner below e (Program.ofText grammarDepth text) := by
  cases hroom : room.descend 2 with
  | error f =>
    refine .inl ⟨f, fun text => ?_⟩
    rw [runText, hroom]
    rfl
  | ok below =>
    have hrun : ∀ text, runText inner room e text = (do
        let _ ← below.descend readingLevels
        runProgram inner below e (Program.ofText grammarDepth text)) := by
      intro text
      rw [runText, hroom]
      rfl
    cases hreading : below.descend readingLevels with
    | error f =>
      refine .inl ⟨f, fun text => ?_⟩
      rw [hrun, hreading]
      rfl
    | ok reading =>
      refine .inr ⟨below, fun text => ?_⟩
      rw [hrun, hreading]
      rfl

/-- **Running two texts as one is running one after the other.**  If the first is a program without
    a fault, what is printed, the scopes that are left and the fault that ends it all are the same,
    also where the second is cut off by a fault of its own.  The result is that of the second text,
    if it has a statement. -/
theorem runText_append (inner : Evaluator) (room : Room) (e : ScopeId) {s : String}
    (h : (Program.ofText grammarDepth s).fault = none) (s' : String) :
    runText inner room e (s ++ s') = do
      let first ← runText inner room e s
      let second ← runText inner room e s'
      return if (Program.ofText grammarDepth s').statements.isEmpty then first else second := by
  rcases runText_cases inner room e with ⟨f, hroom⟩ | ⟨below, hroom⟩
  · simp only [hroom]
    rfl
  · simp only [hroom]
    rw [Grammar.ofText_append grammarDepth h s', runProgram_behind inner below e h]

theorem runText_append_unfinished :
    (Program.ofText grammarDepth "x = 1; # one\n").fault = none ∧
    runText evaluate hostRoom 0 ("x = 1; # one\n" ++ "print(x); y = 'two") = (do
      let first ← runText evaluate hostRoom 0 "x = 1; # one\n"
      let second ← runText evaluate hostRoom 0 "print(x); y = 'two"
      return if (Program.ofText grammarDepth "print(x); y = 'two").statements.isEmpty then first
        else second) := by
  have h : (Program.ofText grammarDepth "x = 1; # one\n").fault = none := by cbv
  exact ⟨h, runText_append evaluate hostRoom 0 h _⟩

end Scrawl
