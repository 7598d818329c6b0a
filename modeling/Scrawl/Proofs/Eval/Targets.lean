/-
  Scrawl.Proofs.Eval.Targets — what a program sets.

  The targets of a tree are the names that its assignments set and that its functions take as
  parameters.  A node that sets only what is allowed (`Value.SetsOnly`) consists of such nodes, and
  the nodes of a tree set nothing but its targets (`Tree.setsOnly`).
-/

import Scrawl.Proofs.Value.Tags

namespace Scrawl

/-! ## §1. Targets -/

namespace Grammar

mutual

/-- Everything that a tree assigns to or takes as a parameter. -/
def Tree.targets : Tree → List Value
  | .number _ => []
  | .string _ => []
  | .symbol _ => []
  | .operation _ left right => Tree.optionTargets left ++ Tree.optionTargets right
  | .call callee args => Tree.optionTargets callee ++ Tree.listTargets args
  | .function params body => params ++ Tree.listTargets body
  | .assignment name value => name :: Tree.optionTargets value

/-- The targets of a tree that may be missing. -/
def Tree.optionTargets : Option Tree → List Value
  | none => []
  | some t => t.targets

/-- The targets of several trees. -/
def Tree.listTargets : List Tree → List Value
  | [] => []
  | t :: rest => t.targets ++ Tree.listTargets rest

end

/-- The targets of a program. -/
def Program.targets (p : Program) : List Value := Tree.listTargets p.statements

end Grammar

/-! ## §2. Nodes -/

/-- The tags of the nodes that have parts. -/
def Value.partTags : List String := ["operation", "assignment", "call", "function"]

/-- A node in which only what is allowed is set or is a parameter. -/
inductive Value.SetsOnly (allowed : Value → Prop) : Value → Prop
  /-- A node without parts. -/
  | leaf {n : Value} (htag : ∀ tag ∈ partTags, n.tag ≠ .ok (.text tag)) : SetsOnly allowed n
  /-- An operation. -/
  | operation {n : Value} (htag : n.tag = .ok (.text "operation"))
      (left : ∀ m, n.item 2 = .ok m → SetsOnly allowed m)
      (right : ∀ m, n.item 3 = .ok m → SetsOnly allowed m) : SetsOnly allowed n
  /-- An assignment. -/
  | assignment {n : Value} (htag : n.tag = .ok (.text "assignment"))
      (target : ∀ t key, n.item 1 = .ok t → t.item 1 = .ok key → allowed key)
      (value : ∀ m, n.item 2 = .ok m → SetsOnly allowed m) : SetsOnly allowed n
  /-- A call. -/
  | call {n : Value} (htag : n.tag = .ok (.text "call"))
      (callee : ∀ m, n.item 1 = .ok m → SetsOnly allowed m)
      (args : ∀ b, n.item 2 = .ok b → ∀ items, b.items = .ok items →
        ∀ m ∈ items, SetsOnly allowed m) : SetsOnly allowed n
  /-- A function, with or without the scope it was made in. -/
  | function {n : Value} (htag : n.tag = .ok (.text "function"))
      (params : ∀ p, n.item 1 = .ok p → ∀ items, p.items = .ok items →
        ∀ q ∈ items, ∀ key, q.payload = .ok key → allowed key)
      (body : ∀ b, n.item 2 = .ok b → ∀ items, b.items = .ok items →
        ∀ m ∈ items, SetsOnly allowed m) : SetsOnly allowed n

namespace Value

variable {allowed : Value → Prop} {n : Value}

/-- A value with another tag sets nothing. -/
theorem setsOnly_tagged {s : String} (hs : s ∉ partTags) (hn : n.tag = .ok (.text s)) :
    n.SetsOnly allowed := by
  refine .leaf fun other hother heq => hs ?_
  obtain rfl := Value.text.inj (Except.ok.inj (hn.symm.trans heq))
  exact hother

/-- A node has one tag only. -/
theorem tag_unique {P : Prop} {s t : String} (hs : n.tag = .ok (.text s))
    (ht : n.tag = .ok (.text t)) (hne : s ≠ t) : P :=
  tag_absurd hne (hs.symm.trans ht)

namespace SetsOnly

theorem of_operation (h : n.SetsOnly allowed) (hn : n.tag = .ok (.text "operation")) :
    (∀ m, n.item 2 = .ok m → m.SetsOnly allowed) ∧
      ∀ m, n.item 3 = .ok m → m.SetsOnly allowed := by
  cases h with
  | leaf htag => exact absurd hn (htag _ (by decide))
  | operation _ left right => exact ⟨left, right⟩
  | assignment htag _ _ => exact tag_unique htag hn (by decide)
  | call htag _ _ => exact tag_unique htag hn (by decide)
  | function htag _ _ => exact tag_unique htag hn (by decide)

theorem of_assignment (h : n.SetsOnly allowed) (hn : n.tag = .ok (.text "assignment")) :
    (∀ t key, n.item 1 = .ok t → t.item 1 = .ok key → allowed key) ∧
      ∀ m, n.item 2 = .ok m → m.SetsOnly allowed := by
  cases h with
  | leaf htag => exact absurd hn (htag _ (by decide))
  | operation htag _ _ => exact tag_unique htag hn (by decide)
  | assignment _ target value => exact ⟨target, value⟩
  | call htag _ _ => exact tag_unique htag hn (by decide)
  | function htag _ _ => exact tag_unique htag hn (by decide)

theorem of_call (h : n.SetsOnly allowed) (hn : n.tag = .ok (.text "call")) :
    (∀ m, n.item 1 = .ok m → m.SetsOnly allowed) ∧
      ∀ b, n.item 2 = .ok b → ∀ items, b.items = .ok items → ∀ m ∈ items, m.SetsOnly allowed := by
  cases h with
  | leaf htag => exact absurd hn (htag _ (by decide))
  | operation htag _ _ => exact tag_unique htag hn (by decide)
  | assignment htag _ _ => exact tag_unique htag hn (by decide)
  | call _ callee args => exact ⟨callee, args⟩
  | function htag _ _ => exact tag_unique htag hn (by decide)

theorem of_function (h : n.SetsOnly allowed) (hn : n.tag = .ok (.text "function")) :
    (∀ p, n.item 1 = .ok p → ∀ items, p.items = .ok items →
        ∀ q ∈ items, ∀ key, q.payload = .ok key → allowed key) ∧
      ∀ b, n.item 2 = .ok b → ∀ items, b.items = .ok items → ∀ m ∈ items, m.SetsOnly allowed := by
  cases h with
  | leaf htag => exact absurd hn (htag _ (by decide))
  | operation htag _ _ => exact tag_unique htag hn (by decide)
  | assignment htag _ _ => exact tag_unique htag hn (by decide)
  | call htag _ _ => exact tag_unique htag hn (by decide)
  | function _ params body => exact ⟨params, body⟩

end SetsOnly

end Value

/-! ## §3. Trees -/

namespace Grammar

variable {allowed : Value → Prop}

mutual

/-- **A tree sets only its targets.** -/
theorem Tree.setsOnly (t : Tree) (h : ∀ key ∈ t.targets, allowed key) :
    t.toValue.SetsOnly allowed := by
  match t with
  | .number text =>
    rw [Tree.toValue]
    exact Value.setsOnly_tagged (s := "number") (by decide) rfl
  | .string text =>
    rw [Tree.toValue]
    exact Value.setsOnly_tagged (s := "string") (by decide) rfl
  | .symbol name =>
    rw [Tree.toValue]
    exact Value.setsOnly_tagged (s := "symbol") (by decide) rfl
  | .operation op left right =>
    rw [Tree.targets, List.forall_mem_append] at h
    rw [Tree.toValue]
    exact .operation rfl (fun m hm => Except.ok.inj hm ▸ Tree.optionSetsOnly left h.1)
      fun m hm => Except.ok.inj hm ▸ Tree.optionSetsOnly right h.2
  | .call callee args =>
    rw [Tree.targets, List.forall_mem_append] at h
    rw [Tree.toValue]
    refine .call rfl (fun m hm => Except.ok.inj hm ▸ Tree.optionSetsOnly callee h.1)
      fun b hb items hitems => ?_
    obtain rfl := Except.ok.inj hb
    obtain rfl := Except.ok.inj hitems
    exact Tree.listSetsOnly args h.2
  | .function params body =>
    rw [Tree.targets, List.forall_mem_append] at h
    rw [Tree.toValue]
    refine .function rfl (fun p hp items hitems q hq key hkey => ?_) fun b hb items hitems => ?_
    · obtain rfl := Except.ok.inj hp
      obtain rfl := Except.ok.inj hitems
      obtain ⟨name, hname, rfl⟩ := List.mem_map.1 hq
      obtain rfl : name = key := Except.ok.inj hkey
      exact h.1 name hname
    · obtain rfl := Except.ok.inj hb
      obtain rfl := Except.ok.inj hitems
      exact Tree.listSetsOnly body h.2
  | .assignment name value =>
    rw [Tree.targets, List.forall_mem_cons] at h
    rw [Tree.toValue]
    refine .assignment rfl (fun t key ht hkey => ?_)
      fun m hm => Except.ok.inj hm ▸ Tree.optionSetsOnly value h.2
    obtain rfl := Except.ok.inj ht
    exact Except.ok.inj hkey ▸ h.1

theorem Tree.optionSetsOnly (t : Option Tree) (h : ∀ key ∈ Tree.optionTargets t, allowed key) :
    (Tree.optionToValue t).SetsOnly allowed := by
  match t with
  | none =>
    rw [Tree.optionToValue]
    exact .leaf fun _ _ => nofun
  | some t =>
    rw [Tree.optionTargets] at h
    rw [Tree.optionToValue]
    exact Tree.setsOnly t h

theorem Tree.listSetsOnly (ts : List Tree) (h : ∀ key ∈ Tree.listTargets ts, allowed key) :
    ∀ m ∈ Tree.listToValues ts, m.SetsOnly allowed := by
  match ts with
  | [] =>
    rw [Tree.listToValues]
    exact fun m hm => nomatch hm
  | t :: rest =>
    rw [Tree.listTargets, List.forall_mem_append] at h
    rw [Tree.listToValues]
    exact List.forall_mem_cons.2 ⟨Tree.setsOnly t h.1, Tree.listSetsOnly rest h.2⟩

end

end Grammar

end Scrawl
