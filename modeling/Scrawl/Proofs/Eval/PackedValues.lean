/-
  Scrawl.Proofs.Eval.PackedValues — values of packed programs.

  A packed program has lists where its source has tuples.  Its functions hold nodes of the packed
  form, and so may its numbers, as a function's parameters are its payload (`Value.packed`).
  Operators and comparisons do not see the difference.
-/

import Scrawl.Proofs.Eval.Shape
import Scrawl.Proofs.Json.RoundTrip

namespace Scrawl.Value

open Grammar (IsName)

/-! ## §1. Packed values -/

/-- The value of a packed program for a value of its source. -/
def packed : Value → Value
  | .tuple [.text "function", params, body, home] =>
    .tuple [.text "function", params.listed, body.listed, home]
  | .tuple [.text "number", p] => .tuple [.text "number", p.listed]
  | v => v

@[simp] theorem packed_function (params body : Value) (home : ScopeId) :
    (function params body home).packed = function params.listed body.listed home := rfl

@[simp] theorem packed_number (p : Value) : (number p).packed = number p.listed := rfl

theorem listed_name {n : Value} (h : IsName n) : n.listed = n := by
  obtain ⟨s, rfl, -⟩ := h
  rfl

@[simp] theorem listed_symbolNode {n : Value} (h : IsName n) :
    (symbolNode n).listed = .list [.text "symbol", n] := by
  simp [symbolNode, listed_name h]

/-- Parameters of a packed function. -/
theorem map_listed_symbolNode {names : List Value} (h : ∀ n ∈ names, IsName n) :
    (names.map symbolNode).map listed = names.map fun n => .list [.text "symbol", n] := by
  rw [List.map_map]
  exact List.map_congr_left fun n hn => listed_symbolNode (h n hn)

/-! ## §2. Writing -/

mutual

/-- Packing makes no number longer. -/
theorem isWritable_listed : ∀ v : Value, v.listed.isWritable = v.isWritable
  | .tuple items => by
    rw [listed, isWritable, isWritable]
    exact areWritable_listed items
  | .list items => by
    rw [listed, isWritable, isWritable]
    exact areWritable_listed items
  | .nil | .bool _ | .int _ | .float _ | .text _ | .record _ | .native _ | .scope _ => rfl

theorem areWritable_listed : ∀ items : List Value, areWritable (listedItems items) = areWritable items
  | [] => rfl
  | v :: rest => by rw [listedItems, areWritable, areWritable, isWritable_listed v,
      areWritable_listed rest]

end

theorem isWritable_packed {k : Nat} {v : Value} (h : v.Shaped k) :
    v.packed.isWritable = v.isWritable := by
  cases h with
  | number h =>
    rw [packed_number, number, number]
    simp only [isWritable.eq_2, areWritable, isWritable_listed]
  | function hnames hbody hhome =>
    rw [packed_function, function, function]
    simp only [isWritable.eq_2, areWritable, isWritable_listed]
  | string s => rfl
  | nothing => rfl
  | native fn => rfl
  | text s => rfl
  | blank => rfl

/-! ## §3. Operators -/

/-- Packing changes neither the number that an operand is nor its kind. -/
theorem IsOperand.listed_eq {p : Value} (h : p.IsOperand) :
    p.listed.numeral? = p.numeral? ∧ p.listed.sequence? = p.sequence? ∧ p.listed.kind = p.kind := by
  rcases h with (_ | _ | _ | _) | _ <;> exact ⟨rfl, rfl, rfl⟩

/-- Numbers are the same in both. -/
theorem map_listed_of_number {x : Except Fault Value} (h : ∀ r, x = .ok r → r.IsNumber) :
    x.map listed = x := by
  cases x with
  | error f => rfl
  | ok r => cases h r rfl <;> rfl

theorem combine_listed (exact : Int → Int → Int) (floating : Float → Float → Float)
    (a b : Numeral) :
    (combine exact floating a b).map listed = combine exact floating a b :=
  map_listed_of_number fun _ => combine_number

theorem add_listed {p q : Value} (hp : p.IsOperand) (hq : q.IsOperand) :
    p.listed.add q.listed = (p.add q).map listed := by
  unfold add
  rw [hp.listed_eq.1, hq.listed_eq.1]
  split
  · exact (combine_listed _ _ _ _).symm
  -- of what is no number, only two texts and two parameter lists can be added
  obtain (x | i | s | @⟨xs, hxs⟩) | fn := hp <;> obtain (y | j | t | @⟨ys, hys⟩) | fn' := hq
  all_goals first
    | rfl
    | (rw [listed_list, listed_list]
       show Except.ok (Value.list _) = Except.ok (Value.list _).listed
       rw [listed_list, List.map_append])

theorem sub_listed {p q : Value} (hp : p.IsOperand) (hq : q.IsOperand) :
    p.listed.sub q.listed = (p.sub q).map listed := by
  unfold sub
  rw [hp.listed_eq.1, hq.listed_eq.1, hp.listed_eq.2.2, hq.listed_eq.2.2]
  split
  · exact (combine_listed _ _ _ _).symm
  · rfl

/-- A repeated parameter list of a packed program. -/
theorem repeated_listed {v : Value} (hv : v.IsPayload) (count : Int) :
    repeated v.listed count = (repeated v count).map listed := by
  unfold repeated
  split
  · rfl
  cases hv with
  | float x => rfl
  | int i => rfl
  | text s =>
    dsimp only [listed_text]
    split
    · rfl
    split <;> rfl
  | names hnames =>
    rw [listed_list]
    dsimp only
    rw [List.length_map]
    split
    · rfl
    · show Except.ok _ = Except.ok (Value.list _).listed
      rw [listed_list, map_repeatItems]

theorem repeatBy_listed {v count : Value} (hv : v.IsPayload) (hcount : count.IsOperand) :
    repeatBy v.listed count.listed = (repeatBy v count).map listed := by
  unfold repeatBy
  rw [hcount.listed_eq.1, hcount.listed_eq.2.2]
  split
  · exact repeated_listed hv _
  · rfl

theorem mul_listed {p q : Value} (hp : p.IsOperand) (hq : q.IsOperand) :
    p.listed.mul q.listed = (p.mul q).map listed := by
  unfold mul
  rw [hp.listed_eq.1, hq.listed_eq.1, hp.listed_eq.2.1, hq.listed_eq.2.1, hp.listed_eq.2.2,
    hq.listed_eq.2.2]
  split
  · exact (combine_listed _ _ _ _).symm
  split
  · next hseq => exact repeatBy_listed (hp.payload_of_sequence hseq) hq
  split
  · next hseq => exact repeatBy_listed (hq.payload_of_sequence hseq) hp
  · rfl

theorem div_listed {p q : Value} (hp : p.IsOperand) (hq : q.IsOperand) :
    p.listed.div q.listed = (p.div q).map listed := by
  have hsame : p.listed.div q.listed = p.div q := by
    unfold div
    rw [hp.listed_eq.1, hq.listed_eq.1, hp.listed_eq.2.2, hq.listed_eq.2.2]
  rw [hsame]
  exact (map_listed_of_number fun _ => div_number).symm

/-! ## §4. Comparing -/

theorem isOne_listed {p : Value} (hp : p.IsOperand) : p.listed.isOne = p.isOne := by
  rcases hp with (_ | _ | _ | _) | _ <;> rfl

/-- Two parameter lists are equal if the packed ones are. -/
theorem equalItems_listed {xs ys : List Value} (hxs : ∀ n ∈ xs, IsName n)
    (hys : ∀ n ∈ ys, IsName n) :
    equalItems ((xs.map symbolNode).map listed) ((ys.map symbolNode).map listed)
      = equalItems (xs.map symbolNode) (ys.map symbolNode) := by
  rw [map_listed_symbolNode hxs, map_listed_symbolNode hys]
  induction xs generalizing ys with
  | nil => cases ys <;> rfl
  | cons x xs ih =>
    cases ys with
    | nil => rfl
    | cons y ys =>
      have htail := ih (fun n hn => hxs n (List.mem_cons_of_mem _ hn))
        (fun n hn => hys n (List.mem_cons_of_mem _ hn))
      simp only [List.map_cons, equalItems, htail]
      rfl

theorem equal_listed {p q : Value} (hp : p.IsOperand) (hq : q.IsOperand) :
    p.listed.equal q.listed = p.equal q := by
  obtain (x | i | s | @⟨xs, hxs⟩) | fn := hp <;> obtain (y | j | t | @⟨ys, hys⟩) | fn' := hq
  all_goals first
    | rfl
    | (rw [listed_list, listed_list, equal, equal]
       exact equalItems_listed hxs hys)

end Scrawl.Value

namespace Scrawl

/-- **Operators do not see whether a program is packed.** -/
theorem operator_listed {op p q : Value} {apply : Value → Value → Except Fault Value}
    (hop : operator? op = some apply) (hp : p.IsOperand) (hq : q.IsOperand) :
    apply p.listed q.listed = (apply p q).map Value.listed := by
  rcases operator?_cases hop with rfl | rfl | rfl | rfl
  · exact Value.add_listed hp hq
  · exact Value.sub_listed hp hq
  · exact Value.mul_listed hp hq
  · exact Value.div_listed hp hq

end Scrawl
