/-
  Scrawl.Proofs.Eval.PackedNodes — nodes of packed programs.

  A node of a source and the node of its packed form that stands for it are twins.  So are values
  that are evaluated again, and the calls that functions of the language make.  Whichever way
  evaluation looks at twins, it sees the same, or twins.
-/

import Scrawl.Proofs.Eval.PackedValues
import Scrawl.Proofs.Eval.Simulation

namespace Scrawl

open Grammar (IsName Tree)

/-! ## §1. Twins -/

/-- A node and the node that stands for it in the run of the packed program. -/
inductive Twin : Value → Value → Prop
  /-- A statement or a part of one. -/
  | tree {t : Tree} (h : t.Grammatical .expression) : Twin t.toValue t.toValue.listed
  /-- A part that is missing. -/
  | missing : Twin .nil .nil
  /-- A value. -/
  | value {k : Nat} {v : Value} (h : v.Shaped k) : Twin v v.packed
  /-- A name that a window's function goes by. -/
  | name (name : Value) : Twin (.symbolNode name) (.symbolNode name)
  /-- A call of a value without arguments. -/
  | block {k : Nat} {v : Value} (h : v.Shaped k) :
      Twin (.callNode v (.tuple [])) (.callNode v.packed (.tuple []))
  /-- A call of a window's function. -/
  | news {name : Value} {args : List Value} (h : ∀ a ∈ args, a.IsNews) :
      Twin (.callNode (.symbolNode name) (.list args)) (.callNode (.symbolNode name) (.list args))

/-- A part of a statement that may be missing. -/
theorem Twin.option {t : Option Tree} (h : ∀ u ∈ t, u.Grammatical .expression) :
    Twin (Tree.optionToValue t) (Tree.optionToValue t).listed := by
  cases t with
  | none => exact .missing
  | some t => exact .tree (h t rfl)

/-- The nodes of statements. -/
theorem Twin.list {trees : List Tree} (h : ∀ t ∈ trees, t.Grammatical .expression) :
    List.Forall₂ Twin (Tree.listToValues trees) ((Tree.listToValues trees).map Value.listed) := by
  rw [Tree.listToValues_eq_map, List.map_map, List.forall₂_map_left_iff, List.forall₂_map_right_iff,
    List.forall₂_same]
  exact fun t ht => .tree (h t ht)

/-! ## §2. Looking at twins -/

section Laws

variable (c : Comparison) {n n' : Value}

theorem Twin.tag (hfault : ∀ f, c.fault f f) (h : Twin n n') : c.Matches Eq n.tag n'.tag := by
  cases h with
  | @tree t _ => cases t <;> exact .ok rfl
  | missing => exact .error (hfault _)
  | value h =>
    cases h with
    | text s => exact .refl hfault fun _ _ => rfl
    | _ => exact .ok rfl
  | name _ => exact .ok rfl
  | block _ => exact .ok rfl
  | news _ => exact .ok rfl

theorem Twin.number (hfault : ∀ f, c.fault f f) (h : Twin n n') (htag : n.tag = .ok (.text "number")) :
    c.Matches (fun p p' => c.Matches Eq p.toFloat p'.toFloat) n.payload n'.payload := by
  have hsame : ∀ p : Value, c.Matches Eq p.toFloat p.toFloat :=
    fun _ => .refl hfault fun _ _ => rfl
  cases h with
  | @tree t h =>
    cases t with
    | number text =>
      cases h with
      | operand h => cases h with
        | number _ => exact .ok (hsame _)
    | _ => exact tag_absurd (by decide) htag
  | missing => exact nomatch htag
  | value h =>
    obtain ⟨p, rfl, hp⟩ := h.number_parts htag
    refine .ok ?_
    cases hp with
    | names hnames =>
      -- a parameter list is no number in either form
      rw [Value.listed_list]
      exact .error (hfault _)
    | _ => exact hsame _
  | _ => exact tag_absurd (by decide) htag

theorem Twin.string (h : Twin n n') (htag : n.tag = .ok (.text "string")) :
    c.Matches Eq n.payload n'.payload := by
  cases h with
  | @tree t h =>
    cases t with
    | string text =>
      cases h with
      | operand h => cases h with
        | string _ => exact .ok rfl
    | _ => exact tag_absurd (by decide) htag
  | missing => exact nomatch htag
  | value h =>
    obtain ⟨s, rfl⟩ := h.string_parts htag
    exact .ok rfl
  | _ => exact tag_absurd (by decide) htag

theorem Twin.operation (h : Twin n n') (htag : n.tag = .ok (.text "operation")) :
    c.Matches Eq (n.item 1) (n'.item 1) ∧ c.Matches Twin (n.item 2) (n'.item 2) ∧
      c.Matches Twin (n.item 3) (n'.item 3) := by
  cases h with
  | @tree t h =>
    cases t with
    | operation op left right =>
      cases h with
      | operand h => exact nomatch h
      | operation hop hleft hright =>
        exact ⟨.ok rfl, .ok (.option fun u hu => .operand (hleft u hu)), .ok (.option hright)⟩
    | _ => exact tag_absurd (by decide) htag
  | missing => exact nomatch htag
  | value h => exact h.tag_absurd (by decide) (by decide) htag
  | _ => exact tag_absurd (by decide) htag

theorem Twin.symbol (h : Twin n n') (htag : n.tag = .ok (.text "symbol")) :
    c.Matches Eq (n.item 1) (n'.item 1) := by
  cases h with
  | @tree t h =>
    cases t with
    | symbol name =>
      cases h with
      | operand h => cases h with
        | symbol hname => exact .ok (Value.listed_name hname).symm
    | _ => exact tag_absurd (by decide) htag
  | missing => exact nomatch htag
  | value h => exact h.tag_absurd (by decide) (by decide) htag
  | name name => exact .ok rfl
  | _ => exact tag_absurd (by decide) htag

theorem Twin.assignment (h : Twin n n') (htag : n.tag = .ok (.text "assignment")) :
    c.Matches (fun t t' => c.Matches (fun a b => b = a ∧ IsName a) (t.item 1) (t'.item 1))
        (n.item 1) (n'.item 1) ∧
      c.Matches Twin (n.item 2) (n'.item 2) := by
  cases h with
  | @tree t h =>
    cases t with
    | assignment name value =>
      cases h with
      | operand h => exact nomatch h
      | assignment hname hvalue =>
        exact ⟨.ok (.ok ⟨Value.listed_name hname, hname⟩), .ok (.option hvalue)⟩
    | _ => exact tag_absurd (by decide) htag
  | missing => exact nomatch htag
  | value h => exact h.tag_absurd (by decide) (by decide) htag
  | _ => exact tag_absurd (by decide) htag

theorem Twin.call (h : Twin n n') (htag : n.tag = .ok (.text "call")) :
    c.Matches Twin (n.item 1) (n'.item 1) ∧
      c.Matches (fun b b' => c.Matches (List.Forall₂ Twin) b.items b'.items)
        (n.item 2) (n'.item 2) := by
  cases h with
  | @tree t h =>
    cases t with
    | call callee args =>
      cases h with
      | operand h => cases h with
        | call hcallee hargs =>
          refine ⟨.ok (.option fun u hu => .operand (hcallee u hu)), .ok ?_⟩
          show c.Matches _ _ (Value.items (Value.listed (.list _)))
          rw [Value.listed_list]
          exact .ok (Twin.list hargs)
    | _ => exact tag_absurd (by decide) htag
  | missing => exact nomatch htag
  | value h => exact h.tag_absurd (by decide) (by decide) htag
  | name name => exact tag_absurd (by decide) htag
  | block h => exact ⟨.ok (.value h), .ok (.ok .nil)⟩
  | news h =>
    refine ⟨.ok (.name _), .ok (.ok (List.forall₂_same.2 fun a ha => ?_))⟩
    rcases h a ha with ⟨s, rfl⟩ | ⟨i, rfl⟩
    · exact .value (.string (k := 0) s)
    · exact .value (.number (k := 0) (.int i))

/-- A function has a parameter list and statements, and its twin has them with lists for tuples. -/
theorem Twin.function_parts (h : Twin n n') (htag : n.tag = .ok (.text "function")) :
    ∃ (names : List Value) (body : List Tree),
      (∀ m ∈ names, IsName m) ∧ (∀ t ∈ body, t.Grammatical .expression) ∧
        n.item 1 = .ok (.list (names.map Value.symbolNode)) ∧
        n.item 2 = .ok (.list (Tree.listToValues body)) ∧
        n'.item 1 = .ok (Value.listed (.list (names.map Value.symbolNode))) ∧
        n'.item 2 = .ok (Value.listed (.list (Tree.listToValues body))) := by
  cases h with
  | @tree t h =>
    cases t with
    | function params body =>
      cases h with
      | operand h => cases h with
        | function hparams hbody => exact ⟨params, body, hparams, hbody, rfl, rfl, rfl, rfl⟩
    | _ => exact tag_absurd (by decide) htag
  | missing => exact nomatch htag
  | value h =>
    obtain ⟨names, body, _, rfl, hnames, hbody, -⟩ := h.function_parts htag
    exact ⟨names, body, hnames, hbody, rfl, rfl, rfl, rfl⟩
  | _ => exact tag_absurd (by decide) htag

theorem Twin.function (h : Twin n n') (htag : n.tag = .ok (.text "function")) :
    c.Matches (fun p p' => c.Matches (fun b b' => ∀ (k : Forest) home, home < k.size →
        (Value.function p b home).Shaped k.size ∧
          Value.function p' b' home = (Value.function p b home).packed) (n.item 2) (n'.item 2))
      (n.item 1) (n'.item 1) := by
  obtain ⟨names, body, hnames, hbody, hitem, hitem', htwin, htwin'⟩ := h.function_parts htag
  rw [hitem, hitem', htwin, htwin']
  exact .ok (.ok fun k home hhome => ⟨.function hnames hbody hhome, rfl⟩)

/-- Twins can both be written, or neither. -/
theorem Twin.isWritable_eq (h : Twin n n') : n'.isWritable = n.isWritable := by
  cases h with
  | tree _ => exact Value.isWritable_listed _
  | value h => exact Value.isWritable_packed h
  | block h =>
    simp only [Value.callNode, Value.isWritable, Value.areWritable, Value.isWritable_packed h]
  | missing => rfl
  | name _ => rfl
  | news _ => rfl

/-! ## §3. Looking at values -/

variable {k : Nat} {v : Value}

/-- A payload and that of the packed value. -/
theorem Value.Shaped.payload_packed (hfault : ∀ f, c.fault f f) (h : v.Shaped k) :
    c.Matches (fun p p' => p.IsOperand ∧ p' = p.listed) v.payload v.packed.payload := by
  have hself : ∀ u : Value, u.Shaped k → u.packed = u → (∀ p, u.payload = .ok p → p.listed = p) →
      c.Matches (fun p p' => p.IsOperand ∧ p' = p.listed) u.payload u.packed.payload := by
    intro u hu hpacked hlisted
    rw [hpacked]
    exact .refl hfault fun p hp => ⟨hu.payload hp, (hlisted p hp).symm⟩
  cases h with
  | number h => exact .ok ⟨.payload h, rfl⟩
  | function hnames _ _ => exact .ok ⟨.payload (.names hnames), rfl⟩
  | string s => exact .ok ⟨.payload (.text s), rfl⟩
  | native fn => exact .ok ⟨.native fn, rfl⟩
  | nothing => exact hself _ .nothing rfl fun p hp => nomatch hp
  | blank => exact hself _ .blank rfl fun p hp => nomatch hp
  | text s =>
    refine hself _ (.text s) rfl fun p hp => ?_
    obtain ⟨c, rfl⟩ := Value.item_text hp
    rfl

/-- Parameter lists, and those of packed functions, have the same names. -/
theorem names_listed {names : List Value} (h : ∀ n ∈ names, IsName n) :
    List.Forall₂ (fun q q' : Value =>
        c.Matches (fun a b => b = a ∧ IsName a) q.payload q'.payload)
      (names.map Value.symbolNode) ((names.map Value.symbolNode).map Value.listed) := by
  rw [Value.map_listed_symbolNode h, List.forall₂_map_left_iff, List.forall₂_map_right_iff,
    List.forall₂_same]
  exact fun n hn => .ok ⟨rfl, h n hn⟩

end Laws

end Scrawl
