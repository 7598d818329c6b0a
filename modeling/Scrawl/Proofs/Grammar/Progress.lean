/-
  Scrawl.Proofs.Grammar.Progress — the parser moves on and stops where it should.

  A parser of expressions is ORDERLY when what it leaves is the end of what it was given, when it
  only comes back in front of a token that ends the expression, and when it comes back at once if
  it already stands there.  The lemmas follow the definition of the parser: if the parser for
  everything deeper is orderly, so are the lists of expressions over it, and so is the layer on
  top of it.  `expression_orderly` is the induction over the layers.
-/

import Scrawl.Grammar.Parser

namespace Scrawl.Grammar

/-! ## §1. Computations that may fail -/

/-- A sequence of two computations succeeds exactly if both do. -/
theorem bind_eq_ok {ε α β : Type} {x : Except ε α} {k : α → Except ε β} {b : β} :
    (x >>= k) = .ok b ↔ ∃ a, x = .ok a ∧ k a = .ok b := by
  cases x with
  | error e =>
    constructor
    · intro h
      exact nomatch h
    · rintro ⟨a, h, hk⟩
      exact nomatch h
  | ok a =>
    constructor
    · intro h
      exact ⟨a, rfl, h⟩
    · rintro ⟨a', h, hk⟩
      injection h with h
      subst h
      exact hk

/-! ## §2. Looking ahead -/

theorem expect_eq_ok {expected : String} {tokens : List Token} {t : Token}
    (h : expect expected tokens = .ok t) : ∃ rest, tokens = t :: rest := by
  cases tokens with
  | nil => exact nomatch h
  | cons u rest =>
    injection h with h
    exact ⟨rest, by rw [h]⟩

theorem glance_eq_ok {tokens : List Token} {t : Token} (h : glance tokens = .ok t) :
    ∃ rest, tokens = t :: rest := by
  cases tokens with
  | nil => exact nomatch h
  | cons u rest =>
    injection h with h
    exact ⟨rest, by rw [h]⟩

/-- Passing a token leaves the tokens behind it. -/
theorem advance_eq_ok {ending : Option Fault} {t : Token} {rest tokens : List Token}
    (h : advance ending (t :: rest) = .ok tokens) : tokens = rest := by
  cases rest with
  | nil =>
    cases ending with
    | none => injection h with h; exact h.symm
    | some f => exact nomatch h
  | cons u rest => injection h with h; exact h.symm

/-- Without a fault behind the tokens, passing one always succeeds. -/
theorem advance_none (t : Token) (rest : List Token) : advance none (t :: rest) = .ok rest := by
  cases rest <;> rfl

/-! ## §3. Orderly parsers -/

/-- What a parser of expressions keeps to, whatever it is given. -/
structure Orderly (p : ExpressionParser) : Prop where
  /-- What is left is the end of what there was. -/
  suffix : ∀ {stop previous tokens result rest},
    p stop previous tokens = .ok (result, rest) → rest <:+ tokens
  /-- The next token is one that ends the expression. -/
  stops : ∀ {stop previous tokens result rest},
    p stop previous tokens = .ok (result, rest) →
      ∃ t more, rest = t :: more ∧ stop.endsAt t.kind = .ok true
  /-- In front of a token that ends the expression nothing more is read. -/
  stays : ∀ {stop previous t more result rest},
    stop.endsAt t.kind = .ok true → p stop previous (t :: more) = .ok (result, rest) →
      result = previous ∧ rest = t :: more

/-- A parser that succeeds has not come to the end of the tokens. -/
theorem Orderly.ne_nil {p : ExpressionParser} (hp : Orderly p) {stop : Stop}
    {previous result : Option Tree} {tokens rest : List Token}
    (h : p stop previous tokens = .ok (result, rest)) : tokens ≠ [] := by
  rintro rfl
  obtain ⟨t, more, rfl, -⟩ := hp.stops h
  exact nomatch List.eq_nil_of_suffix_nil (hp.suffix h)

/-- A parser that never succeeds is orderly. -/
theorem orderly_of_error {p : ExpressionParser} {f : Fault}
    (h : ∀ stop previous tokens, p stop previous tokens = .error f) : Orderly p where
  suffix hp := by rw [h] at hp; exact nomatch hp
  stops hp := by rw [h] at hp; exact nomatch hp
  stays _ hp := by rw [h] at hp; exact nomatch hp

section Lists

variable {ending : Option Fault} {inner : ExpressionParser} {separator close : String}

/-- One round of a list of items: an item, the token behind it, and the rest of the list unless
    that token closes it. -/
theorem items_succ_eq_ok {fuel : Nat} {tokens rest : List Token} {trees : List Tree}
    (h : items ending inner separator close (fuel + 1) tokens = .ok (trees, rest)) :
    ∃ item stop behind,
      inner (.item separator close) none tokens = .ok (item, stop :: behind) ∧ behind ≠ [] ∧
        ((stop.kind.isText close = true ∧ trees = item.toList ∧ rest = behind) ∨
          (stop.kind.isText close = false ∧ ∃ more,
            items ending inner separator close fuel behind = .ok (more, rest) ∧
              trees = item.toList ++ more)) := by
  unfold items at h
  simp only [bind_eq_ok, Prod.exists] at h
  obtain ⟨item, left, hitem, stop, hstop, behind, hbehind, next, hnext, h⟩ := h
  obtain ⟨behind', rfl⟩ := glance_eq_ok hstop
  obtain rfl := advance_eq_ok hbehind
  obtain ⟨more, rfl⟩ := expect_eq_ok hnext
  refine ⟨item, stop, next :: more, hitem, List.cons_ne_nil _ _, ?_⟩
  by_cases hclose : stop.kind.isText close = true
  · rw [if_pos hclose] at h
    injection h with h
    injection h with htrees hrest
    exact .inl ⟨hclose, htrees.symm, hrest.symm⟩
  · rw [if_neg hclose] at h
    simp only [bind_eq_ok, Prod.exists] at h
    obtain ⟨others, left, hothers, h⟩ := h
    injection h with h
    injection h with htrees hrest
    subst hrest
    exact .inr ⟨by simpa using hclose, others, hothers, htrees.symm⟩

/-- A list of items takes at least one token and ends with its closing sign. -/
theorem items_consumes (hinner : Orderly inner) :
    ∀ {fuel : Nat} {tokens rest : List Token} {trees : List Tree},
      items ending inner separator close fuel tokens = .ok (trees, rest) →
        ∃ last, last.kind.isText close = true ∧ (last :: rest) <:+ tokens := by
  intro fuel
  induction fuel with
  | zero => intro tokens rest trees h; exact nomatch h
  | succ fuel ih =>
    intro tokens rest trees h
    obtain ⟨item, stop, behind, hitem, -, hend⟩ := items_succ_eq_ok h
    have hsuffix : (stop :: behind) <:+ tokens := hinner.suffix hitem
    -- the closing sign is the token behind this item, or comes in a later round
    obtain ⟨hclose, -, rfl⟩ | ⟨-, more, hmore, -⟩ := hend
    · exact ⟨stop, hclose, hsuffix⟩
    · obtain ⟨last, hlast, hrest⟩ := ih hmore
      exact ⟨last, hlast, (hrest.trans (List.suffix_cons _ _)).trans hsuffix⟩

/-- A list of expressions is closed at once, or it has items. -/
theorem group_cases {tokens rest : List Token} {trees : List Tree}
    (h : group ending inner separator close tokens = .ok (trees, rest)) :
    (∃ first, first.kind.isText close = true ∧ tokens = first :: rest ∧ trees = []) ∨
      ∃ first behind, first.kind.isText close = false ∧ tokens = first :: behind ∧
        items ending inner separator close tokens.length tokens = .ok (trees, rest) := by
  unfold group at h
  rw [bind_eq_ok] at h
  obtain ⟨first, hfirst, h⟩ := h
  obtain ⟨behind, rfl⟩ := expect_eq_ok hfirst
  by_cases hclose : first.kind.isText close = true
  · rw [if_pos hclose, bind_eq_ok] at h
    obtain ⟨left, hleft, h⟩ := h
    obtain rfl := advance_eq_ok hleft
    injection h with h
    injection h with htrees hrest
    exact .inl ⟨first, hclose, by rw [hrest], htrees.symm⟩
  · rw [if_neg hclose] at h
    exact .inr ⟨first, behind, by simpa using hclose, rfl, h⟩

/-- A list of expressions takes at least its closing sign, which comes last. -/
theorem group_consumes (hinner : Orderly inner) {tokens rest : List Token} {trees : List Tree}
    (h : group ending inner separator close tokens = .ok (trees, rest)) :
    ∃ last, last.kind.isText close = true ∧ (last :: rest) <:+ tokens := by
  obtain ⟨first, hclose, rfl, -⟩ | ⟨-, -, -, -, h⟩ := group_cases h
  · exact ⟨first, hclose, List.suffix_refl _⟩
  · exact items_consumes hinner h

/-- A list of expressions leaves an end of what it was given. -/
theorem group_suffix (hinner : Orderly inner) {tokens rest : List Token} {trees : List Tree}
    (h : group ending inner separator close tokens = .ok (trees, rest)) : rest <:+ tokens := by
  obtain ⟨last, -, hlast⟩ := group_consumes hinner h
  exact (List.suffix_cons last rest).trans hlast

/-- One round of a list without a fault behind it: the item, and what stands behind it. -/
theorem items_round {fuel : Nat} {tokens behind : List Token} {item : Option Tree} {sign : Token}
    (hne : behind ≠ [])
    (h : inner (.item separator close) none tokens = .ok (item, sign :: behind)) :
    items none inner separator close (fuel + 1) tokens =
      if sign.kind.isText close then .ok (item.toList, behind)
      else (items none inner separator close fuel behind).map
        fun r => (item.toList ++ r.1, r.2) := by
  obtain ⟨next, more, rfl⟩ := List.exists_cons_of_ne_nil hne
  rw [items, h]
  simp only [bind, Except.bind, glance, advance_none, expect]
  split
  · rfl
  · cases items none inner separator close fuel (next :: more) <;> rfl

/-- A list that is not closed at once is a list of items. -/
theorem group_of_items {first : Token} {behind rest : List Token} {trees : List Tree}
    (hclose : first.kind.isText close = false)
    (h : items none inner separator close (first :: behind).length (first :: behind)
      = .ok (trees, rest)) :
    group none inner separator close (first :: behind) = .ok (trees, rest) := by
  unfold group
  simp only [expect, bind, Except.bind, hclose]
  exact h

/-- A list that is closed at once is empty. -/
theorem group_close (first : Token) (hclose : first.kind.isText close = true) (rest : List Token) :
    group none inner separator close (first :: rest) = .ok ([], rest) := by
  unfold group
  simp only [expect, bind, Except.bind, hclose, if_true, advance_none]
  rfl

/-- Either there is no parameter list, or it is a list of expressions that are names. -/
theorem parameters_cases {tokens rest : List Token} {names : List Value}
    (h : parameters ending inner tokens = .ok (names, rest)) :
    (∃ first behind, first.kind.isText ":" = false ∧ tokens = first :: behind ∧ names = [] ∧
      rest = tokens) ∨
    ∃ colon bracket inside trees, colon.kind.isText ":" = true ∧ bracket.kind.isText "(" = true ∧
      tokens = colon :: bracket :: inside ∧
      group ending inner "," ")" inside = .ok (trees, rest) ∧
      trees.mapM parameterName = .ok names := by
  unfold parameters at h
  rw [bind_eq_ok] at h
  obtain ⟨first, hfirst, h⟩ := h
  obtain ⟨behind, rfl⟩ := glance_eq_ok hfirst
  by_cases hcolon : (!first.kind.isText ":") = true
  · rw [if_pos hcolon] at h
    injection h with h
    injection h with hnames hrest
    exact .inl ⟨first, behind, by simpa using hcolon, rfl, hnames.symm, hrest.symm⟩
  · rw [if_neg hcolon] at h
    simp only [bind_eq_ok] at h
    obtain ⟨left, hleft, second, hsecond, h⟩ := h
    obtain rfl := advance_eq_ok hleft
    obtain ⟨inside, rfl⟩ := glance_eq_ok hsecond
    by_cases hopen : (!second.kind.isText "(") = true
    · rw [if_pos hopen] at h
      obtain ⟨_, hthrow, -⟩ := h
    · rw [if_neg hopen] at h
      simp only [bind_eq_ok, Prod.exists] at h
      obtain ⟨left, hleft, trees, left', hgroup, names', hnames, h⟩ := h
      obtain rfl := advance_eq_ok hleft
      injection h with h
      injection h with hnames' hrest
      subst hnames' hrest
      exact .inr ⟨first, second, left, trees, by simpa using hcolon, by simpa using hopen, rfl,
        hgroup, hnames⟩

/-- A parameter list leaves an end of what it was given. -/
theorem parameters_suffix (hinner : Orderly inner) {tokens rest : List Token}
    {names : List Value} (h : parameters ending inner tokens = .ok (names, rest)) :
    rest <:+ tokens := by
  obtain ⟨-, -, -, -, -, rfl⟩ | ⟨colon, bracket, inside, trees, -, -, rfl, hgroup, -⟩ :=
    parameters_cases h
  · exact List.suffix_refl _
  · have hsuffix : rest <:+ inside := group_suffix hinner hgroup
    exact hsuffix.trans ((List.suffix_cons _ _).trans (List.suffix_cons _ _))

end Lists

/-! ## §4. One layer -/

section Layer

variable {ending : Option Fault} {inner : ExpressionParser}

theorem targetName_eq_ok {previous : Option Tree} {name : Value}
    (h : targetName previous = .ok name) : previous = some (.symbol name) := by
  unfold targetName at h
  split at h
  · exact nomatch h
  · injection h with h
    rw [h]
  · exact nomatch h

/-- All that can happen behind a token that has just been passed: an operator, a call, a function
    or an assignment. -/
theorem continueWith_cases {stop : Stop} {previous result : Option Tree} {t : Token}
    {tokens rest : List Token}
    (h : continueWith ending inner stop previous t tokens = .ok (result, rest)) :
    (∃ right left, t.kind.isText "operation" = true ∧ inner stop none tokens = .ok (right, left) ∧
      inner stop (some (.operation t.value previous right)) left = .ok (result, rest)) ∨
    (∃ args left, t.kind.isText "(" = true ∧ group ending inner "," ")" tokens = .ok (args, left) ∧
      inner stop (some (.call previous args)) left = .ok (result, rest)) ∨
    (∃ params left body left', t.kind.isText "\x7b" = true ∧
      parameters ending inner tokens = .ok (params, left) ∧
      group ending inner ";" "\x7d" left = .ok (body, left') ∧
      inner stop (some (.function params body)) left' = .ok (result, rest)) ∨
    (∃ name value left, t.kind.isText "=" = true ∧ previous = some (.symbol name) ∧
      inner stop none tokens = .ok (value, left) ∧
      inner stop (some (.assignment name value)) left = .ok (result, rest)) := by
  unfold continueWith at h
  split at h
  · next hkind =>
    simp only [bind_eq_ok, Prod.exists] at h
    obtain ⟨right, left, hright, h⟩ := h
    exact .inl ⟨right, left, hkind, hright, h⟩
  split at h
  · next hkind =>
    simp only [bind_eq_ok, Prod.exists] at h
    obtain ⟨args, left, hargs, h⟩ := h
    exact .inr (.inl ⟨args, left, hkind, hargs, h⟩)
  split at h
  · next hkind =>
    simp only [bind_eq_ok, Prod.exists] at h
    obtain ⟨params, left, hparams, body, left', hbody, h⟩ := h
    exact .inr (.inr (.inl ⟨params, left, body, left', hkind, hparams, hbody, h⟩))
  split at h
  · next hkind =>
    simp only [bind_eq_ok, Prod.exists] at h
    obtain ⟨name, hname, value, left, hvalue, h⟩ := h
    exact .inr (.inr (.inr ⟨name, value, left, hkind, targetName_eq_ok hname, hvalue, h⟩))
  · exact nomatch h

/-- The three kinds of tokens that are expressions by themselves, and what they are read as. -/
inductive Leaf : Token → Tree → Prop
  /-- A number. -/
  | number (v : Value) : Leaf ⟨.text "number", v⟩ (.number v)
  /-- A string. -/
  | string (v : Value) : Leaf ⟨.text "string", v⟩ (.string v)
  /-- A symbol. -/
  | symbol (v : Value) : Leaf ⟨.text "symbol", v⟩ (.symbol v)

theorem Leaf.of_leaf? {t : Token} {leaf : Tree} (h : leaf? t = some leaf) : Leaf t leaf := by
  obtain ⟨kind, value⟩ := t
  unfold leaf? at h
  split at h
  · next hkind =>
    obtain rfl : kind = .text "number" := hkind
    obtain rfl := Option.some.inj h
    exact .number value
  · next hkind =>
    obtain rfl : kind = .text "string" := hkind
    obtain rfl := Option.some.inj h
    exact .string value
  · next hkind =>
    obtain rfl : kind = .text "symbol" := hkind
    obtain rfl := Option.some.inj h
    exact .symbol value
  · cases h

/-- All that one layer can do: stop, take a token that is an expression by itself, or go on behind
    a token as its kind says. -/
theorem expressionLayer_cases {stop : Stop} {previous result : Option Tree}
    {tokens rest : List Token}
    (h : expressionLayer ending inner stop previous tokens = .ok (result, rest)) :
    ∃ t behind, tokens = t :: behind ∧
      ((stop.endsAt t.kind = .ok true ∧ result = previous ∧ rest = tokens) ∨
        (stop.endsAt t.kind = .ok false ∧
          ((∃ leaf, previous = none ∧ leaf? t = some leaf ∧
              inner stop (some leaf) behind = .ok (result, rest)) ∨
            ((previous = none → leaf? t = none) ∧
              continueWith ending inner stop previous t behind = .ok (result, rest))))) := by
  unfold expressionLayer at h
  simp only [bind_eq_ok] at h
  obtain ⟨t, ht, ends, hends, h⟩ := h
  obtain ⟨behind, rfl⟩ := expect_eq_ok ht
  refine ⟨t, behind, rfl, ?_⟩
  cases ends with
  | true =>
    injection h with h
    injection h with hresult hrest
    exact .inl ⟨hends, hresult.symm, hrest.symm⟩
  | false =>
    refine .inr ⟨hends, ?_⟩
    simp only [Bool.false_eq_true, if_false, bind_eq_ok] at h
    obtain ⟨left, hleft, h⟩ := h
    obtain rfl := advance_eq_ok hleft
    split at h
    · next leaf hleaf => exact .inl ⟨leaf, rfl, hleaf, h⟩
    · next hleaf =>
      refine .inr ⟨fun hnone => ?_, h⟩
      cases hleaf' : leaf? t with
      | none => rfl
      | some leaf => exact (hleaf leaf hnone hleaf').elim

/-- In front of a token that ends the expression, what has been read is the result. -/
theorem layer_stop {stop : Stop} {t : Token} (h : stop.endsAt t.kind = .ok true)
    (previous : Option Tree) (rest : List Token) :
    expressionLayer ending inner stop previous (t :: rest) = .ok (previous, t :: rest) := by
  simp [expressionLayer, expect, h, bind, Except.bind, pure, Except.pure]

/-- A token that is an expression by itself becomes what has been read. -/
theorem layer_leaf {stop : Stop} {t : Token} {leaf : Tree} (h : stop.endsAt t.kind = .ok false)
    (hleaf : leaf? t = some leaf) (rest : List Token) :
    expressionLayer none inner stop none (t :: rest) = inner stop (some leaf) rest := by
  simp [expressionLayer, expect, h, hleaf, advance_none, bind, Except.bind]

/-- Any other token decides by its kind how to go on. -/
theorem layer_continue {stop : Stop} {t : Token} {previous : Option Tree}
    (h : stop.endsAt t.kind = .ok false) (hleaf : previous = none → leaf? t = none)
    (rest : List Token) :
    expressionLayer none inner stop previous (t :: rest)
      = continueWith none inner stop previous t rest := by
  cases previous with
  | none => simp [expressionLayer, expect, h, hleaf, advance_none, bind, Except.bind]
  | some tree => simp [expressionLayer, expect, h, advance_none, bind, Except.bind]

/-- Behind a token that is passed, the parser for everything deeper has the last word. -/
theorem expressionLayer_last (hinner : Orderly inner) {stop : Stop}
    {previous result : Option Tree} {tokens rest : List Token}
    (h : expressionLayer ending inner stop previous tokens = .ok (result, rest)) :
    ∃ t behind, tokens = t :: behind ∧
      ((stop.endsAt t.kind = .ok true ∧ result = previous ∧ rest = tokens) ∨
        (stop.endsAt t.kind = .ok false ∧
          ∃ tree left, left <:+ behind ∧ inner stop (some tree) left = .ok (result, rest))) := by
  obtain ⟨t, behind, htokens, hstop | ⟨hends, ⟨leaf, -, -, h⟩ | ⟨-, h⟩⟩⟩ :=
    expressionLayer_cases h
  · exact ⟨t, behind, htokens, .inl hstop⟩
  · exact ⟨t, behind, htokens, .inr ⟨hends, leaf, behind, List.suffix_refl _, h⟩⟩
  refine ⟨t, behind, htokens, .inr ⟨hends, ?_⟩⟩
  obtain ⟨right, left, -, hright, h⟩ | ⟨args, left, -, hargs, h⟩ |
    ⟨params, left, body, left', -, hparams, hbody, h⟩ | ⟨name, value, left, -, -, hvalue, h⟩ :=
    continueWith_cases h
  · exact ⟨_, left, hinner.suffix hright, h⟩
  · exact ⟨_, left, group_suffix hinner hargs, h⟩
  · exact ⟨_, left', (group_suffix hinner hbody).trans (parameters_suffix hinner hparams), h⟩
  · exact ⟨_, left, hinner.suffix hvalue, h⟩

/-- A layer over an orderly parser is orderly. -/
theorem expressionLayer_orderly (hinner : Orderly inner) :
    Orderly (expressionLayer ending inner) where
  suffix h := by
    obtain ⟨t, behind, rfl, ⟨-, -, rfl⟩ | ⟨-, tree, left, hleft, h⟩⟩ :=
      expressionLayer_last hinner h
    · exact List.suffix_refl _
    · exact ((hinner.suffix h).trans hleft).trans (List.suffix_cons _ _)
  stops h := by
    obtain ⟨t, behind, rfl, ⟨hends, -, rfl⟩ | ⟨-, tree, left, -, h⟩⟩ :=
      expressionLayer_last hinner h
    · exact ⟨t, behind, rfl, hends⟩
    · exact hinner.stops h
  stays hends h := by
    obtain ⟨t, behind, htokens, ⟨-, hresult, hrest⟩ | ⟨hgoes, -⟩⟩ :=
      expressionLayer_last hinner h
    · exact ⟨hresult, hrest⟩
    · injection htokens with ht _
      subst ht
      rw [hends] at hgoes
      exact nomatch hgoes

end Layer

/-- **However many layers it has, the parser is orderly.** -/
theorem expression_orderly (ending : Option Fault) :
    ∀ depth : Nat, Orderly (expression ending depth) := by
  intro depth
  induction depth with
  | zero => exact orderly_of_error fun _ _ _ => rfl
  | succ depth ih => exact expressionLayer_orderly ih

end Scrawl.Grammar
