/-
  Scrawl.Proofs.Grammar.Depth — the parser without a limit on its depth.

  Every layer of the parser passes a token before it calls the next one, so a parser of more layers
  than there are tokens never runs out of them.  `fullExpression` is the parser with as many layers
  as its tokens can need.  It satisfies the equation of the parser without any bound
  (`fullExpression_eq_layer`), and every parser that is deep enough agrees with it
  (`expression_eq_full`).  One that is not either agrees with it all the same, or ends with the fault
  that says so (`expression_approximates`).
-/

import Scrawl.Proofs.Grammar.Progress

namespace Scrawl.Grammar

/-! ## §1. Parsers that agree on short inputs -/

/-- Two sequences of computations with the same start agree if they go on alike where it
    succeeds. -/
theorem bind_congr_ok {ε α β : Type} {x : Except ε α} {k k' : α → Except ε β}
    (h : ∀ a, x = .ok a → k a = k' a) : (x >>= k) = (x >>= k') := by
  cases x with
  | error e => rfl
  | ok a => exact h a rfl

/-- Two parsers do the same with fewer than `n` tokens. -/
def AgreeBelow (n : Nat) (p q : ExpressionParser) : Prop :=
  ∀ (stop : Stop) (previous : Option Tree) (tokens : List Token), tokens.length < n →
    p stop previous tokens = q stop previous tokens

section Congruence

variable {ending : Option Fault} {p q : ExpressionParser} {n : Nat}

theorem items_congr (hp : Orderly p) (h : AgreeBelow n p q) {separator close : String} :
    ∀ (fuel : Nat) (tokens : List Token), tokens.length < n →
      items ending p separator close fuel tokens = items ending q separator close fuel tokens := by
  intro fuel
  induction fuel with
  | zero => intro tokens _; rfl
  | succ fuel ih =>
    intro tokens hn
    unfold items
    rw [← h _ _ _ hn]
    refine bind_congr_ok ?_
    rintro ⟨item, left⟩ hitem
    have hleft : left.length ≤ tokens.length := (hp.suffix hitem).length_le
    refine bind_congr_ok fun stop hstop => ?_
    obtain ⟨behind, rfl⟩ := glance_eq_ok hstop
    refine bind_congr_ok fun behind' hbehind => ?_
    obtain rfl := advance_eq_ok hbehind
    refine bind_congr_ok fun _ _ => ?_
    have hbehind' : behind'.length < n := by
      simp only [List.length_cons] at hleft
      omega
    rw [ih behind' hbehind']

theorem group_congr (hp : Orderly p) (h : AgreeBelow n p q) {separator close : String}
    (tokens : List Token) (hn : tokens.length < n) :
    group ending p separator close tokens = group ending q separator close tokens := by
  unfold group
  refine bind_congr_ok fun first _ => ?_
  rw [items_congr hp h _ tokens hn]

theorem parameters_congr (hp : Orderly p) (h : AgreeBelow n p q) (tokens : List Token)
    (hn : tokens.length < n) : parameters ending p tokens = parameters ending q tokens := by
  unfold parameters
  refine bind_congr_ok fun first hfirst => ?_
  obtain ⟨behind, rfl⟩ := glance_eq_ok hfirst
  split
  · rfl
  refine bind_congr_ok fun left hleft => ?_
  obtain rfl := advance_eq_ok hleft
  refine bind_congr_ok fun second hsecond => ?_
  obtain ⟨inside, rfl⟩ := glance_eq_ok hsecond
  split
  · rfl
  refine bind_congr_ok fun left hleft => ?_
  obtain rfl := advance_eq_ok hleft
  have hleft : left.length < n := by
    simp only [List.length_cons] at hn
    omega
  rw [group_congr hp h left hleft]

theorem continueWith_congr (hp : Orderly p) (h : AgreeBelow n p q) (stop : Stop)
    (previous : Option Tree) (t : Token) (tokens : List Token) (hn : tokens.length < n) :
    continueWith ending p stop previous t tokens
      = continueWith ending q stop previous t tokens := by
  -- whatever is read first leaves an end of the tokens, which is no longer than they are
  have hshort : ∀ left : List Token, left <:+ tokens → left.length < n := by
    intro left hleft
    exact Nat.lt_of_le_of_lt hleft.length_le hn
  unfold continueWith
  split
  · rw [← h _ _ _ hn]
    refine bind_congr_ok ?_
    rintro ⟨right, left⟩ hright
    exact h _ _ _ (hshort left (hp.suffix hright))
  split
  · rw [← group_congr hp h tokens hn]
    refine bind_congr_ok ?_
    rintro ⟨args, left⟩ hargs
    exact h _ _ _ (hshort left (group_suffix hp hargs))
  split
  · rw [← parameters_congr hp h tokens hn]
    refine bind_congr_ok ?_
    rintro ⟨params, left⟩ hparams
    have hleft : left <:+ tokens := parameters_suffix hp hparams
    show (group ending p _ _ left >>= _) = (group ending q _ _ left >>= _)
    rw [← group_congr hp h left (hshort left hleft)]
    refine bind_congr_ok ?_
    rintro ⟨body, left'⟩ hbody
    exact h _ _ _ (hshort left' ((group_suffix hp hbody).trans hleft))
  split
  · refine bind_congr_ok fun name _ => ?_
    rw [← h _ _ _ hn]
    refine bind_congr_ok ?_
    rintro ⟨value, left⟩ hvalue
    exact h _ _ _ (hshort left (hp.suffix hvalue))
  · rfl

/-- A layer passes a token first, so it only needs its parsers to agree on what is shorter. -/
theorem expressionLayer_congr (hp : Orderly p) (h : AgreeBelow n p q) (stop : Stop)
    (previous : Option Tree) (tokens : List Token) (hn : tokens.length ≤ n) :
    expressionLayer ending p stop previous tokens
      = expressionLayer ending q stop previous tokens := by
  unfold expressionLayer
  refine bind_congr_ok fun t ht => ?_
  obtain ⟨behind, rfl⟩ := expect_eq_ok ht
  refine bind_congr_ok fun ends _ => ?_
  split
  · rfl
  refine bind_congr_ok fun left hleft => ?_
  obtain rfl := advance_eq_ok hleft
  have hleft : left.length < n := by
    simp only [List.length_cons] at hn
    omega
  split
  · exact h _ _ _ hleft
  · exact continueWith_congr hp h stop _ t left hleft

end Congruence

/-! ## §2. Enough layers -/

/-- Beyond the number of tokens, more layers change nothing. -/
theorem expression_depth_irrelevant (ending : Option Fault) :
    ∀ depth depth' : Nat, depth ≤ depth' →
      AgreeBelow depth (expression ending depth) (expression ending depth') := by
  intro depth
  induction depth with
  | zero => intro depth' _ stop previous tokens h; omega
  | succ depth ih =>
    intro depth' hle stop previous tokens hn
    cases depth' with
    | zero => omega
    | succ depth' =>
      show expressionLayer ending (expression ending depth) stop previous tokens
        = expressionLayer ending (expression ending depth') stop previous tokens
      exact expressionLayer_congr (expression_orderly ending depth) (ih depth' (by omega)) stop
        previous tokens (by omega)

/-- The parser with as many layers as its tokens can need. -/
def fullExpression (ending : Option Fault) : ExpressionParser :=
  fun stop previous tokens => expression ending (tokens.length + 1) stop previous tokens

/-- **A parser with more layers than there are tokens is the parser without a limit.** -/
theorem expression_eq_full (ending : Option Fault) {depth : Nat} {tokens : List Token}
    (h : tokens.length < depth) (stop : Stop) (previous : Option Tree) :
    expression ending depth stop previous tokens
      = fullExpression ending stop previous tokens :=
  (expression_depth_irrelevant ending (tokens.length + 1) depth h stop previous tokens
    (Nat.lt_succ_self _)).symm

/-- **The parser without a limit is a layer over itself.** -/
theorem fullExpression_eq_layer (ending : Option Fault) (stop : Stop) (previous : Option Tree)
    (tokens : List Token) :
    fullExpression ending stop previous tokens
      = expressionLayer ending (fullExpression ending) stop previous tokens := by
  show expressionLayer ending (expression ending tokens.length) stop previous tokens = _
  refine expressionLayer_congr (expression_orderly ending tokens.length) ?_ stop previous tokens
    (Nat.le_refl _)
  intro stop' previous' tokens' h
  exact expression_eq_full ending h stop' previous'

/-- The parser without a limit is orderly. -/
theorem fullExpression_orderly (ending : Option Fault) : Orderly (fullExpression ending) where
  suffix h := (expression_orderly ending _).suffix h
  stops h := (expression_orderly ending _).stops h
  stays hends h := (expression_orderly ending _).stays hends h

/-! ## §3. Too few layers -/

/-- A result is that of another computation, unless the nesting is too deep for it. -/
def UnlessTooDeep {α : Type} (x y : Except Fault α) : Prop := x = .error .tooDeep ∨ x = y

theorem UnlessTooDeep.bind {α β : Type} {x y : Except Fault α} {k k' : α → Except Fault β}
    (h : UnlessTooDeep x y) (hk : ∀ a, UnlessTooDeep (k a) (k' a)) :
    UnlessTooDeep (x >>= k) (y >>= k') := by
  rcases h with rfl | rfl
  · exact .inl rfl
  · cases x with
    | error f => exact .inr rfl
    | ok a => exact hk a

/-- Two sequences of computations with the same start, which go on alike unless the nesting is too
    deep. -/
theorem UnlessTooDeep.after {α β : Type} (x : Except Fault α) {k k' : α → Except Fault β}
    (hk : ∀ a, UnlessTooDeep (k a) (k' a)) : UnlessTooDeep (x >>= k) (x >>= k') :=
  .bind (.inr rfl) hk

/-- A parser does what another one does, unless the nesting is too deep for it. -/
def Approximates (p q : ExpressionParser) : Prop :=
  ∀ stop previous tokens, UnlessTooDeep (p stop previous tokens) (q stop previous tokens)

section Approximation

variable (ending : Option Fault) {p q : ExpressionParser} (h : Approximates p q)
include h

theorem items_approximates (separator close : String) :
    ∀ (fuel : Nat) (tokens : List Token), UnlessTooDeep
      (items ending p separator close fuel tokens) (items ending q separator close fuel tokens) := by
  intro fuel
  induction fuel with
  | zero => intro tokens; exact .inl rfl
  | succ fuel ih =>
    intro tokens
    unfold items
    refine (h _ _ _).bind fun read => .after _ fun stop => .after _ fun behind =>
      .after _ fun next => ?_
    split
    · exact .inr rfl
    · exact (ih behind).bind fun found => .inr rfl

theorem group_approximates (separator close : String) (tokens : List Token) : UnlessTooDeep
    (group ending p separator close tokens) (group ending q separator close tokens) := by
  unfold group
  refine .after _ fun first => ?_
  split
  · exact .inr rfl
  · exact items_approximates ending h separator close _ tokens

theorem parameters_approximates (tokens : List Token) : UnlessTooDeep
    (parameters ending p tokens) (parameters ending q tokens) := by
  unfold parameters
  refine .after _ fun first => ?_
  split
  · exact .inr rfl
  refine .after _ fun behind => .after _ fun second => ?_
  split
  · exact .inr rfl
  · exact .after _ fun inside => (group_approximates ending h "," ")" inside).bind fun found => .inr rfl

theorem continueWith_approximates (stop : Stop) (previous : Option Tree) (t : Token)
    (tokens : List Token) : UnlessTooDeep (continueWith ending p stop previous t tokens)
      (continueWith ending q stop previous t tokens) := by
  unfold continueWith
  split
  · exact (h _ _ _).bind fun read => h _ _ _
  split
  · exact (group_approximates ending h _ _ _).bind fun read => h _ _ _
  split
  · exact (parameters_approximates ending h _).bind fun params =>
      (group_approximates ending h _ _ _).bind fun body => h _ _ _
  split
  · exact .after _ fun name => (h _ _ _).bind fun read => h _ _ _
  · exact .inr rfl

theorem expressionLayer_approximates :
    Approximates (expressionLayer ending p) (expressionLayer ending q) := by
  intro stop previous tokens
  unfold expressionLayer
  refine .after _ fun t => .after _ fun ends => ?_
  split
  · exact .inr rfl
  refine .after _ fun left => ?_
  split
  · exact h _ _ _
  · exact continueWith_approximates ending h stop _ t left

end Approximation

/-- **With too few layers the parser says so, or it reads what the parser without a limit reads.** -/
theorem expression_approximates (ending : Option Fault) :
    ∀ depth : Nat, Approximates (expression ending depth) (fullExpression ending) := by
  intro depth
  induction depth with
  | zero => intro stop previous tokens; exact .inl rfl
  | succ depth ih =>
    intro stop previous tokens
    rw [fullExpression_eq_layer]
    exact expressionLayer_approximates ending ih stop previous tokens

end Scrawl.Grammar
