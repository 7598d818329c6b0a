/-
  Scrawl.Proofs.Grammar.Carrying — an expression is read alike wherever it stands.

  Tokens CARRY the parser from what has been read so far to what has been read behind them: up to the end
  of an expression of any kind, and if that is an operand then in front of anything else too.  Each
  construct of the language has a lemma that builds on those of its parts.  What the parser reads in one
  place is carried to any other (`reader_carries`), since the tokens of an expression end no other kind
  of expression.
-/

import Scrawl.Proofs.Grammar.RoundTrip
import Scrawl.Proofs.Value.Tags

namespace Scrawl.Grammar

/-! ## §1. From what has been read to what is read next -/

/-- Whether a tree can stand to the left of an operator or of a bracket. -/
def Tree.isOperand : Tree → Bool
  | .operation .. | .assignment .. => false
  | .number _ | .string _ | .symbol _ | .call .. | .function .. => true

/-- Tokens carry the parser from what has been read so far to what has been read behind them. -/
structure Carries (previous : Option Tree) (tokens : List Token) (result : Option Tree) : Prop where
  /-- In front of an end of the expression that is the result. -/
  ends : ∀ {stop : Stop} {rest : List Token}, stop.Used → EndsHere stop rest →
    reader stop previous (tokens ++ rest) = .ok (result, rest)
  /-- An operand can be followed by anything. -/
  goesOn : (∀ t ∈ result, t.isOperand = true) → ∀ {stop : Stop} {rest : List Token}, stop.Used →
    rest ≠ [] → reader stop previous (tokens ++ rest) = reader stop result rest

/-- Tokens are the items of a list and what closes it. -/
def GroupCarries (separator close : String) (tokens : List Token) (trees : List Tree) : Prop :=
  ∀ rest : List Token, rest ≠ [] →
    group none reader separator close (tokens ++ rest) = .ok (trees, rest)

/-- Tokens are the parameter list, if there is one, of a function whose body starts with a given token. -/
def ParametersCarry (tokens : List Token) (names : List Value) (next : Token) : Prop :=
  ∀ rest : List Token, parameters none reader (tokens ++ next :: rest) = .ok (names, next :: rest)

theorem EndsHere.ne_nil {stop : Stop} {rest : List Token} (h : EndsHere stop rest) : rest ≠ [] := by
  obtain ⟨t, more, rfl, -⟩ := h
  exact List.cons_ne_nil t more

theorem goes_of_leaf {stop : Stop} (hstop : stop.Used) {t : Token} {leaf : Tree}
    (h : leaf? t = some leaf) : stop.endsAt t.kind = .ok false := by
  cases Leaf.of_leaf? h <;> exact hstop.goes (by decide)

/-- A bracket, a brace or an equals sign in an expression decides how to go on. -/
theorem reader_of_kind {stop : Stop} (hstop : stop.Used) {t : Token} {kind : String}
    (ht : t.kind.isText kind = true) (hkind : kind ∈ ["(", "\x7b", "="]) (previous : Option Tree)
    (rest : List Token) :
    reader stop previous (t :: rest) = continueWith none reader stop previous t rest := by
  obtain ⟨_, value⟩ := t
  obtain rfl := Value.eq_of_isText ht
  simp only [List.mem_cons, List.not_mem_nil, or_false] at hkind
  rcases hkind with rfl | rfl | rfl <;> exact reader_sign (hstop.goes (by decide)) rfl previous rest

namespace Carries

variable {previous mid result : Option Tree} {tokens more : List Token} {t : Token}

/-- No tokens. -/
theorem nil (previous : Option Tree) : Carries previous [] previous where
  ends _ hrest := reader_endsHere hrest previous
  goesOn _ := fun _ _ => rfl

/-- Tokens that always lead to a place from which others go on. -/
theorem of_reader (hread : ∀ {stop : Stop} {rest : List Token}, stop.Used → rest ≠ [] →
      reader stop previous (tokens ++ rest) = reader stop mid (more ++ rest))
    (h : Carries mid more result) : Carries previous tokens result where
  ends hstop hrest := by rw [hread hstop hrest.ne_nil, h.ends hstop hrest]
  goesOn hresult := fun hstop hrest => by rw [hread hstop hrest, h.goesOn hresult hstop hrest]

/-- An operand, and what follows it. -/
theorem trans (h : Carries previous tokens mid) (hmid : ∀ t ∈ mid, t.isOperand = true)
    (h' : Carries mid more result) : Carries previous (tokens ++ more) result := by
  refine of_reader (fun hstop hrest => ?_) h'
  rw [List.append_assoc, h.goesOn hmid hstop (by simp [hrest])]

/-- A token that is an expression by itself, and what follows it. -/
theorem leaf {leaf : Tree} (hleaf : leaf? t = some leaf) (h : Carries (some leaf) tokens result) :
    Carries none (t :: tokens) result := by
  refine of_reader (fun hstop _ => ?_) h
  rw [List.cons_append, reader_leaf (goes_of_leaf hstop hleaf) hleaf]

/-- An operator, and all that is to its right. -/
theorem operation (ht : t.kind.isText "operation" = true) (h : Carries none tokens result) :
    Carries previous (t :: tokens) (some (.operation t.value previous result)) where
  ends hstop hrest := by
    obtain ⟨kind, value⟩ := t
    obtain rfl := Value.eq_of_isText ht
    rw [List.cons_append, reader_operation hstop, h.ends hstop hrest]
    exact reader_endsHere hrest _
  goesOn hresult := absurd (hresult _ rfl) Bool.false_ne_true

/-- An equals sign behind a symbol, and all that is to its right. -/
theorem assignment {name : Value} (ht : t.kind.isText "=" = true) (h : Carries none tokens result) :
    Carries (some (.symbol name)) (t :: tokens) (some (.assignment name result)) where
  ends hstop hrest := by
    rw [List.cons_append, reader_of_kind hstop ht (by decide)]
    unfold continueWith
    rw [Value.eq_of_isText ht, if_neg (by decide), if_neg (by decide), if_neg (by decide),
      if_pos (by decide)]
    show (reader _ none _ >>= _) = _
    rw [h.ends hstop hrest]
    exact reader_endsHere hrest _
  goesOn hresult := absurd (hresult _ rfl) Bool.false_ne_true

/-- The arguments of a call in their brackets, and what follows them. -/
theorem call {args : List Tree} {inside : List Token} (ht : t.kind.isText "(" = true)
    (hargs : GroupCarries "," ")" inside args) (h : Carries (some (.call previous args)) tokens result) :
    Carries previous (t :: (inside ++ tokens)) result := by
  refine of_reader (fun {stop rest} hstop hrest => ?_) h
  have hne : tokens ++ rest ≠ [] := by simp [hrest]
  rw [List.cons_append, List.append_assoc, reader_of_kind hstop ht (by decide)]
  unfold continueWith
  rw [Value.eq_of_isText ht, if_neg (by decide), if_pos (by decide), hargs _ hne]
  rfl

/-- The parameters and the body of a function in its braces, and what follows them. -/
theorem function {params : List Value} {body : List Tree} {head inside : List Token} {next : Token}
    (ht : t.kind.isText "\x7b" = true) (hparams : ParametersCarry head params next)
    (hbody : GroupCarries ";" "\x7d" (next :: inside) body)
    (h : Carries (some (.function params body)) tokens result) :
    Carries previous (t :: (head ++ (next :: inside ++ tokens))) result := by
  refine of_reader (fun {stop rest} hstop hrest => ?_) h
  have hne : tokens ++ rest ≠ [] := by simp [hrest]
  have htokens : t :: (head ++ (next :: inside ++ tokens)) ++ rest
      = t :: (head ++ next :: (inside ++ (tokens ++ rest))) := by simp
  rw [htokens, reader_of_kind hstop ht (by decide)]
  unfold continueWith
  rw [Value.eq_of_isText ht, if_neg (by decide), if_neg (by decide), if_pos (by decide), hparams]
  show (group none reader ";" "\x7d" (next :: inside ++ (tokens ++ rest)) >>= _) = _
  rw [hbody _ hne]
  rfl

end Carries

/-! ## §2. Lists -/

/-- Tokens are items of a list, up to what closes it. -/
def ItemsCarry (separator close : String) (tokens : List Token) (trees : List Tree) : Prop :=
  ∀ (rest : List Token) (fuel : Nat), rest ≠ [] → tokens.length ≤ fuel →
    items none reader separator close fuel (tokens ++ rest) = .ok (trees, rest)

section Lists

variable {separator close : String} (hused : (Stop.item separator close).Used) {item : Option Tree}
  {tokens more : List Token} {t : Token} {trees : List Tree}
include hused

/-- The last item and what closes the list. -/
theorem ItemsCarry.last (h : Carries none tokens item) (ht : t.kind.isText close = true) :
    ItemsCarry separator close (tokens ++ [t]) item.toList := by
  intro rest fuel hrest hfuel
  obtain ⟨fuel, rfl⟩ : ∃ k, fuel = k + 1 := ⟨fuel - 1, by simp at hfuel; omega⟩
  have hends : EndsHere (.item separator close) (t :: rest) :=
    ⟨t, rest, rfl, by simp [Stop.endsAt, ht]⟩
  rw [List.append_assoc, List.singleton_append, items_round hrest (h.ends hused hends), if_pos ht]

/-- An item, what separates it from the next one, and the other items. -/
theorem ItemsCarry.cons (h : Carries none tokens item)
    (hends : (Stop.item separator close).endsAt t.kind = .ok true)
    (ht : t.kind.isText close = false) (hmore : ItemsCarry separator close more trees) :
    ItemsCarry separator close (tokens ++ t :: more) (item.toList ++ trees) := by
  intro rest fuel hrest hfuel
  obtain ⟨fuel, rfl⟩ : ∃ k, fuel = k + 1 := ⟨fuel - 1, by simp at hfuel; omega⟩
  have hends' : EndsHere (.item separator close) (t :: (more ++ rest)) := ⟨t, _, rfl, hends⟩
  have hne : more ++ rest ≠ [] := by simp [hrest]
  have hlength : more.length ≤ fuel := by
    simp only [List.length_append, List.length_cons] at hfuel
    omega
  rw [List.append_assoc, List.cons_append, items_round hne (h.ends hused hends'), ht,
    if_neg Bool.false_ne_true, hmore rest fuel hrest hlength]
  rfl

omit hused in
/-- A list of items is a list, also if it is closed at once. -/
theorem ItemsCarry.group (h : ItemsCarry separator close tokens trees) (hne : tokens ≠ []) :
    GroupCarries separator close tokens trees := by
  intro rest hrest
  obtain ⟨first, behind, rfl⟩ := List.exists_cons_of_ne_nil hne
  have hitems := h rest (first :: behind ++ rest).length hrest (by simp)
  rw [List.cons_append] at hitems ⊢
  cases hclose : first.kind.isText close with
  | false => exact group_of_items hclose hitems
  | true =>
    -- nothing is read of the first item, so the list is empty as well
    have hends : (Stop.item separator close).endsAt first.kind = .ok true := by
      simp [Stop.endsAt, hclose]
    have hbehind : behind ++ rest ≠ [] := by simp [hrest]
    rw [List.length_cons, items_round hbehind (reader_stop hends none _), if_pos hclose] at hitems
    rw [group_close first hclose]
    exact hitems

end Lists

/-- A list in brackets, as a parameter list. -/
theorem parametersCarry_list {colon bracket next : Token} {inside : List Token} {trees : List Tree}
    {names : List Value} (hcolon : colon.kind.isText ":" = true)
    (hbracket : bracket.kind.isText "(" = true) (hgroup : GroupCarries "," ")" inside trees)
    (hnames : trees.mapM parameterName = .ok names) :
    ParametersCarry (colon :: bracket :: inside) names next := by
  intro rest
  simp only [parameters, List.cons_append, glance, bind, Except.bind, hcolon, hbracket, advance_none,
    hgroup _ (List.cons_ne_nil next rest), hnames]
  rfl

/-- Where there is no colon there is no parameter list. -/
theorem parametersCarry_nil {next : Token} (h : next.kind.isText ":" = false) :
    ParametersCarry [] [] next := by
  intro rest
  show parameters none reader (parameterTokens [] ++ next :: rest) = _
  exact parameters_parameterTokens h

/-! ## §3. What has been read is carried elsewhere -/

/-- What a parser reads in one place is carried to any other. -/
def Carrying (p : ExpressionParser) : Prop :=
  ∀ {stop : Stop} {previous result : Option Tree} {tokens rest : List Token}, stop.Used →
    p stop previous (tokens ++ rest) = .ok (result, rest) → Carries previous tokens result

/-- What is left over of tokens splits them. -/
theorem exists_front {left rest tokens : List Token} (hleft : left <:+ tokens ++ rest)
    (hrest : rest <:+ left) :
    ∃ front back, left = back ++ rest ∧ tokens = front ++ back := by
  obtain ⟨back, rfl⟩ := hrest
  obtain ⟨front, hfront⟩ := hleft
  refine ⟨front, back, rfl, ?_⟩
  rw [← List.append_assoc] at hfront
  exact (List.append_cancel_right hfront).symm

section Layer

variable {inner : ExpressionParser} (horderly : Orderly inner) (hinner : Carrying inner)
include horderly hinner

theorem items_carry {separator close : String} (hused : (Stop.item separator close).Used) :
    ∀ {fuel : Nat} {tokens rest : List Token} {trees : List Tree},
      items none inner separator close fuel (tokens ++ rest) = .ok (trees, rest) →
        ItemsCarry separator close tokens trees ∧ tokens ≠ [] := by
  intro fuel
  induction fuel with
  | zero => intro tokens rest trees h; cases h
  | succ fuel ih =>
    intro tokens rest trees h
    obtain ⟨item, stop, behind, hitem, -, hend⟩ := items_succ_eq_ok h
    have hsuffix := horderly.suffix hitem
    obtain ⟨u, others, hsame, hends⟩ := horderly.stops hitem
    obtain ⟨rfl, rfl⟩ := List.cons.inj hsame
    obtain ⟨hclose, rfl, rfl⟩ | ⟨hclose, others, hothers, rfl⟩ := hend
    · obtain ⟨front, back, hback, rfl⟩ := exists_front hsuffix (List.suffix_cons _ _)
      obtain rfl : back = [stop] := List.append_cancel_right (hback.symm.trans rfl)
      rw [List.append_assoc] at hitem
      exact ⟨ItemsCarry.last hused (hinner hused hitem) hclose, by simp⟩
    · obtain ⟨last, -, hlast⟩ := items_consumes horderly hothers
      obtain ⟨more, rfl⟩ := (List.suffix_cons _ _).trans hlast
      obtain ⟨front, back, hback, rfl⟩ :=
        exists_front hsuffix ((List.suffix_append more rest).trans (List.suffix_cons _ _))
      obtain rfl : back = stop :: more := List.append_cancel_right (hback.symm.trans rfl)
      rw [List.append_assoc] at hitem
      exact ⟨ItemsCarry.cons hused (hinner hused hitem) hends hclose (ih hothers).1, by simp⟩

theorem group_carries {separator close : String} (hused : (Stop.item separator close).Used)
    {tokens rest : List Token} {trees : List Tree}
    (h : group none inner separator close (tokens ++ rest) = .ok (trees, rest)) :
    GroupCarries separator close tokens trees ∧ tokens ≠ [] := by
  obtain ⟨first, hclose, htokens, rfl⟩ | ⟨-, -, -, -, hitems⟩ := group_cases h
  · obtain rfl : tokens = [first] := List.append_cancel_right htokens
    exact ⟨fun rest _ => group_close first hclose rest, by simp⟩
  · obtain ⟨hcarry, hne⟩ := items_carry horderly hinner hused hitems
    exact ⟨hcarry.group hne, hne⟩

theorem parameters_carry {tokens rest : List Token} {next : Token} {names : List Value}
    (h : parameters none inner (tokens ++ next :: rest) = .ok (names, next :: rest)) :
    ParametersCarry tokens names next := by
  obtain ⟨first, behind, hcolon, htokens, rfl, hrest⟩ |
    ⟨colon, bracket, inside, trees, hcolon, hbracket, htokens, hgroup, hnames⟩ := parameters_cases h
  · obtain rfl : tokens = [] := List.append_left_eq_self.1 hrest.symm
    obtain ⟨rfl, rfl⟩ := List.cons.inj htokens
    exact parametersCarry_nil hcolon
  · obtain ⟨front, back, hback, rfl⟩ : ∃ front back, inside = back ++ next :: rest ∧
        tokens = front ++ back :=
      exists_front (by rw [htokens]; exact ⟨[colon, bracket], rfl⟩) (group_suffix horderly hgroup)
    subst hback
    obtain rfl : front = [colon, bracket] := by
      rw [List.append_assoc] at htokens
      exact List.append_cancel_right htokens
    exact parametersCarry_list hcolon hbracket
      (group_carries horderly hinner .argument hgroup).1 hnames

theorem continueWith_carries {stop : Stop} (hstop : stop.Used) {previous result : Option Tree}
    {t : Token} {tokens rest : List Token}
    (h : continueWith none inner stop previous t (tokens ++ rest) = .ok (result, rest)) :
    Carries previous (t :: tokens) result := by
  obtain ⟨right, left, hkind, hright, hlast⟩ | ⟨args, left, hkind, hargs, hlast⟩ |
    ⟨params, left, body, left', hkind, hparams, hbody, hlast⟩ |
    ⟨name, value, left, hkind, rfl, hvalue, hlast⟩ := continueWith_cases h
  · -- all that is to the right of an operator has been read, up to the end of the expression
    obtain ⟨u, more, rfl, hends⟩ := horderly.stops hright
    obtain ⟨rfl, rfl⟩ := horderly.stays hends hlast
    exact .operation hkind (hinner hstop hright)
  · obtain ⟨inside, more, rfl, rfl⟩ :=
      exists_front (group_suffix horderly hargs) (horderly.suffix hlast)
    rw [List.append_assoc] at hargs
    exact .call hkind (group_carries horderly hinner .argument hargs).1 (hinner hstop hlast)
  · obtain ⟨more, rfl⟩ := horderly.suffix hlast
    obtain ⟨inside, rfl⟩ := group_suffix horderly hbody
    obtain ⟨hbody', hne⟩ := group_carries horderly hinner .body hbody
    obtain ⟨next, behind, rfl⟩ := List.exists_cons_of_ne_nil hne
    obtain ⟨head, back, hback, rfl⟩ := exists_front (parameters_suffix horderly hparams)
      ((List.suffix_append more rest).trans (List.suffix_append _ _))
    obtain rfl : back = next :: behind ++ more := by
      rw [← List.append_assoc] at hback
      exact (List.append_cancel_right hback).symm
    rw [List.append_assoc, List.append_assoc] at hparams
    exact .function hkind (parameters_carry horderly hinner hparams) hbody' (hinner hstop hlast)
  · obtain ⟨u, more, rfl, hends⟩ := horderly.stops hvalue
    obtain ⟨rfl, rfl⟩ := horderly.stays hends hlast
    exact .assignment hkind (hinner hstop hvalue)

theorem expressionLayer_carrying : Carrying (expressionLayer none inner) := by
  intro stop previous result tokens rest hstop h
  obtain ⟨t, behind, htokens, ⟨-, rfl, hrest⟩ | ⟨hends, hread⟩⟩ := expressionLayer_cases h
  · obtain rfl : tokens = [] := List.append_left_eq_self.1 hrest.symm
    exact .nil _
  -- the token has been passed, so what is left is left of what is behind it
  obtain ⟨more, rfl⟩ : rest <:+ behind := by
    obtain ⟨u, others, hsame, ⟨hends', -⟩ | ⟨-, tree, left, hleft, hlast⟩⟩ :=
      expressionLayer_last horderly h
    · rw [htokens] at hsame
      obtain ⟨rfl, rfl⟩ := List.cons.inj hsame
      rw [hends] at hends'
      cases hends'
    · rw [htokens] at hsame
      obtain ⟨rfl, rfl⟩ := List.cons.inj hsame
      exact (horderly.suffix hlast).trans hleft
  obtain rfl : tokens = t :: more := List.append_cancel_right htokens
  obtain ⟨leaf, rfl, hleaf, hread⟩ | ⟨-, hread⟩ := hread
  · exact .leaf hleaf (hinner hstop hread)
  · exact continueWith_carries horderly hinner hstop hread

end Layer

/-- However many layers the parser has, what it reads is carried elsewhere. -/
theorem expression_carrying : ∀ depth : Nat, Carrying (expression none depth) := by
  intro depth
  induction depth with
  | zero => intro stop previous result tokens rest _ h; cases h
  | succ depth ih => exact expressionLayer_carrying (expression_orderly none depth) ih

/-- **What the reader makes of an expression in one place, it makes of it in any other.** -/
theorem reader_carrying : Carrying reader :=
  fun hstop h => expression_carrying _ hstop h

end Scrawl.Grammar
