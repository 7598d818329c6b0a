/-
  Scrawl.Proofs.Grammar.Termination — the parser comes to an end, and where.

  Every layer of the parser passes a token, and so does every round of its loops.  So with more layers
  than there are tokens it never runs out of them, and with as many rounds as there are tokens it never
  runs out of those: the bounds are never what ends the reading (`expression_within`, `items_rounds`).
  Where it comes back, the next token is one that ends the expression; a program without a fault has been
  read to its last token (`ofTokens_reads`).  `reading_terminates` puts this together for every part of
  the parser.
-/

import Scrawl.Proofs.Grammar.Depth
import Scrawl.Proofs.Grammar.Tracking

namespace Scrawl.Grammar

/-! ## §1. Computations within reach -/

section Reach

variable {ending : Option Fault} {α β : Type}

/-- A computation is not cut off because the nesting is too deep: if it says so, that is the fault which
    stands behind the tokens. -/
def WithinReach (ending : Option Fault) (x : Except Fault α) : Prop :=
  x = .error .tooDeep → ending = some .tooDeep

theorem WithinReach.ok (a : α) : WithinReach ending (.ok a) := by
  intro h
  cases h

theorem WithinReach.error {f : Fault} (hf : f ≠ .tooDeep) :
    WithinReach ending (.error f : Except Fault α) := by
  intro h
  exact absurd (Except.error.inj h) hf

theorem WithinReach.bind {x : Except Fault α} {k : α → Except Fault β} (hx : WithinReach ending x)
    (hk : ∀ a, x = .ok a → WithinReach ending (k a)) : WithinReach ending (x >>= k) := by
  intro h
  rcases bind_eq_error.1 h with h | ⟨a, ha, h⟩
  · exact hx h
  · exact hk a ha h

theorem advance_within (tokens : List Token) : WithinReach ending (advance ending tokens) := by
  intro h
  obtain ⟨-, -, hending⟩ := advance_eq_error h
  exact hending

theorem expect_within (expected : String) (tokens : List Token) :
    WithinReach ending (expect expected tokens) := by
  cases tokens with
  | nil => exact .error Fault.noConfusion
  | cons t rest => exact .ok t

theorem glance_within (tokens : List Token) : WithinReach ending (glance tokens) := by
  cases tokens with
  | nil => exact .error Fault.noConfusion
  | cons t rest => exact .ok t

theorem endsAt_within (stop : Stop) (kind : Value) : WithinReach ending (stop.endsAt kind) := by
  unfold Stop.endsAt
  split
  · exact .ok _
  · exact .error Fault.noConfusion
  · exact .ok _

theorem targetName_within (previous : Option Tree) : WithinReach ending (targetName previous) := by
  unfold targetName
  split
  · exact .error Fault.noConfusion
  · exact .ok _
  · exact .error Fault.noConfusion

theorem parameterNames_within (trees : List Tree) :
    WithinReach ending (trees.mapM parameterName) := by
  have hname : ∀ t : Tree, WithinReach ending (parameterName t) := by
    intro t
    unfold parameterName
    split
    · exact .ok _
    · exact .error Fault.noConfusion
  induction trees with
  | nil => exact .ok []
  | cons t trees ih =>
    rw [List.mapM_cons]
    exact .bind (hname t) fun _ _ => .bind ih fun _ _ => .ok _

end Reach

/-! ## §2. Enough layers and rounds -/

/-- A parser reports that the nesting is too deep for no input of fewer than `n` tokens. -/
def ReachesBelow (ending : Option Fault) (n : Nat) (p : ExpressionParser) : Prop :=
  ∀ (stop : Stop) (previous : Option Tree) (tokens : List Token), tokens.length < n →
    WithinReach ending (p stop previous tokens)

section Lists

variable {ending : Option Fault} {p : ExpressionParser} {n : Nat} (hp : Orderly p)
include hp

/-- A list of items takes a token in every round, so it needs no more rounds than there are tokens. -/
theorem items_rounds (separator close : String) :
    ∀ {fuel fuel' : Nat} {tokens : List Token}, tokens ≠ [] → tokens.length ≤ fuel →
      tokens.length ≤ fuel' →
      items ending p separator close fuel tokens = items ending p separator close fuel' tokens := by
  intro fuel
  induction fuel with
  | zero =>
    intro fuel' tokens hne h _
    exact absurd (List.eq_nil_of_length_eq_zero (Nat.le_zero.1 h)) hne
  | succ fuel ih =>
    intro fuel' tokens hne h h'
    obtain ⟨m, rfl⟩ : ∃ m, fuel' = m + 1 :=
      Nat.exists_eq_succ_of_ne_zero fun hzero => by
        subst hzero
        exact hne (List.eq_nil_of_length_eq_zero (Nat.le_zero.1 h'))
    unfold items
    refine bind_congr_ok ?_
    rintro ⟨item, left⟩ hitem
    have hleft : left.length ≤ tokens.length := (hp.suffix hitem).length_le
    refine bind_congr_ok fun stop hstop => ?_
    obtain ⟨behind, rfl⟩ := glance_eq_ok hstop
    refine bind_congr_ok fun behind' hbehind => ?_
    obtain rfl := advance_eq_ok hbehind
    refine bind_congr_ok fun next hnext => ?_
    obtain ⟨more, rfl⟩ := expect_eq_ok hnext
    simp only [List.length_cons] at h h' hleft
    have hrounds : (next :: more).length ≤ fuel ∧ (next :: more).length ≤ m := by
      simp only [List.length_cons]
      omega
    rw [ih (List.cons_ne_nil next more) hrounds.1 hrounds.2]

variable (h : ReachesBelow ending n p)
include h

theorem items_within (separator close : String) :
    ∀ {fuel : Nat} {tokens : List Token}, tokens ≠ [] → tokens.length ≤ fuel → tokens.length < n →
      WithinReach ending (items ending p separator close fuel tokens) := by
  intro fuel
  induction fuel with
  | zero =>
    intro tokens hne hfuel _
    exact absurd (List.eq_nil_of_length_eq_zero (Nat.le_zero.1 hfuel)) hne
  | succ fuel ih =>
    intro tokens hne hfuel hn hdeep
    rcases items_succ_eq_error hp hdeep with hitem | ⟨item, stop, behind, hitem, hrest⟩
    · exact h _ _ _ hn hitem
    have hlength : (stop :: behind).length ≤ tokens.length := (hp.suffix hitem).length_le
    rw [List.length_cons] at hlength
    rcases hrest with ⟨-, hending⟩ | ⟨-, -, hfault⟩ | ⟨hbehind, -, hmore⟩
    · exact hending
    · cases hfault
    · exact ih hbehind (by omega) (by omega) hmore

theorem group_within (separator close : String) {tokens : List Token} (hn : tokens.length < n) :
    WithinReach ending (group ending p separator close tokens) := by
  intro hdeep
  rcases group_eq_error hdeep with ⟨-, hfault⟩ | ⟨-, -, -, hending⟩ | ⟨first, behind, rfl, hitems⟩
  · cases hfault
  · exact hending
  · exact items_within hp h separator close (List.cons_ne_nil first behind) (Nat.le_refl _) hn hitems

theorem parameters_within {tokens : List Token} (hn : tokens.length < n) :
    WithinReach ending (parameters ending p tokens) := by
  unfold parameters
  refine .bind (glance_within tokens) fun first hfirst => ?_
  obtain ⟨behind, rfl⟩ := glance_eq_ok hfirst
  split
  · exact .ok _
  refine .bind (advance_within _) fun left hleft => ?_
  obtain rfl := advance_eq_ok hleft
  refine .bind (glance_within left) fun second hsecond => ?_
  obtain ⟨inside, rfl⟩ := glance_eq_ok hsecond
  simp only [List.length_cons] at hn
  split
  · exact .error Fault.noConfusion
  refine .bind (advance_within _) fun left hleft => ?_
  obtain rfl := advance_eq_ok hleft
  refine .bind (group_within hp h "," ")" (by omega)) fun found _ => ?_
  exact .bind (parameterNames_within found.1) fun _ _ => .ok _

/-- What is read first leaves an end of the tokens, and what follows is read from that. -/
theorem continueWith_within (stop : Stop) (previous : Option Tree) (t : Token) {tokens : List Token}
    (hn : tokens.length < n) : WithinReach ending (continueWith ending p stop previous t tokens) := by
  have hrest : ∀ (previous : Option Tree) (left : List Token), left <:+ tokens →
      WithinReach ending (p stop previous left) := by
    intro previous left hleft
    exact h _ _ _ (Nat.lt_of_le_of_lt hleft.length_le hn)
  unfold continueWith
  split
  · refine .bind (h _ _ _ hn) ?_
    rintro ⟨right, left⟩ hright
    exact hrest _ left (hp.suffix hright)
  split
  · refine .bind (group_within hp h _ _ hn) ?_
    rintro ⟨args, left⟩ hargs
    exact hrest _ left (group_suffix hp hargs)
  split
  · refine .bind (parameters_within hp h hn) ?_
    rintro ⟨params, left⟩ hparams
    have hleft : left <:+ tokens := parameters_suffix hp hparams
    refine .bind (group_within hp h _ _ (Nat.lt_of_le_of_lt hleft.length_le hn)) ?_
    rintro ⟨body, left'⟩ hbody
    exact hrest _ left' ((group_suffix hp hbody).trans hleft)
  split
  · refine .bind (targetName_within previous) fun name _ => .bind (h _ _ _ hn) ?_
    rintro ⟨value, left⟩ hvalue
    exact hrest _ left (hp.suffix hvalue)
  · exact .error Fault.noConfusion

/-- A layer passes a token before it calls the parser for everything deeper. -/
theorem expressionLayer_within : ReachesBelow ending (n + 1) (expressionLayer ending p) := by
  intro stop previous tokens hn
  unfold expressionLayer
  refine .bind (expect_within ";" tokens) fun t ht => ?_
  obtain ⟨behind, rfl⟩ := expect_eq_ok ht
  refine .bind (endsAt_within stop t.kind) fun ends _ => ?_
  split
  · exact .ok _
  refine .bind (advance_within _) fun left hleft => ?_
  obtain rfl := advance_eq_ok hleft
  have hleft : left.length < n := by
    simp only [List.length_cons] at hn
    omega
  split
  · exact h _ _ _ hleft
  · exact continueWith_within hp h stop _ t hleft

end Lists

/-- **With more layers than there are tokens, the parser does not run out of them.** -/
theorem expression_within (ending : Option Fault) :
    ∀ depth : Nat, ReachesBelow ending depth (expression ending depth) := by
  intro depth
  induction depth with
  | zero =>
    intro stop previous tokens h
    omega
  | succ depth ih => exact expressionLayer_within (expression_orderly ending depth) ih

/-! ## §3. Where reading stops -/

/-- The kinds of tokens in front of which an expression ends: for a statement the parts of the text of
    the semicolon, for an item its separator and what closes the list. -/
def Stop.Holds : Stop → Value → Prop
  | .statement, kind => ∃ s : String, kind = .text s ∧ s.toList <:+: [';']
  | .item separator close, kind => kind = .text separator ∨ kind = .text close

/-- A statement ends at a semicolon, or at a token of the empty kind. -/
theorem endsAt_statement {kind : Value} (h : Stop.statement.endsAt kind = .ok true) :
    kind = .text ";" ∨ kind = .text "" := by
  cases kind with
  | text s =>
    have hs : (s == ";" || s == "") = true := Except.ok.inj h
    rw [Bool.or_eq_true, beq_iff_eq, beq_iff_eq] at hs
    exact hs.imp (congrArg Value.text) (congrArg Value.text)
  | _ => cases h

theorem Stop.holds_of_endsAt {stop : Stop} {kind : Value} (h : stop.endsAt kind = .ok true) :
    stop.Holds kind := by
  cases stop with
  | statement =>
    rcases endsAt_statement h with rfl | rfl
    · exact ⟨";", rfl, List.infix_refl _⟩
    · exact ⟨"", rfl, List.nil_infix⟩
  | item separator close =>
    have hkind : (kind.isText separator || kind.isText close) = true := Except.ok.inj h
    rw [Bool.or_eq_true] at hkind
    exact hkind.imp Value.eq_of_isText Value.eq_of_isText

/-- In front of a token that ends the expression, a parser with any layer at all comes back at once. -/
theorem expression_at_once (ending : Option Fault) (depth : Nat) {stop : Stop} {t : Token}
    (h : stop.endsAt t.kind = .ok true) (previous : Option Tree) (rest : List Token) :
    expression ending (depth + 1) stop previous (t :: rest) = .ok (previous, t :: rest) :=
  layer_stop h previous rest

/-- So it does wherever it has read an expression. -/
theorem expression_comes_back {ending : Option Fault} {depth : Nat} {stop : Stop}
    {previous result : Option Tree} {tokens rest : List Token}
    (h : expression ending depth stop previous tokens = .ok (result, rest)) (tree : Tree) :
    expression ending depth stop (some tree) rest = .ok (some tree, rest) := by
  obtain ⟨t, more, rfl, hends⟩ := (expression_orderly ending depth).stops h
  cases depth with
  | zero => cases h
  | succ depth => exact expression_at_once ending depth hends (some tree) more

/-! ## §4. Programs -/

/-- Statements are read one after the other, each with the token behind it. -/
inductive StatementsRead (ending : Option Fault) (depth : Nat) : List Token → List Tree → List Token → Prop
  /-- None has been read. -/
  | nil (tokens : List Token) : StatementsRead ending depth tokens [] tokens
  /-- One is read and the token behind it is passed; an empty one counts for nothing. -/
  | cons {tokens behind rest : List Token} {t : Token} {statement : Option Tree}
      {statements : List Tree}
      (hread : expression ending depth .statement none tokens = .ok (statement, t :: behind))
      (hmore : StatementsRead ending depth behind statements rest) :
      StatementsRead ending depth tokens (statement.toList ++ statements) rest

/-- **A program is read statement by statement** up to the end of its tokens, or up to tokens that cannot
    be read as a statement. -/
theorem ofTokens_reads (ending : Option Fault) (depth : Nat) (tokens : List Token) :
    ∃ rest, StatementsRead ending depth tokens (Program.ofTokens depth ⟨tokens, ending⟩).statements rest ∧
      ((rest = [] ∧ (Program.ofTokens depth ⟨tokens, ending⟩).fault = ending) ∨
        ∃ f, expression ending depth .statement none rest = .error f ∧
          (Program.ofTokens depth ⟨tokens, ending⟩).fault = some f) := by
  induction hn : tokens.length using Nat.strongRecOn generalizing tokens with
  | ind n ih =>
    cases tokens with
    | nil => exact ⟨[], .nil [], .inl ⟨rfl, rfl⟩⟩
    | cons u tokens =>
      cases hread : expression ending depth .statement none (u :: tokens) with
      | error f =>
        rw [ofTokens_error (List.cons_ne_nil u tokens) hread]
        exact ⟨u :: tokens, .nil _, .inr ⟨f, hread, rfl⟩⟩
      | ok read =>
        obtain ⟨statement, left⟩ := read
        obtain ⟨t, behind, rfl, -⟩ := (expression_orderly ending depth).stops hread
        have hlength := ((expression_orderly ending depth).suffix hread).length_le
        rw [List.length_cons, hn] at hlength
        obtain ⟨rest, hreads, hend⟩ := ih behind.length (by omega) behind rfl
        rw [ofTokens_ok hread]
        exact ⟨rest, .cons hread hreads, hend⟩

theorem StatementsRead.suffix {ending : Option Fault} {depth : Nat} {tokens rest : List Token}
    {statements : List Tree} (h : StatementsRead ending depth tokens statements rest) :
    rest <:+ tokens := by
  induction h with
  | nil tokens => exact List.suffix_refl tokens
  | cons hread _ ih =>
    have hbehind := (List.suffix_cons _ _).trans ((expression_orderly ending depth).suffix hread)
    exact ih.trans hbehind

/-- A program without a fault has been read to its last token. -/
theorem reads_all {ending : Option Fault} {depth : Nat} {tokens : List Token}
    (h : (Program.ofTokens depth ⟨tokens, ending⟩).fault = none) :
    StatementsRead ending depth tokens (Program.ofTokens depth ⟨tokens, ending⟩).statements [] := by
  obtain ⟨rest, hreads, ⟨rfl, -⟩ | ⟨f, -, hfault⟩⟩ := ofTokens_reads ending depth tokens
  · exact hreads
  · rw [h] at hfault
    cases hfault

/-- More layers than there are tokens make no difference to a program. -/
theorem ofTokens_layers (ending : Option Fault) {depth depth' : Nat} :
    ∀ tokens : List Token, tokens.length < depth → tokens.length < depth' →
      Program.ofTokens depth ⟨tokens, ending⟩ = Program.ofTokens depth' ⟨tokens, ending⟩ := by
  intro tokens
  induction hn : tokens.length using Nat.strongRecOn generalizing tokens with
  | ind n ih =>
    intro h h'
    cases tokens with
    | nil => rfl
    | cons u tokens =>
      rw [← hn] at h h'
      have hsame := (expression_eq_full ending h .statement none).trans
        (expression_eq_full ending h' .statement none).symm
      cases hread : expression ending depth .statement none (u :: tokens) with
      | error f =>
        rw [ofTokens_error (List.cons_ne_nil u tokens) hread,
          ofTokens_error (List.cons_ne_nil u tokens) (hsame ▸ hread)]
      | ok read =>
        obtain ⟨statement, left⟩ := read
        obtain ⟨t, behind, rfl, -⟩ := (expression_orderly ending depth).stops hread
        have hlength := ((expression_orderly ending depth).suffix hread).length_le
        rw [List.length_cons] at hlength
        have hread' := hsame ▸ hread
        rw [ofTokens_ok hread, ofTokens_ok hread',
          ih behind.length (by omega) behind rfl (by omega) (by omega)]

/-- A program only says that the nesting is too deep if there are too few layers for its tokens. -/
theorem ofTokens_within {ending : Option Fault} {depth : Nat} {tokens : List Token}
    (hdepth : tokens.length < depth)
    (h : (Program.ofTokens depth ⟨tokens, ending⟩).fault = some .tooDeep) :
    ending = some .tooDeep := by
  obtain ⟨rest, hreads, ⟨-, hfault⟩ | ⟨f, hread, hfault⟩⟩ := ofTokens_reads ending depth tokens
  · exact hfault.symm.trans h
  · obtain rfl := Option.some.inj (hfault.symm.trans h)
    exact expression_within ending depth _ _ rest
      (Nat.lt_of_le_of_lt hreads.suffix.length_le hdepth) hread

/-! ## §5. All parts of the parser -/

/-- From some number of layers on, a computation comes out the same, and does not run out of them. -/
def SettledFrom {α : Type} (ending : Option Fault) (enough : Nat) (run : Nat → Except Fault α) : Prop :=
  ∀ depth, enough ≤ depth → run depth = run enough ∧ WithinReach ending (run depth)

section Settling

variable (ending : Option Fault) (tokens : List Token)

theorem expression_settled (stop : Stop) (previous : Option Tree) :
    SettledFrom ending (tokens.length + 1) fun depth =>
      expression ending depth stop previous tokens := by
  intro depth hdepth
  exact ⟨expression_eq_full ending hdepth stop previous,
    expression_within ending depth stop previous tokens hdepth⟩

theorem agree_beyond {depth : Nat} (hdepth : tokens.length + 1 ≤ depth) :
    AgreeBelow (tokens.length + 1) (expression ending (tokens.length + 1))
      (expression ending depth) :=
  expression_depth_irrelevant ending _ depth hdepth

theorem group_settled (separator close : String) :
    SettledFrom ending (tokens.length + 1) fun depth =>
      group ending (expression ending depth) separator close tokens := by
  intro depth hdepth
  constructor
  · exact (group_congr (expression_orderly ending _) (agree_beyond ending tokens hdepth) tokens
      (Nat.lt_succ_self _)).symm
  · exact group_within (expression_orderly ending depth) (expression_within ending depth) separator
      close hdepth

theorem parameters_settled :
    SettledFrom ending (tokens.length + 1) fun depth =>
      parameters ending (expression ending depth) tokens := by
  intro depth hdepth
  constructor
  · exact (parameters_congr (expression_orderly ending _) (agree_beyond ending tokens hdepth) tokens
      (Nat.lt_succ_self _)).symm
  · exact parameters_within (expression_orderly ending depth) (expression_within ending depth) hdepth

end Settling

/-- **The parser terminates, moves on, and stops where it should,** for all tokens, whatever their kinds,
    for all ends of an expression and whatever has been read before.

    With more layers than tokens no part of the parser depends on their number or runs out of them, and
    its loops need no more rounds than there are tokens.  An expression leaves an end of the tokens, whose
    first one ends it.  A list takes at least one token, and the last one it takes closes it.  So there
    is a token to look at behind every item of a list, reading on behind the second operand of an
    operator or behind an assigned expression comes back at once, and a program without a fault has been
    read to its last token. -/
theorem reading_terminates (ending : Option Fault) (tokens : List Token) (stop : Stop)
    (previous : Option Tree) (separator close : String) :
    (SettledFrom ending (tokens.length + 1) fun depth =>
      expression ending depth stop previous tokens) ∧
    (SettledFrom ending (tokens.length + 1) fun depth =>
      group ending (expression ending depth) separator close tokens) ∧
    (SettledFrom ending (tokens.length + 1) fun depth =>
      parameters ending (expression ending depth) tokens) ∧
    (∀ depth, tokens.length < depth →
      Program.ofTokens depth ⟨tokens, ending⟩
          = Program.ofTokens (tokens.length + 1) ⟨tokens, ending⟩ ∧
        ((Program.ofTokens depth ⟨tokens, ending⟩).fault = some .tooDeep →
          ending = some .tooDeep)) ∧
    (∀ depth rounds, tokens.length ≤ rounds →
      (tokens ≠ [] → items ending (expression ending depth) separator close rounds tokens
        = items ending (expression ending depth) separator close tokens.length tokens) ∧
      Program.ofList ending depth rounds tokens
        = Program.ofList ending depth tokens.length tokens) ∧
    (∀ depth result rest, expression ending depth stop previous tokens = .ok (result, rest) →
      rest <:+ tokens ∧ ∃ t more, rest = t :: more ∧ stop.Holds t.kind) ∧
    (∀ depth trees rest,
      group ending (expression ending depth) separator close tokens = .ok (trees, rest) →
      ∃ taken last, tokens = taken ++ last :: rest ∧ last.kind = .text close) ∧
    (∀ depth names rest, parameters ending (expression ending depth) tokens = .ok (names, rest) →
      rest <:+ tokens) ∧
    (∀ depth item rest,
      expression ending depth (.item separator close) none tokens = .ok (item, rest) →
      ∃ t, glance rest = .ok t) ∧
    (∀ depth right rest, expression ending depth stop none tokens = .ok (right, rest) →
      ∀ tree, expression ending depth stop (some tree) rest = .ok (some tree, rest)) ∧
    ∀ depth, (Program.ofTokens depth ⟨tokens, ending⟩).fault = none →
      StatementsRead ending depth tokens (Program.ofTokens depth ⟨tokens, ending⟩).statements [] := by
  refine ⟨expression_settled ending tokens stop previous,
    group_settled ending tokens separator close, parameters_settled ending tokens,
    fun depth hdepth => ⟨ofTokens_layers ending tokens hdepth (Nat.lt_succ_self _),
      ofTokens_within hdepth⟩, fun depth rounds hrounds => ⟨fun hne => ?_, ?_⟩, ?_, ?_, ?_, ?_, ?_,
    fun depth hfault => reads_all hfault⟩
  · exact items_rounds (expression_orderly ending depth) separator close hne hrounds (Nat.le_refl _)
  · exact ofList_fuel ending depth hrounds (Nat.le_refl _)
  · intro depth result rest hread
    obtain ⟨t, more, hrest, hends⟩ := (expression_orderly ending depth).stops hread
    exact ⟨(expression_orderly ending depth).suffix hread, t, more, hrest, Stop.holds_of_endsAt hends⟩
  · intro depth trees rest hgroup
    obtain ⟨last, hlast, taken, htaken⟩ := group_consumes (expression_orderly ending depth) hgroup
    exact ⟨taken, last, htaken.symm, Value.eq_of_isText hlast⟩
  · intro depth names rest hparameters
    exact parameters_suffix (expression_orderly ending depth) hparameters
  · intro depth item rest hread
    obtain ⟨t, more, rfl, -⟩ := (expression_orderly ending depth).stops hread
    exact ⟨t, rfl⟩
  · intro depth right rest hread tree
    exact expression_comes_back hread tree

/-- A call with an empty item, a missing operand and a function: `f ( 1 + , , { : ( p ) p ; } ) ;`, and
    a token of the empty kind, which ends a statement too. -/
def mixedTokens : List Token :=
  [nameToken (.text "f"), .sign '(', ⟨.text "number", .text "1"⟩, ⟨.text "operation", .text "+"⟩,
    .sign ',', .sign ',', .sign '\x7b', .sign ':', .sign '(', nameToken (.text "p"), .sign ')',
    nameToken (.text "p"), .sign ';', .sign '\x7d', .sign ')', .sign ';', ⟨.text "", .text ""⟩]

/-- They are read to the last one. -/
theorem mixedTokens_read :
    (Program.ofTokens 18 ⟨mixedTokens, none⟩).fault = none ∧
      StatementsRead none 18 mixedTokens (Program.ofTokens 18 ⟨mixedTokens, none⟩).statements [] ∧
      Program.ofTokens 1000 ⟨mixedTokens, none⟩ = Program.ofTokens 18 ⟨mixedTokens, none⟩ := by
  have hfault : (Program.ofTokens 18 ⟨mixedTokens, none⟩).fault = none := by decide +kernel
  obtain ⟨-, -, -, hlayers, -, -, -, -, -, -, hall⟩ :=
    reading_terminates none mixedTokens .statement none "," ")"
  exact ⟨hfault, hall 18 hfault, (hlayers 1000 (by decide)).1⟩

end Scrawl.Grammar
