/-
  Scrawl.Proofs.Grammar.Appending — one text behind another.

  What a parser reads hangs only on the tokens up to the end of it, so it reads the same when more
  tokens follow, whatever fault stands behind those (`expression_prolongs`).  A text that is a
  program without a fault ends with a semicolon, or holds no token at all; so no token goes on
  across the seam when another text follows, and the statements of the two are the statements of
  both (`ofText_append`).
-/

import Scrawl.Proofs.Grammar.Progress
import Scrawl.Proofs.Grammar.Split
import Scrawl.Proofs.Value.Tags

namespace Scrawl.Grammar

/-! ## §1. Reading in front of more tokens -/

/-- What the first parser reads, the second reads in front of more tokens, which it leaves. -/
def Prolongs (more : List Token) (p q : ExpressionParser) : Prop :=
  ∀ stop previous tokens result rest, p stop previous tokens = .ok (result, rest) →
    q stop previous (tokens ++ more) = .ok (result, rest ++ more)

/-- A token with others behind it is passed, whatever stands behind those. -/
theorem advance_cons (ending : Option Fault) (t : Token) {rest : List Token} (h : rest ≠ []) :
    advance ending (t :: rest) = .ok rest := by
  cases rest with
  | nil => exact absurd rfl h
  | cons u rest => rfl

section Layer

variable (ending : Option Fault) {more : List Token} {p q : ExpressionParser}

theorem items_prolongs (h : Prolongs more p q) {separator close : String} :
    ∀ {fuel fuel' : Nat} {tokens rest : List Token} {trees : List Tree}, fuel ≤ fuel' →
      items none p separator close fuel tokens = .ok (trees, rest) →
        items ending q separator close fuel' (tokens ++ more) = .ok (trees, rest ++ more) := by
  intro fuel
  induction fuel with
  | zero => intro fuel' tokens rest trees _ hitems; exact nomatch hitems
  | succ fuel ih =>
    intro fuel' tokens rest trees hle hitems
    obtain ⟨fuel', rfl⟩ : ∃ n, fuel' = n + 1 := ⟨fuel' - 1, by omega⟩
    obtain ⟨item, stop, behind, hitem, hne, hend⟩ := items_succ_eq_ok hitems
    have hitem' := h _ _ _ _ _ hitem
    -- the token behind the item is passed, and there still is one behind that
    obtain ⟨next, others, hnext⟩ : ∃ next others, behind ++ more = next :: others :=
      List.exists_cons_of_ne_nil (by simp [hne])
    have hround : items ending q separator close (fuel' + 1) (tokens ++ more) =
        if stop.kind.isText close then .ok (item.toList, behind ++ more)
        else items ending q separator close fuel' (behind ++ more) >>= fun found =>
          .ok (item.toList ++ found.1, found.2) := by
      rw [items, hitem']
      simp only [List.cons_append, bind, Except.bind, glance, hnext, expect]
      rfl
    rw [hround]
    obtain ⟨hclose, rfl, rfl⟩ | ⟨hclose, found, hfound, rfl⟩ := hend
    · rw [if_pos hclose]
    · rw [hclose, if_neg Bool.false_ne_true, ih (by omega : fuel ≤ fuel') hfound]
      rfl

theorem group_prolongs (h : Prolongs more p q) {separator close : String}
    {tokens rest : List Token} {trees : List Tree} (hrest : rest ≠ [])
    (hgroup : group none p separator close tokens = .ok (trees, rest)) :
    group ending q separator close (tokens ++ more) = .ok (trees, rest ++ more) := by
  obtain ⟨first, hclose, rfl, rfl⟩ | ⟨first, behind, hclose, rfl, hitems⟩ := group_cases hgroup
  · have hleft : rest ++ more ≠ [] := by simp [hrest]
    simp only [group, List.cons_append, expect, bind, Except.bind, hclose, if_true,
      advance_cons ending first hleft]
    rfl
  · have hlength : (first :: behind).length ≤ (first :: behind ++ more).length := by simp
    rw [← items_prolongs ending h hlength hitems]
    simp only [group, List.cons_append, expect, bind, Except.bind, hclose]
    rfl

theorem parameters_prolongs (h : Prolongs more p q) {tokens rest : List Token}
    {names : List Value} (hrest : rest ≠ [])
    (hparameters : parameters none p tokens = .ok (names, rest)) :
    parameters ending q (tokens ++ more) = .ok (names, rest ++ more) := by
  obtain ⟨first, behind, hcolon, rfl, rfl, rfl⟩ |
    ⟨colon, bracket, inside, trees, hcolon, hbracket, rfl, hgroup, hnames⟩ :=
    parameters_cases hparameters
  · simp only [parameters, List.cons_append, glance, bind, Except.bind, hcolon]
    rfl
  · have hinside : inside ++ more ≠ [] := by
      intro hnil
      obtain ⟨rfl, -⟩ := List.append_eq_nil_iff.1 hnil
      cases hgroup
    simp only [parameters, List.cons_append, glance, bind, Except.bind, hcolon, hbracket,
      advance_cons ending colon (List.cons_ne_nil bracket _), advance_cons ending bracket hinside,
      group_prolongs ending h hrest hgroup, hnames]
    rfl

/-- Behind the token of an expression, and in what follows that, nothing changes. -/
theorem continueWith_prolongs (hp : Orderly p) (h : Prolongs more p q) {stop : Stop}
    {previous result : Option Tree} {t : Token} {tokens rest : List Token}
    (hcontinue : continueWith none p stop previous t tokens = .ok (result, rest)) :
    continueWith ending q stop previous t (tokens ++ more) = .ok (result, rest ++ more) := by
  unfold continueWith
  obtain ⟨right, left, hkind, hright, hread⟩ | ⟨args, left, hkind, hargs, hread⟩ |
    ⟨params, left, body, left', hkind, hparams, hbody, hread⟩ |
    ⟨name, value, left, hkind, rfl, hvalue, hread⟩ := continueWith_cases hcontinue
  · rw [if_pos hkind, h _ _ _ _ _ hright]
    exact h _ _ _ _ _ hread
  · rw [Value.eq_of_isText hkind, if_neg (by decide), if_pos (by decide),
      group_prolongs ending h (hp.ne_nil hread) hargs]
    exact h _ _ _ _ _ hread
  · have hbody' : left ≠ [] := by
      rintro rfl
      exact nomatch hbody
    rw [Value.eq_of_isText hkind, if_neg (by decide), if_neg (by decide), if_pos (by decide),
      parameters_prolongs ending h hbody' hparams]
    show (group ending q ";" "\x7d" (left ++ more) >>= _) = _
    rw [group_prolongs ending h (hp.ne_nil hread) hbody]
    exact h _ _ _ _ _ hread
  · rw [Value.eq_of_isText hkind, if_neg (by decide), if_neg (by decide), if_neg (by decide),
      if_pos (by decide)]
    show (q stop none (tokens ++ more) >>= _) = _
    rw [h _ _ _ _ _ hvalue]
    exact h _ _ _ _ _ hread

theorem expressionLayer_prolongs (hp : Orderly p) (h : Prolongs more p q) :
    Prolongs more (expressionLayer none p) (expressionLayer ending q) := by
  intro stop previous tokens result rest hread
  obtain ⟨t, behind, rfl, ⟨hends, rfl, rfl⟩ | ⟨hends, hinner⟩⟩ := expressionLayer_cases hread
  · simp only [expressionLayer, List.cons_append, expect, bind, Except.bind, hends]
    rfl
  have hbehind : behind ++ more ≠ [] := by
    obtain ⟨u, others, hsame, ⟨hends', -⟩ | ⟨-, tree, left, hleft, hlast⟩⟩ :=
      expressionLayer_last hp hread
    · obtain ⟨rfl, rfl⟩ := List.cons.inj hsame
      rw [hends] at hends'
      cases hends'
    · obtain ⟨rfl, rfl⟩ := List.cons.inj hsame
      intro hnil
      obtain ⟨rfl, -⟩ := List.append_eq_nil_iff.1 hnil
      exact hp.ne_nil hlast (List.eq_nil_of_suffix_nil hleft)
  simp only [expressionLayer, List.cons_append, expect, bind, Except.bind, hends,
    advance_cons ending t hbehind]
  obtain ⟨leaf, rfl, hleaf, hread⟩ | ⟨hleaf, hcontinue⟩ := hinner
  · rw [hleaf]
    exact h _ _ _ _ _ hread
  · have hread' := continueWith_prolongs ending hp h hcontinue
    cases previous with
    | none =>
      rw [hleaf rfl]
      exact hread'
    | some tree => exact hread'

end Layer

/-- **What the parser reads, it reads in front of more tokens too,** whatever stands behind
    those. -/
theorem expression_prolongs (ending : Option Fault) (more : List Token) :
    ∀ depth : Nat, Prolongs more (expression none depth) (expression ending depth) := by
  intro depth
  induction depth with
  | zero => intro stop previous tokens result rest h; exact nomatch h
  | succ depth ih => exact expressionLayer_prolongs ending (expression_orderly none depth) ih

/-! ## §2. Statements one after another -/

/-- A program with statements in front. -/
def Program.behind (front : List Tree) (p : Program) : Program :=
  ⟨front ++ p.statements, p.fault⟩

/-- There is no use for more fuel than tokens. -/
theorem ofList_fuel (ending : Option Fault) (depth : Nat) :
    ∀ {fuel fuel' : Nat} {tokens : List Token}, tokens.length ≤ fuel → tokens.length ≤ fuel' →
      Program.ofList ending depth fuel tokens = Program.ofList ending depth fuel' tokens := by
  intro fuel
  induction fuel with
  | zero =>
    intro fuel' tokens h _
    obtain rfl := List.eq_nil_of_length_eq_zero (Nat.le_zero.1 h)
    cases fuel' <;> rfl
  | succ fuel ih =>
    intro fuel' tokens h h'
    cases tokens with
    | nil => cases fuel' <;> rfl
    | cons t tokens =>
      cases fuel' with
      | zero => exact absurd h' (by simp)
      | succ fuel' =>
        simp only [Program.ofList]
        cases hread : expression ending depth .statement none (t :: tokens) with
        | error f => rfl
        | ok read =>
          obtain ⟨statement, left⟩ := read
          obtain ⟨u, behind, rfl, -⟩ := (expression_orderly ending depth).stops hread
          have hlength := ((expression_orderly ending depth).suffix hread).length_le
          simp only [List.length_cons] at h h' hlength
          cases hpast : advance ending (u :: behind) with
          | error f => simp only [hpast]
          | ok left =>
            obtain rfl := advance_eq_ok hpast
            simp only [hpast, ih (by omega : left.length ≤ fuel) (by omega : left.length ≤ fuel')]

/-- What cannot be read ends the program. -/
theorem ofTokens_error {ending : Option Fault} {depth : Nat} {tokens : List Token} {f : Fault}
    (hne : tokens ≠ []) (h : expression ending depth .statement none tokens = .error f) :
    Program.ofTokens depth ⟨tokens, ending⟩ = ⟨[], some f⟩ := by
  cases tokens with
  | nil => exact absurd rfl hne
  | cons t tokens => simp only [Program.ofTokens, List.length_cons, Program.ofList, h]

/-- A statement stands in front of the program that is behind its semicolon; if there is only a
    fault there, that is all of the program. -/
theorem ofTokens_ok {ending : Option Fault} {depth : Nat} {tokens behind : List Token} {t : Token}
    {statement : Option Tree}
    (h : expression ending depth .statement none tokens = .ok (statement, t :: behind)) :
    Program.ofTokens depth ⟨tokens, ending⟩
      = (Program.ofTokens depth ⟨behind, ending⟩).behind statement.toList := by
  have hlength := ((expression_orderly ending depth).suffix h).length_le
  cases tokens with
  | nil => exact absurd rfl ((expression_orderly ending depth).ne_nil h)
  | cons u tokens =>
    simp only [Program.ofTokens, List.length_cons, Program.ofList, h]
    cases behind with
    | nil =>
      cases ending with
      | none =>
        cases tokens <;> simp [advance, Program.ofList, Program.behind]
      | some f => simp [advance, Program.behind]
    | cons v behind =>
      simp only [List.length_cons] at hlength
      have hfuel : (v :: behind).length ≤ tokens.length := by
        simp only [List.length_cons]
        omega
      simp only [advance, Program.behind, ofList_fuel ending depth hfuel (Nat.le_refl _),
        List.length_cons]

/-- **The statements of a program without a fault, one by one:** each ends in front of a token, and
    behind the last there is neither a token nor a fault. -/
theorem faultless_induction {ending : Option Fault} {depth : Nat} {P : List Token → Prop}
    (nil : ending = none → P [])
    (step : ∀ tokens statement t behind,
      expression ending depth .statement none tokens = .ok (statement, t :: behind) →
        (Program.ofTokens depth ⟨behind, ending⟩).fault = none → P behind → P tokens)
    (tokens : List Token) (h : (Program.ofTokens depth ⟨tokens, ending⟩).fault = none) :
    P tokens := by
  induction hn : tokens.length using Nat.strongRecOn generalizing tokens with
  | ind n ih =>
    cases tokens with
    | nil => exact nil h
    | cons u tokens =>
      cases hread : expression ending depth .statement none (u :: tokens) with
      | error f =>
        rw [ofTokens_error (List.cons_ne_nil u tokens) hread] at h
        exact nomatch h
      | ok read =>
        obtain ⟨statement, left⟩ := read
        obtain ⟨t, behind, rfl, -⟩ := (expression_orderly ending depth).stops hread
        have hlength := ((expression_orderly ending depth).suffix hread).length_le
        rw [List.length_cons, hn] at hlength
        rw [ofTokens_ok hread] at h
        exact step _ statement t behind hread h (ih behind.length (by omega) behind h rfl)

/-- Behind the tokens of a program without a fault there is no fault. -/
theorem fault_eq_none {ending : Option Fault} {depth : Nat} {tokens : List Token}
    (h : (Program.ofTokens depth ⟨tokens, ending⟩).fault = none) : ending = none :=
  faultless_induction (P := fun _ => ending = none) id (fun _ _ _ _ _ _ ih => ih) tokens h

/-- The last token of a program without a fault ends a statement. -/
theorem endsAt_last {ending : Option Fault} {depth : Nat} {tokens : List Token}
    (h : (Program.ofTokens depth ⟨tokens, ending⟩).fault = none) :
    ∀ t ∈ tokens.getLast?, Stop.statement.endsAt t.kind = .ok true := by
  refine faultless_induction (P := fun tokens => ∀ t ∈ tokens.getLast?,
    Stop.statement.endsAt t.kind = .ok true) (fun _ t ht => nomatch ht) ?_ tokens h
  intro tokens statement t behind hread _ ih u hu
  obtain ⟨front, rfl⟩ := (expression_orderly ending depth).suffix hread
  obtain ⟨v, others, hsame, hends⟩ := (expression_orderly ending depth).stops hread
  obtain ⟨rfl, rfl⟩ := List.cons.inj hsame
  cases behind with
  | nil =>
    obtain rfl : t = u := by simpa using hu
    exact hends
  | cons v behind => exact ih u (by simpa using hu)

/-- **A program without a fault stands in front of whatever follows its tokens.** -/
theorem ofTokens_append {depth : Nat} {tokens : List Token}
    (h : (Program.ofTokens depth ⟨tokens, none⟩).fault = none) (more : Tokens) :
    Program.ofTokens depth (more.behind tokens) = (Program.ofTokens depth more).behind
      (Program.ofTokens depth ⟨tokens, none⟩).statements := by
  refine faultless_induction (P := fun tokens => Program.ofTokens depth (more.behind tokens)
    = (Program.ofTokens depth more).behind (Program.ofTokens depth ⟨tokens, none⟩).statements)
    (fun _ => rfl) ?_ tokens h
  intro tokens statement t behind hread _ ih
  have hread' := expression_prolongs more.fault more.items depth _ _ _ _ _ hread
  have hbehind : Program.ofTokens depth (more.behind tokens)
      = (Program.ofTokens depth (more.behind behind)).behind statement.toList :=
    ofTokens_ok hread'
  rw [hbehind, ih, ofTokens_ok hread]
  simp [Program.behind]

/-! ## §3. One text behind another -/

/-- The token of the last piece is the last token. -/
theorem Piece.getLast?_tokens {ps : List Piece} {p : Piece} {t : Token}
    (hp : p ∈ ps.getLast?) (ht : p.token? = some t) : t ∈ (Piece.tokens ps).getLast? := by
  obtain ⟨front, rfl⟩ := List.getLast?_eq_some_iff.1 hp
  simp [Piece.tokens, ht]

/-- A piece whose token ends a statement goes on into nothing. -/
theorem Piece.endsBefore_of_endsAt {p : Piece}
    (h : ∀ t ∈ p.token?, Stop.statement.endsAt t.kind = .ok true) (rest : List Char) :
    p.EndsBefore rest := by
  cases p with
  | number run => exact nomatch h _ rfl
  | symbol start run => exact nomatch h _ rfl
  | _ => trivial

/-- **The program of one text behind another.**  If the first has no fault, its statements come
    first and what the second makes up follows, also if that is cut off by a fault. -/
theorem ofText_append (depth : Nat) {s : String}
    (h : (Program.ofText depth s).fault = none) (s' : String) :
    Program.ofText depth (s ++ s')
      = (Program.ofText depth s').behind (Program.ofText depth s).statements := by
  have hlexical : (Tokens.ofChars s.toList).fault = none := fault_eq_none h
  obtain ⟨ps, hps, htokens⟩ | ⟨_, _, _, f, -, -, -, htokens⟩ := ofChars_cases s.toList
  case inr =>
    rw [htokens] at hlexical
    exact nomatch hlexical
  have hprogram : Program.ofText depth s = Program.ofTokens depth ⟨Piece.tokens ps, none⟩ := by
    rw [Program.ofText, Tokens.ofText, htokens]
  rw [hprogram] at h ⊢
  have hseam : ∀ p ∈ ps.getLast?, p.EndsBefore s'.toList := by
    intro p hp
    refine Piece.endsBefore_of_endsAt (fun t ht => ?_) s'.toList
    exact endsAt_last h t (Piece.getLast?_tokens hp ht)
  rw [Program.ofText, Tokens.ofText, String.toList_append, ofChars_append_of_splits hps hseam]
  exact ofTokens_append h _

end Scrawl.Grammar
