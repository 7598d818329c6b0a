/-
  Scrawl.Proofs.Grammar.RoundTrip — what the parser reads is what can be written.

  The trees of the language come in two grades: operands, which can stand to the left of an operator
  or of a bracket, and expressions.  Writing out grammatical trees and reading the text gives them
  back (`ofText_written`), and whatever text is read, only grammatical trees come out, also in front
  of a fault (`ofText_grammatical`).  Together they say which trees are the image of the parser.
-/

import Scrawl.Proofs.Grammar.Depth
import Scrawl.Proofs.Grammar.Lexeme

namespace Scrawl.Grammar

/-! ## §1. Grammatical trees -/

/-- What a tree can stand for in a larger one. -/
inductive Grade where
  /-- The left operand of an operator, or what is called. -/
  | operand
  /-- A statement, an argument, or the right operand of an operator. -/
  | expression
  deriving Repr, DecidableEq

/-- The names of the language: symbols. -/
def IsName (v : Value) : Prop := ∃ s : String, v = .text s ∧ isSymbolText s = true

/-- The trees of the language, by grade.  Callees, operands and assigned values may be missing. -/
inductive Tree.Grammatical : Grade → Tree → Prop
  /-- A number. -/
  | number {s : String} (h : isNumberText s = true) : Grammatical .operand (.number (.text s))
  /-- A string. -/
  | string {s : String} (h : isStringText s = true) : Grammatical .operand (.string (.text s))
  /-- A symbol. -/
  | symbol {name : Value} (h : IsName name) : Grammatical .operand (.symbol name)
  /-- A function. -/
  | function {params : List Value} {body : List Tree} (hparams : ∀ p ∈ params, IsName p)
      (hbody : ∀ t ∈ body, Grammatical .expression t) :
      Grammatical .operand (.function params body)
  /-- A call. -/
  | call {callee : Option Tree} {args : List Tree}
      (hcallee : ∀ t ∈ callee, Grammatical .operand t)
      (hargs : ∀ t ∈ args, Grammatical .expression t) : Grammatical .operand (.call callee args)
  /-- An operand by itself. -/
  | operand {t : Tree} (h : Grammatical .operand t) : Grammatical .expression t
  /-- An operator; what is to its right goes on to the end of the expression. -/
  | operation {op : String} {left right : Option Tree} (hop : isOperatorText op = true)
      (hleft : ∀ t ∈ left, Grammatical .operand t)
      (hright : ∀ t ∈ right, Grammatical .expression t) :
      Grammatical .expression (.operation (.text op) left right)
  /-- An assignment to a symbol. -/
  | assignment {name : Value} {value : Option Tree} (hname : IsName name)
      (hvalue : ∀ t ∈ value, Grammatical .expression t) :
      Grammatical .expression (.assignment name value)

/-! ## §2. Writing trees -/

/-- Lists of tokens with a comma between them. -/
def commaTokens (items : List (List Token)) : List Token := List.intercalate [.sign ','] items

/-- Lists of tokens with a semicolon behind each of them. -/
def semicolonTokens (items : List (List Token)) : List Token :=
  items.flatMap fun item => item ++ [.sign ';']

/-- The token of a name. -/
def nameToken (name : Value) : Token := ⟨.text "symbol", name⟩

/-- The tokens of a parameter list; without parameters there is none. -/
def parameterTokens : List Value → List Token
  | [] => []
  | params =>
    .sign ':' :: .sign '(' :: (commaTokens (params.map fun p => [nameToken p]) ++ [.sign ')'])

mutual

/-- The tokens of a tree. -/
def Tree.tokens : Tree → List Token
  | .number text => [⟨.text "number", text⟩]
  | .string text => [⟨.text "string", text⟩]
  | .symbol name => [nameToken name]
  | .operation op left right =>
    Tree.optionTokens left ++ ⟨.text "operation", op⟩ :: Tree.optionTokens right
  | .call callee args =>
    Tree.optionTokens callee ++ .sign '(' :: (commaTokens (Tree.listTokens args) ++ [.sign ')'])
  | .function params body =>
    .sign '\x7b' :: (parameterTokens params ++
      (semicolonTokens (Tree.listTokens body) ++ [.sign '\x7d']))
  | .assignment name value => nameToken name :: .sign '=' :: Tree.optionTokens value

/-- The tokens of a tree that may be missing. -/
def Tree.optionTokens : Option Tree → List Token
  | none => []
  | some t => t.tokens

/-- The tokens of each of several trees. -/
def Tree.listTokens : List Tree → List (List Token)
  | [] => []
  | t :: rest => t.tokens :: Tree.listTokens rest

end

/-- The tokens of statements, each with its semicolon. -/
def programTokens (statements : List Tree) : List Token :=
  semicolonTokens (Tree.listTokens statements)

/-- The text of statements, with a blank between any two tokens. -/
def programText (q : Quoting) (statements : List Tree) : String :=
  String.ofList (spellTokens q (programTokens statements))

/-! ## §3. The parser, token by token -/

/-- The three ends of an expression that the parser uses. -/
inductive Stop.Used : Stop → Prop
  /-- The end of a statement. -/
  | statement : Used .statement
  /-- The end of an argument or a parameter. -/
  | argument : Used (.item "," ")")
  /-- The end of a statement in a body. -/
  | body : Used (.item ";" "\x7d")

/-- The kinds of tokens at which no expression ends. -/
def innerKinds : List String := ["number", "string", "symbol", "operation", "(", "\x7b", "="]

theorem Stop.Used.goes {stop : Stop} (h : stop.Used) {kind : String} (hkind : kind ∈ innerKinds) :
    stop.endsAt (.text kind) = .ok false := by
  simp only [innerKinds, List.mem_cons, List.not_mem_nil, or_false] at hkind
  rcases hkind with rfl | rfl | rfl | rfl | rfl | rfl | rfl <;> cases h <;> rfl

/-- The parser for tokens without a fault behind them. -/
def reader : ExpressionParser := fullExpression none

theorem reader_orderly : Orderly reader := fullExpression_orderly none

/-- In front of a token that ends the expression, what has been read is the result. -/
theorem reader_stop {stop : Stop} {t : Token} (h : stop.endsAt t.kind = .ok true)
    (previous : Option Tree) (rest : List Token) :
    reader stop previous (t :: rest) = .ok (previous, t :: rest) := by
  unfold reader
  rw [fullExpression_eq_layer]
  exact layer_stop h previous rest

/-- A token that is an expression by itself becomes what has been read. -/
theorem reader_leaf {stop : Stop} {t : Token} {leaf : Tree} (h : stop.endsAt t.kind = .ok false)
    (hleaf : leaf? t = some leaf) (rest : List Token) :
    reader stop none (t :: rest) = reader stop (some leaf) rest := by
  unfold reader
  rw [fullExpression_eq_layer]
  exact layer_leaf h hleaf rest

/-- Any other token decides by its kind how to go on. -/
theorem reader_sign {stop : Stop} {t : Token} (h : stop.endsAt t.kind = .ok false)
    (hleaf : leaf? t = none) (previous : Option Tree) (rest : List Token) :
    reader stop previous (t :: rest) = continueWith none reader stop previous t rest := by
  unfold reader
  rw [fullExpression_eq_layer]
  exact layer_continue h (fun _ => hleaf) rest

section Signs

variable {stop : Stop} (hstop : stop.Used) (previous : Option Tree) (rest : List Token)
include hstop

theorem reader_operation (op : Value) :
    reader stop previous (⟨.text "operation", op⟩ :: rest) = (do
      let (right, tokens) ← reader stop none rest
      reader stop (some (.operation op previous right)) tokens) := by
  rw [reader_sign (hstop.goes (by decide)) rfl]
  rfl

theorem reader_bracket :
    reader stop previous (.sign '(' :: rest) = (do
      let (args, tokens) ← group none reader "," ")" rest
      reader stop (some (.call previous args)) tokens) := by
  rw [reader_sign (hstop.goes (by decide)) rfl]
  rfl

theorem reader_brace :
    reader stop previous (.sign '\x7b' :: rest) = (do
      let (params, tokens) ← parameters none reader rest
      let (body, tokens) ← group none reader ";" "\x7d" tokens
      reader stop (some (.function params body)) tokens) := by
  rw [reader_sign (hstop.goes (by decide)) rfl]
  rfl

theorem reader_equals (name : Value) :
    reader stop (some (.symbol name)) (.sign '=' :: rest) = (do
      let (value, tokens) ← reader stop none rest
      reader stop (some (.assignment name value)) tokens) := by
  rw [reader_sign (hstop.goes (by decide)) rfl]
  rfl

end Signs

/-! ## §4. Reading written lists back -/

/-- The next token is one at which the expression ends. -/
def EndsHere (stop : Stop) (rest : List Token) : Prop :=
  ∃ t more, rest = t :: more ∧ stop.endsAt t.kind = .ok true

/-- A tree's tokens are read back up to an end of the expression. -/
def ReadsBack (t : Tree) : Prop :=
  ∀ stop : Stop, stop.Used → ∀ rest : List Token, EndsHere stop rest →
    reader stop none (t.tokens ++ rest) = .ok (some t, rest)

/-- Nothing is read in front of an end of the expression. -/
theorem reader_endsHere {stop : Stop} {rest : List Token} (h : EndsHere stop rest)
    (previous : Option Tree) : reader stop previous rest = .ok (previous, rest) := by
  obtain ⟨t, more, rfl, hends⟩ := h
  exact reader_stop hends previous more

/-- Where an item is read that is not empty, its list does not end. -/
theorem not_close_of_reader {separator close : String} {first : Token} {behind rest : List Token}
    {t : Tree} (h : reader (.item separator close) none (first :: behind) = .ok (some t, rest)) :
    first.kind.isText close = false := by
  cases hclose : first.kind.isText close with
  | false => rfl
  | true =>
    have hends : (Stop.item separator close).endsAt first.kind = .ok true := by
      simp [Stop.endsAt, hclose]
    obtain ⟨hnone, -⟩ := reader_orderly.stays hends h
    exact nomatch hnone

/-- Arguments are read back up to their closing bracket. -/
theorem items_commaTokens {rest : List Token} (hrest : rest ≠ []) :
    ∀ (args : List Tree), args ≠ [] → (∀ t ∈ args, ReadsBack t) →
      ∀ fuel : Nat, args.length ≤ fuel →
        items none reader "," ")" fuel
          (commaTokens (Tree.listTokens args) ++ .sign ')' :: rest) = .ok (args, rest) := by
  intro args
  induction args with
  | nil => intro hne; exact absurd rfl hne
  | cons t args ih =>
    intro _ hread fuel hfuel
    have ht : ReadsBack t := hread t List.mem_cons_self
    obtain ⟨fuel, rfl⟩ : ∃ k, fuel = k + 1 := ⟨fuel - 1, by simp at hfuel; omega⟩
    -- the last argument ends at the bracket, any other one at a comma
    cases args with
    | nil =>
      have hclose : EndsHere (.item "," ")") (.sign ')' :: rest) := ⟨_, _, rfl, rfl⟩
      have htokens : commaTokens (Tree.listTokens [t]) = t.tokens := by
        simp [commaTokens, Tree.listTokens]
      rw [htokens, items_round hrest (ht _ .argument _ hclose)]
      rfl
    | cons u args =>
      have htokens : commaTokens (Tree.listTokens (t :: u :: args)) ++ .sign ')' :: rest
          = t.tokens ++ .sign ',' ::
            (commaTokens (Tree.listTokens (u :: args)) ++ .sign ')' :: rest) := by
        simp [commaTokens, Tree.listTokens, List.intercalate_cons_cons]
      have hcomma : EndsHere (.item "," ")")
          (.sign ',' :: (commaTokens (Tree.listTokens (u :: args)) ++ .sign ')' :: rest)) :=
        ⟨_, _, rfl, rfl⟩
      rw [htokens, items_round (by simp) (ht _ .argument _ hcomma),
        ih (List.cons_ne_nil _ _) (fun x hx => hread x (List.mem_cons_of_mem _ hx)) fuel
          (by simp at hfuel ⊢; omega)]
      rfl

/-- The statements of a body are read back up to its closing brace. -/
theorem items_semicolonTokens {rest : List Token} (hrest : rest ≠ []) :
    ∀ (body : List Tree), (∀ t ∈ body, ReadsBack t) →
      ∀ fuel : Nat, body.length < fuel →
        items none reader ";" "\x7d" fuel
          (semicolonTokens (Tree.listTokens body) ++ .sign '\x7d' :: rest) = .ok (body, rest) := by
  intro body
  induction body with
  | nil =>
    -- behind the last semicolon an empty item is read, which is dropped
    intro _ fuel hfuel
    obtain ⟨fuel, rfl⟩ : ∃ k, fuel = k + 1 := ⟨fuel - 1, by simp at hfuel; omega⟩
    have hclose : EndsHere (.item ";" "\x7d") (.sign '\x7d' :: rest) := ⟨_, _, rfl, rfl⟩
    rw [show semicolonTokens (Tree.listTokens []) = [] from rfl, List.nil_append,
      items_round hrest (reader_endsHere hclose none)]
    rfl
  | cons t body ih =>
    intro hread fuel hfuel
    obtain ⟨fuel, rfl⟩ : ∃ k, fuel = k + 1 := ⟨fuel - 1, by simp at hfuel; omega⟩
    have ht : ReadsBack t := hread t List.mem_cons_self
    have htokens : semicolonTokens (Tree.listTokens (t :: body)) ++ .sign '\x7d' :: rest
        = t.tokens ++ .sign ';' ::
          (semicolonTokens (Tree.listTokens body) ++ .sign '\x7d' :: rest) := by
      simp [semicolonTokens, Tree.listTokens]
    have hsemicolon : EndsHere (.item ";" "\x7d")
        (.sign ';' :: (semicolonTokens (Tree.listTokens body) ++ .sign '\x7d' :: rest)) :=
      ⟨_, _, rfl, rfl⟩
    rw [htokens, items_round (by simp) (ht _ .body _ hsemicolon),
      ih (fun x hx => hread x (List.mem_cons_of_mem _ hx)) fuel (by simp at hfuel; omega)]
    rfl

/-- A tree that is read back has a first token, at which no item of a list ends. -/
theorem ReadsBack.first {t : Tree} (h : ReadsBack t) {separator close : String}
    (hstop : (Stop.item separator close).Used) (sign : Token)
    (hsign : (Stop.item separator close).endsAt sign.kind = .ok true) :
    ∃ first more, t.tokens = first :: more ∧ first.kind.isText close = false := by
  have hread := h _ hstop [sign] ⟨_, _, rfl, hsign⟩
  cases htokens : t.tokens with
  | nil =>
    -- from no tokens nothing would be read, and not the tree
    rw [htokens, List.nil_append, reader_stop hsign] at hread
    injection hread with hread
    injection hread with hnone _
    exact nomatch hnone
  | cons first more =>
    rw [htokens] at hread
    exact ⟨first, more, rfl, not_close_of_reader hread⟩

/-- Every item of a written list has a token of its own. -/
theorem length_le_tokens {trees : List Tree} (h : ∀ t ∈ trees, ReadsBack t) :
    trees.length ≤ (commaTokens (Tree.listTokens trees)).length ∧
      trees.length ≤ (semicolonTokens (Tree.listTokens trees)).length := by
  induction trees with
  | nil => exact ⟨Nat.zero_le _, Nat.zero_le _⟩
  | cons t trees ih =>
    obtain ⟨hcomma, hsemicolon⟩ := ih fun u hu => h u (List.mem_cons_of_mem _ hu)
    obtain ⟨first, more, htokens, -⟩ :=
      (h t List.mem_cons_self).first .argument (.sign ')') rfl
    constructor
    · cases trees with
      | nil => simp [commaTokens, Tree.listTokens, htokens]
      | cons u trees =>
        simp only [commaTokens, Tree.listTokens, List.intercalate_cons_cons, htokens,
          List.length_append, List.length_cons] at hcomma ⊢
        omega
    · simp only [semicolonTokens, Tree.listTokens, List.flatMap_cons, htokens,
        List.length_append, List.length_cons] at hsemicolon ⊢
      omega

/-- An argument list is read back with its closing bracket. -/
theorem group_commaTokens {rest : List Token} (hrest : rest ≠ []) {args : List Tree}
    (h : ∀ t ∈ args, ReadsBack t) :
    group none reader "," ")" (commaTokens (Tree.listTokens args) ++ .sign ')' :: rest)
      = .ok (args, rest) := by
  cases args with
  | nil => exact group_close (.sign ')') rfl rest
  | cons t args =>
    obtain ⟨first, more, htokens, hclose⟩ :=
      (h t List.mem_cons_self).first .argument (.sign ')') rfl
    obtain ⟨behind, hbehind⟩ :
        ∃ behind, commaTokens (Tree.listTokens (t :: args)) ++ .sign ')' :: rest
          = first :: behind := by
      cases args with
      | nil => exact ⟨_, by simp [commaTokens, Tree.listTokens, htokens]; rfl⟩
      | cons u args =>
        exact ⟨_, by
          simp [commaTokens, Tree.listTokens, List.intercalate_cons_cons, htokens]; rfl⟩
    -- the fuel is the number of tokens, so there is some for every argument
    have hfuel := (length_le_tokens h).1
    rw [hbehind]
    refine group_of_items hclose ?_
    rw [← hbehind]
    exact items_commaTokens hrest (t :: args) (List.cons_ne_nil _ _) h _ (by
      simp only [List.length_append] at hfuel ⊢
      omega)

/-- A body is read back with its closing brace. -/
theorem group_semicolonTokens {rest : List Token} (hrest : rest ≠ []) {body : List Tree}
    (h : ∀ t ∈ body, ReadsBack t) :
    group none reader ";" "\x7d"
        (semicolonTokens (Tree.listTokens body) ++ .sign '\x7d' :: rest) = .ok (body, rest) := by
  cases body with
  | nil => exact group_close (.sign '\x7d') rfl rest
  | cons t body =>
    obtain ⟨first, more, htokens, hclose⟩ :=
      (h t List.mem_cons_self).first .body (.sign '\x7d') rfl
    obtain ⟨behind, hbehind⟩ :
        ∃ behind, semicolonTokens (Tree.listTokens (t :: body)) ++ .sign '\x7d' :: rest
          = first :: behind :=
      ⟨_, by simp [semicolonTokens, Tree.listTokens, htokens]; rfl⟩
    have hfuel := (length_le_tokens h).2
    rw [hbehind]
    refine group_of_items hclose ?_
    rw [← hbehind]
    exact items_semicolonTokens hrest (t :: body) h _ (by
      simp only [List.length_append, List.length_cons] at hfuel ⊢
      omega)

/-! ## §5. Reading written trees back -/

/-- A tree's tokens become what has been read so far. -/
def ReadsOn (t : Tree) : Prop :=
  ∀ stop : Stop, stop.Used → ∀ rest : List Token, rest ≠ [] →
    reader stop none (t.tokens ++ rest) = reader stop (some t) rest

/-- An operand that becomes what has been read is also read back as a whole. -/
theorem ReadsOn.readsBack {t : Tree} (h : ReadsOn t) : ReadsBack t := by
  intro stop hstop rest hrest
  have hne : rest ≠ [] := by
    obtain ⟨u, more, rfl, -⟩ := hrest
    exact List.cons_ne_nil _ _
  rw [h stop hstop rest hne]
  exact reader_endsHere hrest (some t)

theorem readsOn_symbol (name : Value) : ReadsOn (.symbol name) := by
  intro stop hstop rest _
  exact reader_leaf (t := nameToken name) (hstop.goes (by decide)) rfl rest

/-- What may be missing in front of a token is read before it. -/
theorem reader_optionTokens {left : Option Tree} (h : ∀ t ∈ left, ReadsOn t) {stop : Stop}
    (hstop : stop.Used) {rest : List Token} (hrest : rest ≠ []) :
    reader stop none (Tree.optionTokens left ++ rest) = reader stop left rest := by
  cases left with
  | none => rfl
  | some t => exact h t rfl stop hstop rest hrest

/-- What may be missing at the end of an expression is read up to there. -/
theorem reader_optionTokens_end {right : Option Tree} (h : ∀ t ∈ right, ReadsBack t) {stop : Stop}
    (hstop : stop.Used) {rest : List Token} (hrest : EndsHere stop rest) :
    reader stop none (Tree.optionTokens right ++ rest) = .ok (right, rest) := by
  cases right with
  | none => exact reader_endsHere hrest none
  | some t => exact h t rfl stop hstop rest hrest

theorem listTokens_symbols (params : List Value) :
    Tree.listTokens (params.map Tree.symbol) = params.map fun p => [nameToken p] := by
  induction params with
  | nil => rfl
  | cons p params ih => rw [List.map_cons, Tree.listTokens, ih]; rfl

theorem mapM_parameterName (params : List Value) :
    (params.map Tree.symbol).mapM parameterName = .ok params := by
  induction params with
  | nil => rfl
  | cons p params ih =>
    simp only [List.map_cons, List.mapM_cons, ih, parameterName, bind, Except.bind]
    rfl

/-- Behind a colon and a bracket, the parameters are a list of expressions that are names. -/
theorem parameters_colon (tokens : List Token) :
    parameters none reader (.sign ':' :: .sign '(' :: tokens) = (do
      let r ← group none reader "," ")" tokens
      let names ← r.1.mapM parameterName
      return (names, r.2)) := by
  unfold parameters
  simp only [glance, advance_none, bind, Except.bind]
  rfl

/-- A parameter list is read back; where there is none, nothing that follows is taken for one. -/
theorem parameters_parameterTokens {params : List Value} {next : Token} {rest : List Token}
    (hnext : next.kind.isText ":" = false) :
    parameters none reader (parameterTokens params ++ next :: rest)
      = .ok (params, next :: rest) := by
  cases params with
  | nil =>
    show parameters none reader (next :: rest) = _
    unfold parameters
    simp only [glance, bind, Except.bind, hnext]
    rfl
  | cons p params =>
    -- the names are written as arguments would be, so they are read back as symbols
    have hsymbols : ∀ t ∈ (p :: params).map Tree.symbol, ReadsBack t := by
      intro t ht
      obtain ⟨name, -, rfl⟩ := List.mem_map.1 ht
      exact (readsOn_symbol name).readsBack
    have hgroup := group_commaTokens (List.cons_ne_nil next rest) hsymbols
    rw [listTokens_symbols] at hgroup
    have htokens : parameterTokens (p :: params) ++ next :: rest = .sign ':' :: .sign '(' ::
        (commaTokens ((p :: params).map fun p => [nameToken p]) ++ .sign ')' :: next :: rest) := by
      simp [parameterTokens]
    rw [htokens, parameters_colon, hgroup]
    simp only [bind, Except.bind, mapM_parameterName]
    rfl

/-- No expression starts with a colon. -/
theorem reader_colon {stop : Stop} (hstop : stop.Used) {t : Token}
    (ht : t.kind.isText ":" = true) (rest : List Token) :
    ∃ f, reader stop none (t :: rest) = .error f := by
  obtain ⟨kind, value⟩ := t
  obtain rfl : kind = .text ":" := by
    cases kind <;> simp_all [Value.isText]
  refine ⟨_, reader_sign (t := ⟨.text ":", value⟩) ?_ rfl none rest⟩
  cases hstop <;> rfl

/-- The first token of a body and its closing brace is no colon. -/
theorem body_first {body : List Tree} (h : ∀ t ∈ body, ReadsBack t) (rest : List Token) :
    ∃ next more, semicolonTokens (Tree.listTokens body) ++ .sign '\x7d' :: rest = next :: more ∧
      next.kind.isText ":" = false := by
  cases body with
  | nil => exact ⟨.sign '\x7d', rest, rfl, rfl⟩
  | cons t body =>
    have ht : ReadsBack t := h t List.mem_cons_self
    obtain ⟨first, more, htokens, -⟩ := ht.first .body (.sign '\x7d') rfl
    refine ⟨first, more ++ .sign ';' ::
      (semicolonTokens (Tree.listTokens body) ++ .sign '\x7d' :: rest), ?_, ?_⟩
    · simp [semicolonTokens, Tree.listTokens, htokens]
    · cases hcolon : first.kind.isText ":" with
      | false => rfl
      | true =>
        -- then the first statement could not be read at all
        have hread := ht _ .statement [.sign ';'] ⟨_, _, rfl, rfl⟩
        obtain ⟨f, hf⟩ := reader_colon .statement hcolon (more ++ [.sign ';'])
        rw [htokens, List.cons_append, hf] at hread
        exact nomatch hread

/-- What reading the tokens of a tree gives, by its grade. -/
def Reads : Grade → Tree → Prop
  | .operand, t => ReadsOn t
  | .expression, t => ReadsBack t

/-- **The tokens of a grammatical tree are read back.**  The induction goes along the derivation;
    an operand hands over to what follows it, and an expression ends where it must. -/
theorem Tree.Grammatical.reads {grade : Grade} {t : Tree} (h : t.Grammatical grade) :
    Reads grade t := by
  induction h with
  | number h =>
    intro stop hstop rest _
    exact reader_leaf (t := ⟨.text "number", _⟩) (hstop.goes (by decide)) rfl rest
  | string h =>
    intro stop hstop rest _
    exact reader_leaf (t := ⟨.text "string", _⟩) (hstop.goes (by decide)) rfl rest
  | symbol h => exact readsOn_symbol _
  | @function params body _ _ ih =>
    intro stop hstop rest hrest
    -- without parameters the body follows at once, and must not be taken for a parameter list
    obtain ⟨next, more, hbody, hnext⟩ := body_first ih rest
    have hgroup := group_semicolonTokens hrest ih
    have htokens : (Tree.function params body).tokens ++ rest = .sign '\x7b' ::
        (parameterTokens params ++
          (semicolonTokens (Tree.listTokens body) ++ .sign '\x7d' :: rest)) := by
      simp [Tree.tokens]
    rw [htokens, reader_brace hstop, hbody, parameters_parameterTokens hnext, ← hbody]
    simp only [bind, Except.bind, hgroup]
  | @call callee args _ _ ihcallee ihargs =>
    intro stop hstop rest hrest
    have htokens : (Tree.call callee args).tokens ++ rest = Tree.optionTokens callee ++
        .sign '(' :: (commaTokens (Tree.listTokens args) ++ .sign ')' :: rest) := by
      simp [Tree.tokens]
    rw [htokens, reader_optionTokens ihcallee hstop (List.cons_ne_nil _ _), reader_bracket hstop,
      group_commaTokens hrest ihargs]
    rfl
  | operand _ ih => exact ReadsOn.readsBack ih
  | @operation op left right _ _ _ ihleft ihright =>
    intro stop hstop rest hrest
    have htokens : (Tree.operation (.text op) left right).tokens ++ rest
        = Tree.optionTokens left ++
          ⟨.text "operation", .text op⟩ :: (Tree.optionTokens right ++ rest) := by
      simp [Tree.tokens]
    rw [htokens, reader_optionTokens ihleft hstop (List.cons_ne_nil _ _), reader_operation hstop,
      reader_optionTokens_end ihright hstop hrest]
    -- the right operand has taken everything up to the end
    exact reader_endsHere hrest _
  | @assignment name value _ _ ih =>
    intro stop hstop rest hrest
    show reader stop none (nameToken name :: .sign '=' :: (Tree.optionTokens value ++ rest)) = _
    rw [reader_leaf (t := nameToken name) (hstop.goes (by decide)) rfl, reader_equals hstop,
      reader_optionTokens_end ih hstop hrest]
    exact reader_endsHere hrest _

/-! ## §6. Reading written programs back -/

/-- The tokens of statements are read back, each up to its semicolon. -/
theorem ofList_programTokens (depth : Nat) :
    ∀ (statements : List Tree), (∀ t ∈ statements, ReadsBack t) →
      (programTokens statements).length < depth → ∀ fuel : Nat, statements.length ≤ fuel →
        Program.ofList none depth fuel (programTokens statements) = ⟨statements, none⟩ := by
  intro statements
  induction statements with
  | nil => intro _ _ fuel _; cases fuel <;> rfl
  | cons t statements ih =>
    intro hread hdepth fuel hfuel
    obtain ⟨fuel, rfl⟩ : ∃ k, fuel = k + 1 := ⟨fuel - 1, by simp at hfuel; omega⟩
    have htokens : programTokens (t :: statements)
        = t.tokens ++ .sign ';' :: programTokens statements := by
      simp [programTokens, semicolonTokens, Tree.listTokens]
    obtain ⟨first, more, hfirst, -⟩ :=
      (hread t List.mem_cons_self).first .body (.sign '\x7d') rfl
    have hstatement : expression none depth .statement none (programTokens (t :: statements))
        = .ok (some t, .sign ';' :: programTokens statements) := by
      rw [expression_eq_full none hdepth, htokens]
      exact hread t List.mem_cons_self .statement .statement _ ⟨_, _, rfl, rfl⟩
    have hrest := ih (fun u hu => hread u (List.mem_cons_of_mem _ hu))
      (by rw [htokens] at hdepth; simp at hdepth; omega) fuel (by simpa using hfuel)
    rw [htokens, hfirst, List.cons_append] at hstatement ⊢
    rw [Program.ofList, hstatement]
    · simp only [advance_none, hrest]
      rfl
    · simp

theorem listTokens_eq_map (trees : List Tree) : Tree.listTokens trees = trees.map Tree.tokens := by
  induction trees with
  | nil => rfl
  | cons t trees ih => rw [Tree.listTokens, ih]; rfl

/-- The tokens of a list with commas are the commas and the tokens of its items. -/
theorem mem_commaTokens {u : Token} :
    ∀ items : List (List Token), u ∈ commaTokens items →
      u = .sign ',' ∨ ∃ item ∈ items, u ∈ item
  | [], h => nomatch h
  | [item], h => .inr ⟨item, List.mem_cons_self, by simpa [commaTokens] using h⟩
  | item :: next :: items, h => by
    rw [commaTokens, List.intercalate_cons_cons, List.mem_append, List.mem_append] at h
    rcases h with (h | h) | h
    · exact .inr ⟨item, List.mem_cons_self, h⟩
    · exact .inl (List.mem_singleton.1 h)
    · rcases mem_commaTokens (next :: items) h with h | ⟨item', hitem', h⟩
      · exact .inl h
      · exact .inr ⟨item', List.mem_cons_of_mem _ hitem', h⟩

theorem nameToken_lexical {name : Value} (h : IsName name) : (nameToken name).Lexical := by
  obtain ⟨s, rfl, hs⟩ := h
  exact .symbol hs

/-- The tokens of arguments are lexical if those of each argument are. -/
theorem commaTokens_lexical {items : List (List Token)}
    (h : ∀ item ∈ items, ∀ u ∈ item, u.Lexical) : ∀ u ∈ commaTokens items, u.Lexical := by
  intro u hu
  rcases mem_commaTokens _ hu with rfl | ⟨item, hitem, hu⟩
  · exact .sign rfl
  · exact h item hitem u hu

/-- The tokens of statements are lexical if those of each statement are. -/
theorem semicolonTokens_lexical {trees : List Tree} (h : ∀ t ∈ trees, ∀ u ∈ t.tokens, u.Lexical) :
    ∀ u ∈ semicolonTokens (Tree.listTokens trees), u.Lexical := by
  intro u hu
  rw [semicolonTokens, listTokens_eq_map, List.mem_flatMap] at hu
  obtain ⟨item, hitem, hu⟩ := hu
  obtain ⟨t, ht, rfl⟩ := List.mem_map.1 hitem
  rcases List.mem_append.1 hu with hu | hu
  · exact h t ht u hu
  · rw [List.mem_singleton.1 hu]
    exact .sign rfl

theorem optionTokens_lexical {tree : Option Tree} (h : ∀ t ∈ tree, ∀ u ∈ t.tokens, u.Lexical) :
    ∀ u ∈ Tree.optionTokens tree, u.Lexical := by
  cases tree with
  | none => intro u hu; exact nomatch hu
  | some t => exact h t rfl

theorem parameterTokens_lexical {params : List Value} (h : ∀ p ∈ params, IsName p) :
    ∀ u ∈ parameterTokens params, u.Lexical := by
  cases params with
  | nil => intro u hu; exact nomatch hu
  | cons p params =>
    intro u hu
    simp only [parameterTokens, List.mem_cons, List.mem_append, List.not_mem_nil, or_false] at hu
    rcases hu with rfl | rfl | hu | rfl
    · exact .sign rfl
    · exact .sign rfl
    · refine commaTokens_lexical ?_ u hu
      intro item hitem v hv
      obtain ⟨name, hname, rfl⟩ := List.mem_map.1 hitem
      rw [List.mem_singleton.1 hv]
      exact nameToken_lexical (h name hname)
    · exact .sign rfl

/-- The tokens of a grammatical tree are lexical. -/
theorem Tree.Grammatical.lexical {grade : Grade} {t : Tree} (h : t.Grammatical grade) :
    ∀ u ∈ t.tokens, u.Lexical := by
  induction h with
  | number h => intro u hu; rw [List.mem_singleton.1 hu]; exact .number h
  | string h => intro u hu; rw [List.mem_singleton.1 hu]; exact .string h
  | symbol h => intro u hu; rw [List.mem_singleton.1 hu]; exact nameToken_lexical h
  | @function params body hparams _ ih =>
    intro u hu
    simp only [Tree.tokens, List.mem_cons, List.mem_append, List.not_mem_nil, or_false] at hu
    rcases hu with rfl | hu | hu | rfl
    · exact .sign rfl
    · exact parameterTokens_lexical hparams u hu
    · exact semicolonTokens_lexical ih u hu
    · exact .sign rfl
  | @call callee args _ _ ihcallee ihargs =>
    intro u hu
    simp only [Tree.tokens, List.mem_cons, List.mem_append, List.not_mem_nil, or_false] at hu
    rcases hu with hu | rfl | hu | rfl
    · exact optionTokens_lexical ihcallee u hu
    · exact .sign rfl
    · refine commaTokens_lexical ?_ u hu
      rw [listTokens_eq_map]
      intro item hitem
      obtain ⟨t, ht, rfl⟩ := List.mem_map.1 hitem
      exact ihargs t ht
    · exact .sign rfl
  | operand _ ih => exact ih
  | @operation op left right hop _ _ ihleft ihright =>
    intro u hu
    simp only [Tree.tokens, List.mem_cons, List.mem_append] at hu
    rcases hu with hu | rfl | hu
    · exact optionTokens_lexical ihleft u hu
    · exact .operation hop
    · exact optionTokens_lexical ihright u hu
  | @assignment name value hname _ ih =>
    intro u hu
    simp only [Tree.tokens, List.mem_cons] at hu
    rcases hu with rfl | rfl | hu
    · exact nameToken_lexical hname
    · exact .sign rfl
    · exact optionTokens_lexical ih u hu

/-- Cutting the text of grammatical statements up gives their tokens. -/
theorem ofText_programText (q : Quoting) {statements : List Tree}
    (h : ∀ t ∈ statements, t.Grammatical .expression) :
    Tokens.ofText (programText q statements) = ⟨programTokens statements, none⟩ := by
  rw [Tokens.ofText, programText, String.toList_ofList]
  exact ofChars_spellTokens q _ (semicolonTokens_lexical fun t ht => (h t ht).lexical)

/-- **Writing grammatical statements out and reading the text gives them back**, with enough
    layers. -/
theorem ofText_written (q : Quoting) {statements : List Tree}
    (h : ∀ t ∈ statements, t.Grammatical .expression) {depth : Nat}
    (hdepth : (programTokens statements).length < depth) :
    Program.ofText depth (programText q statements) = ⟨statements, none⟩ := by
  have hread : ∀ t ∈ statements, ReadsBack t := fun t ht => (h t ht).reads
  rw [Program.ofText, ofText_programText q h, Program.ofTokens]
  cases htokens : programTokens statements with
  | nil =>
    cases statements with
    | nil => rfl
    | cons t statements =>
      -- a statement has at least one token
      have := (length_le_tokens hread).2
      rw [show semicolonTokens (Tree.listTokens (t :: statements)) = [] from htokens] at this
      simp at this
  | cons u tokens =>
    show Program.ofList none depth (u :: tokens).length (u :: tokens) = _
    rw [← htokens]
    exact ofList_programTokens depth statements hread hdepth _ (length_le_tokens hread).2

/-! ## §7. Only grammatical trees are read -/

/-- All tokens are lexical. -/
def AllLexical (tokens : List Token) : Prop := ∀ t ∈ tokens, t.Lexical

theorem AllLexical.suffix {tokens rest : List Token} (h : AllLexical tokens)
    (hrest : rest <:+ tokens) : AllLexical rest :=
  fun t ht => h t (hrest.subset ht)

/-- A parser reads grammatical expressions from lexical tokens when it starts from an operand or
    from nothing. -/
def ReadsGrammatical (p : ExpressionParser) : Prop :=
  ∀ {stop : Stop} {previous result : Option Tree} {tokens rest : List Token},
    AllLexical tokens → (∀ t ∈ previous, t.Grammatical .operand) →
      p stop previous tokens = .ok (result, rest) → ∀ t ∈ result, t.Grammatical .expression

/-- Starting from nothing is always fine. -/
theorem nothing_operand : ∀ t ∈ (none : Option Tree), t.Grammatical .operand :=
  fun _ h => nomatch h

/-- A lexical token that is an expression by itself is an operand. -/
theorem leaf_grammatical {t : Token} {leaf : Tree} (ht : t.Lexical) (h : leaf? t = some leaf) :
    leaf.Grammatical .operand := by
  cases ht with
  | number hs => injection h with h; subst h; exact .number hs
  | string hs => injection h with h; subst h; exact .string hs
  | symbol hs => injection h with h; subst h; exact .symbol ⟨_, rfl, hs⟩
  | operation hs => cases h
  | sign hc =>
    simp only [isSign, Bool.or_eq_true, beq_iff_eq] at hc
    rcases hc with ((((((rfl | rfl) | rfl) | rfl) | rfl) | rfl) | rfl) | rfl <;> cases h

/-- A lexical token of the kind of operators has the text of one. -/
theorem operation_of_lexical {t : Token} (ht : t.Lexical)
    (h : t.kind.isText "operation" = true) :
    ∃ op : String, t.value = .text op ∧ isOperatorText op = true := by
  cases ht with
  | number hs => cases h
  | string hs => cases h
  | symbol hs => cases h
  | operation hs => exact ⟨_, rfl, hs⟩
  | sign hc =>
    simp only [isSign, Bool.or_eq_true, beq_iff_eq] at hc
    rcases hc with ((((((rfl | rfl) | rfl) | rfl) | rfl) | rfl) | rfl) | rfl <;> cases h

/-- The name of a symbol that is an expression is a name. -/
theorem isName_of_symbol {grade : Grade} {name : Value}
    (h : (Tree.symbol name).Grammatical grade) : IsName name := by
  cases h with
  | symbol h => exact h
  | operand h =>
    cases h with
    | symbol h => exact h

/-- Names come from symbols. -/
theorem eq_symbols_of_mapM {trees : List Tree} {names : List Value}
    (h : trees.mapM parameterName = .ok names) : trees = names.map .symbol := by
  induction trees generalizing names with
  | nil =>
    injection h with h
    subst h
    rfl
  | cons t trees ih =>
    rw [List.mapM_cons, bind_eq_ok] at h
    obtain ⟨first, hfirst, h⟩ := h
    rw [bind_eq_ok] at h
    obtain ⟨others, hothers, h⟩ := h
    injection h with h
    subst h
    have ht : t = .symbol first := by
      cases t with
      | symbol name => injection hfirst with hfirst; rw [hfirst]
      | _ => exact nomatch hfirst
    rw [ht, ih hothers, List.map_cons]

theorem mem_mapM_parameterName {trees : List Tree} {names : List Value}
    (h : trees.mapM parameterName = .ok names) : ∀ name ∈ names, .symbol name ∈ trees := by
  intro name hname
  rw [eq_symbols_of_mapM h]
  exact List.mem_map_of_mem hname

section Grammatical

variable {ending : Option Fault} {inner : ExpressionParser}

theorem items_grammatical (horderly : Orderly inner) (hinner : ReadsGrammatical inner)
    {separator close : String} :
    ∀ {fuel : Nat} {tokens rest : List Token} {trees : List Tree}, AllLexical tokens →
      items ending inner separator close fuel tokens = .ok (trees, rest) →
        ∀ t ∈ trees, t.Grammatical .expression := by
  intro fuel
  induction fuel with
  | zero => intro tokens rest trees _ h; exact nomatch h
  | succ fuel ih =>
    intro tokens rest trees htokens h
    obtain ⟨item, stop, behind, hitem, -, hend⟩ := items_succ_eq_ok h
    have hgood : ∀ t ∈ item.toList, t.Grammatical .expression := by
      intro t ht
      exact hinner htokens nothing_operand hitem t (Option.mem_toList.1 ht)
    have hbehind : behind <:+ tokens := (List.suffix_cons _ _).trans (horderly.suffix hitem)
    obtain ⟨-, rfl, -⟩ | ⟨-, more, hmore, rfl⟩ := hend
    · exact hgood
    · intro t ht
      rcases List.mem_append.1 ht with ht | ht
      · exact hgood t ht
      · exact ih (htokens.suffix hbehind) hmore t ht

theorem group_grammatical (horderly : Orderly inner) (hinner : ReadsGrammatical inner)
    {separator close : String} {tokens rest : List Token} {trees : List Tree}
    (htokens : AllLexical tokens)
    (h : group ending inner separator close tokens = .ok (trees, rest)) :
    ∀ t ∈ trees, t.Grammatical .expression := by
  obtain ⟨first, -, -, rfl⟩ | ⟨-, -, -, -, h⟩ := group_cases h
  · intro t ht
    exact nomatch ht
  · exact items_grammatical horderly hinner htokens h

theorem parameters_grammatical (horderly : Orderly inner) (hinner : ReadsGrammatical inner)
    {tokens rest : List Token} {names : List Value} (htokens : AllLexical tokens)
    (h : parameters ending inner tokens = .ok (names, rest)) : ∀ name ∈ names, IsName name := by
  obtain ⟨-, -, -, -, rfl, -⟩ | ⟨colon, bracket, inside, trees, -, -, rfl, hgroup, hnames⟩ :=
    parameters_cases h
  · intro name hname
    exact nomatch hname
  · intro name hname
    have hinside : AllLexical inside :=
      htokens.suffix ((List.suffix_cons _ _).trans (List.suffix_cons _ _))
    exact isName_of_symbol
      (group_grammatical horderly hinner hinside hgroup _ (mem_mapM_parameterName hnames name hname))

/-- Behind a token, an operator and an assignment take all that is left of the expression, so they
    never become an operand; a call and a function do. -/
theorem continueWith_grammatical (horderly : Orderly inner) (hinner : ReadsGrammatical inner)
    {stop : Stop} {previous result : Option Tree} {t : Token} {tokens rest : List Token}
    (ht : t.Lexical) (htokens : AllLexical tokens) (hprevious : ∀ t ∈ previous, t.Grammatical .operand)
    (h : continueWith ending inner stop previous t tokens = .ok (result, rest)) :
    ∀ t ∈ result, t.Grammatical .expression := by
  obtain ⟨right, left, hkind, hright, h⟩ | ⟨args, left, -, hargs, h⟩ |
    ⟨params, left, body, left', -, hparams, hbody, h⟩ | ⟨name, value, left, -, rfl, hvalue, h⟩ :=
    continueWith_cases h
  · -- the right operand ends where the whole expression does, so nothing more is read
    obtain ⟨op, hvalue, hop⟩ := operation_of_lexical ht hkind
    have hgood := hinner htokens nothing_operand hright
    obtain ⟨u, more, rfl, hends⟩ := horderly.stops hright
    obtain ⟨rfl, -⟩ := horderly.stays hends h
    have hoperation : (Tree.operation (.text op) previous right).Grammatical .expression :=
      .operation hop hprevious hgood
    rw [hvalue]
    simpa using hoperation
  · -- a call is an operand of what follows it, and so is a function
    have hgood := group_grammatical horderly hinner htokens hargs
    have hcall : (Tree.call previous args).Grammatical .operand := .call hprevious hgood
    exact hinner (htokens.suffix (group_suffix horderly hargs)) (by simpa using hcall) h
  · have hleft : AllLexical left := htokens.suffix (parameters_suffix horderly hparams)
    have hnames := parameters_grammatical horderly hinner htokens hparams
    have hgood := group_grammatical horderly hinner hleft hbody
    have hfunction : (Tree.function params body).Grammatical .operand := .function hnames hgood
    exact hinner (hleft.suffix (group_suffix horderly hbody)) (by simpa using hfunction) h
  · have hgood := hinner htokens nothing_operand hvalue
    obtain ⟨u, more, rfl, hends⟩ := horderly.stops hvalue
    obtain ⟨rfl, -⟩ := horderly.stays hends h
    have hassignment : (Tree.assignment name value).Grammatical .expression :=
      .assignment (isName_of_symbol (hprevious _ rfl)) hgood
    simpa using hassignment

theorem expressionLayer_grammatical (horderly : Orderly inner) (hinner : ReadsGrammatical inner) :
    ReadsGrammatical (expressionLayer ending inner) := by
  intro stop previous result tokens rest htokens hprevious h
  obtain ⟨t, behind, rfl, ⟨-, rfl, -⟩ | ⟨-, ⟨leaf, -, hleaf, h⟩ | ⟨-, h⟩⟩⟩ :=
    expressionLayer_cases h
  · intro t ht
    exact .operand (hprevious t ht)
  · have hoperand := leaf_grammatical (htokens t List.mem_cons_self) hleaf
    exact hinner (htokens.suffix (List.suffix_cons _ _)) (by simpa using hoperand) h
  · exact continueWith_grammatical horderly hinner (htokens t List.mem_cons_self)
      (htokens.suffix (List.suffix_cons _ _)) hprevious h

end Grammatical

/-- However many layers it has, the parser reads grammatical expressions. -/
theorem expression_grammatical (ending : Option Fault) :
    ∀ depth : Nat, ReadsGrammatical (expression ending depth) := by
  intro depth
  induction depth with
  | zero => intro stop previous result tokens rest _ _ h; exact nomatch h
  | succ depth ih => exact expressionLayer_grammatical (expression_orderly ending depth) ih

/-- All statements read from lexical tokens are grammatical, also in front of a fault. -/
theorem ofList_grammatical (ending : Option Fault) (depth : Nat) :
    ∀ (fuel : Nat) (tokens : List Token), AllLexical tokens →
      ∀ t ∈ (Program.ofList ending depth fuel tokens).statements, t.Grammatical .expression := by
  intro fuel
  induction fuel with
  | zero => intro tokens _ t ht; exact nomatch ht
  | succ fuel ih =>
    intro tokens htokens t ht
    cases tokens with
    | nil => exact nomatch ht
    | cons u tokens =>
      rw [Program.ofList] at ht
      · cases hstatement : expression ending depth .statement none (u :: tokens) with
        | error f => rw [hstatement] at ht; exact nomatch ht
        | ok r =>
          obtain ⟨statement, left⟩ := r
          have hgood : ∀ t ∈ statement, t.Grammatical .expression :=
            expression_grammatical ending depth htokens nothing_operand hstatement
          have hleft : left <:+ u :: tokens := (expression_orderly ending depth).suffix hstatement
          rw [hstatement] at ht
          simp only at ht
          cases hbehind : advance ending left with
          | error f =>
            rw [hbehind] at ht
            exact hgood t (Option.mem_toList.1 ht)
          | ok behind =>
            rw [hbehind] at ht
            rcases List.mem_append.1 ht with ht | ht
            · exact hgood t (Option.mem_toList.1 ht)
            · refine ih behind ?_ t ht
              cases left with
              | nil =>
                injection hbehind with hbehind
                subst hbehind
                exact fun t ht => nomatch ht
              | cons v left =>
                obtain rfl := advance_eq_ok hbehind
                exact htokens.suffix ((List.suffix_cons _ _).trans hleft)
      · simp

/-- **Whatever text is read, only grammatical statements come out**, also in front of a fault. -/
theorem ofText_grammatical (depth : Nat) (text : String) :
    ∀ t ∈ (Program.ofText depth text).statements, t.Grammatical .expression := by
  have hlexical : AllLexical (Tokens.ofText text).items := ofChars_lexical text.toList
  unfold Program.ofText Program.ofTokens
  split
  · intro t ht
    exact nomatch ht
  · exact ofList_grammatical _ depth _ _ hlexical

/-! ## §8. The image of the parser -/

/-- **The parser's image is the grammatical statements.**  They are read back from their text,
    whichever quotes are chosen, and nothing else is ever read from any text, also in front of a
    fault. -/
theorem program_image :
    (∀ (q : Quoting) (statements : List Tree), (∀ t ∈ statements, t.Grammatical .expression) →
      ∀ depth : Nat, (programTokens statements).length < depth →
        Program.ofText depth (programText q statements) = ⟨statements, none⟩) ∧
    (∀ (depth : Nat) (text : String),
      ∀ t ∈ (Program.ofText depth text).statements, t.Grammatical .expression) := by
  constructor
  · intro q statements h depth hdepth
    exact ofText_written q h hdepth
  · exact ofText_grammatical

/-- A statement with a call of a function literal, a string that holds a quote, and operands that
    are left out: `x = { : ( a ) a + ; } ( "it's" ) - ;`. -/
def sampleStatement : Tree :=
  .assignment (.text "x") (some (.operation (.text "-")
    (some (.call
      (some (.function [.text "a"]
        [.operation (.text "+") (some (.symbol (.text "a"))) none]))
      [.string (.text "it's")])) none))

theorem sampleStatement_grammatical : sampleStatement.Grammatical .expression := by
  have hname : ∀ s : String, isSymbolText s = true → IsName (.text s) := fun s h => ⟨s, rfl, h⟩
  refine .assignment (hname "x" (by decide)) ?_
  have hbody : (Tree.operation (.text "+") (some (.symbol (.text "a"))) none).Grammatical
      .expression :=
    .operation (by decide) (by simpa using .symbol (hname "a" (by decide))) (by simp)
  have hfunction : (Tree.function [.text "a"]
      [.operation (.text "+") (some (.symbol (.text "a"))) none]).Grammatical .operand :=
    .function (by simpa using hname "a" (by decide)) (by simpa using hbody)
  have hcall : (Tree.call (some (.function [.text "a"]
      [.operation (.text "+") (some (.symbol (.text "a"))) none]))
      [.string (.text "it's")]).Grammatical .operand :=
    .call (by simpa using hfunction) (by simpa using .operand (.string (by decide)))
  have hoperation : ∀ t : Tree, t.Grammatical .operand →
      (Tree.operation (.text "-") (some t) none).Grammatical .expression :=
    fun t ht => .operation (by decide) (by simpa using ht) (by simp)
  simpa using hoperation _ hcall

/-- The sample is read back from its text, and what is read from any text it stands in is
    grammatical. -/
theorem sampleStatement_read :
    Program.ofText 30 (programText .sparing [sampleStatement]) = ⟨[sampleStatement], none⟩ ∧
      sampleStatement.Grammatical .expression := by
  have hread := program_image.1 .sparing [sampleStatement]
    (by simpa using sampleStatement_grammatical) 30 (by decide)
  refine ⟨hread, program_image.2 30 (programText .sparing [sampleStatement]) _ ?_⟩
  rw [hread]
  exact List.mem_cons_self

end Scrawl.Grammar
