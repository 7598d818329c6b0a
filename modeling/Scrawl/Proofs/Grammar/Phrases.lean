/-
  Scrawl.Proofs.Grammar.Phrases — texts that stand for expressions.

  A PHRASE is a text that is read as an expression, or as nothing, when a semicolon follows it.  Phrases
  with signs and operators between them are phrases again: chains of operands, assignments, calls
  and functions.  Each is read as the tree that is put together from the trees of its parts, whatever
  blanks and comments its parts hold.
-/

import Scrawl.Proofs.Grammar.Appending
import Scrawl.Proofs.Grammar.Carrying
import Scrawl.Proofs.Grammar.Comments

namespace Scrawl.Grammar

/-! ## §1. Cutting up texts that are put together -/

/-- A text is cut up into tokens, without a fault. -/
def Cuts (text : String) (tokens : List Token) : Prop := Tokens.ofText text = ⟨tokens, none⟩

theorem cuts_empty : Cuts "" [] := by
  unfold Cuts Tokens.ofText
  rw [String.toList_empty, Tokens.ofChars]

section Seams

variable {front behind : String} {tokens tokens' : List Token} {c : Char}

/-- A character that is a token by itself stands between two texts. -/
theorem Cuts.between {t : Token} (h : Cuts front tokens) (hnumber : isNumberChar c = false)
    (hsymbol : isSymbolChar c = false) (hfirst : ∀ cs, Item.first c cs = .token t cs)
    (h' : Cuts behind tokens') :
    Cuts (front ++ String.singleton c ++ behind) (tokens ++ t :: tokens') := by
  unfold Cuts Tokens.ofText at h h' ⊢
  have htext : (front ++ String.singleton c ++ behind).toList
      = front.toList ++ c :: behind.toList := by simp
  rw [htext, ofChars_append_plain (by rw [h]) hnumber hsymbol, ofChars_token (hfirst _), h, h']
  rfl

theorem Cuts.sign (h : Cuts front tokens) (hc : isSign c = true) (h' : Cuts behind tokens') :
    Cuts (front ++ String.singleton c ++ behind) (tokens ++ .sign c :: tokens') := by
  simp only [isSign, Bool.or_eq_true, beq_iff_eq] at hc
  rcases hc with ((((((rfl | rfl) | rfl) | rfl) | rfl) | rfl) | rfl) | rfl <;>
    exact h.between rfl rfl (fun _ => rfl) h'

end Seams

/-! ## §2. Phrases -/

/-- A text that is read as an expression, or as nothing, up to a semicolon behind it. -/
structure Phrase where
  /-- The text. -/
  text : String
  /-- What is read. -/
  tree : Option Tree
  /-- It can be cut up. -/
  cut : (Tokens.ofText text).fault = none
  /-- It is read up to its end. -/
  read : reader .statement none ((Tokens.ofText text).items ++ [.sign ';']) = .ok (tree, [.sign ';'])

namespace Phrase

/-- The tokens of a phrase. -/
def tokens (p : Phrase) : List Token := (Tokens.ofText p.text).items

theorem cuts (p : Phrase) : Cuts p.text p.tokens := congrArg (Tokens.mk p.tokens) p.cut

theorem carries (p : Phrase) : Carries none p.tokens p.tree := reader_carrying .statement p.read

/-- A text is a phrase if its tokens are read up to any end. -/
def ofCarries {text : String} {tokens : List Token} {tree : Option Tree} (hcuts : Cuts text tokens)
    (hcarries : Carries none tokens tree) : Phrase where
  text
  tree
  cut := by rw [hcuts]
  read := by
    rw [hcuts]
    exact hcarries.ends .statement ⟨_, _, rfl, rfl⟩

/-- **A phrase with a semicolon behind it is a statement,** unless the nesting is too deep. -/
theorem ofText_statement (p : Phrase) {depth : Nat}
    (hdeep : (Program.ofText depth (p.text ++ ";")).fault ≠ some .tooDeep) :
    Program.ofText depth (p.text ++ ";") = ⟨p.tree.toList, none⟩ := by
  have hcuts : Cuts (p.text ++ ";") (p.tokens ++ [.sign ';']) := by
    have hsign := p.cuts.sign (c := ';') rfl cuts_empty
    rwa [String.append_empty] at hsign
  have htokens : Program.ofText depth (p.text ++ ";")
      = Program.ofTokens depth ⟨p.tokens ++ [.sign ';'], none⟩ :=
    congrArg (Program.ofTokens depth) hcuts
  rw [htokens] at hdeep ⊢
  rcases expression_approximates none depth .statement none (p.tokens ++ [.sign ';']) with h | h
  · rw [ofTokens_error (by simp) h] at hdeep
    exact absurd rfl hdeep
  · rw [ofTokens_ok (h.trans p.read), Program.behind]
    simp [Program.ofTokens]

end Phrase

/-- A phrase that can stand to the left of an operator. -/
structure Operand where
  /-- The text. -/
  text : String
  /-- What is read. -/
  tree : Tree
  /-- That is an operand. -/
  isOperand : tree.isOperand = true
  /-- It can be cut up. -/
  cut : (Tokens.ofText text).fault = none
  /-- It is read up to its end. -/
  read : reader .statement none ((Tokens.ofText text).items ++ [.sign ';'])
    = .ok (some tree, [.sign ';'])

namespace Operand

/-- An operand as a phrase. -/
def phrase (a : Operand) : Phrase := ⟨a.text, some a.tree, a.cut, a.read⟩

/-- Behind an operand anything can follow. -/
theorem carries_on (a : Operand) {tokens : List Token} {result : Option Tree}
    (h : Carries (some a.tree) tokens result) : Carries none (a.phrase.tokens ++ tokens) result := by
  refine a.phrase.carries.trans (fun t ht => ?_) h
  obtain rfl := Option.some.inj ht
  exact a.isOperand

/-- A phrase whose tree is an operand. -/
def ofCarries {text : String} {tokens : List Token} {tree : Tree} (hcuts : Cuts text tokens)
    (hcarries : Carries none tokens (some tree)) (isOperand : tree.isOperand = true) : Operand where
  text
  tree
  isOperand
  cut := (Phrase.ofCarries hcuts hcarries).cut
  read := (Phrase.ofCarries hcuts hcarries).read

/-- A token that is an expression by itself is an operand. -/
theorem isOperand_of_leaf {t : Token} {tree : Tree} (h : leaf? t = some tree) :
    tree.isOperand = true := by
  cases Leaf.of_leaf? h <;> rfl

/-- A number, a string or a symbol. -/
def ofLeaf {text : String} {t : Token} {tree : Tree} (hcuts : Cuts text [t])
    (h : leaf? t = some tree) : Operand :=
  .ofCarries hcuts (.leaf h (.nil _)) (isOperand_of_leaf h)

end Operand

/-- A symbol. -/
structure Symbol extends Operand where
  /-- Its name. -/
  name : Value
  /-- That is what is read. -/
  isSymbol : tree = .symbol name

/-! ## §3. Chains -/

/-- The four operators. -/
inductive Operator where
  /-- The sum. -/
  | plus
  /-- The difference. -/
  | minus
  /-- The product. -/
  | times
  /-- The quotient. -/
  | over
  deriving Repr, DecidableEq

/-- The character of an operator. -/
def Operator.char : Operator → Char
  | .plus => '+'
  | .minus => '-'
  | .times => '*'
  | .over => '/'

/-- An operator as it is written. -/
def Operator.text (op : Operator) : String := String.singleton op.char

theorem Cuts.operator {front behind : String} {tokens tokens' : List Token} (h : Cuts front tokens)
    (op : Operator) (h' : Cuts behind tokens') :
    Cuts (front ++ op.text ++ behind) (tokens ++ ⟨.text "operation", .text op.text⟩ :: tokens') := by
  cases op <;> exact h.between rfl rfl (fun _ => rfl) h'

/-- Operands with operators between them. -/
structure Chain where
  /-- All operands but the last, each with the operator behind it. -/
  front : List (Operand × Operator)
  /-- The last operand. -/
  last : Operand

namespace Chain

/-- A chain as it is written. -/
def text (c : Chain) : String :=
  c.front.foldr (fun x behind => x.1.text ++ x.2.text ++ behind) c.last.text

/-- The tree of a chain: every operator has all that is to its right as its second operand. -/
def tree (c : Chain) : Tree :=
  c.front.foldr (fun x right => .operation (.text x.2.text) (some x.1.tree) (some right)) c.last.tree

/-- The tokens of a chain. -/
def tokens (c : Chain) : List Token :=
  c.front.foldr (fun x behind => x.1.phrase.tokens ++ ⟨.text "operation", .text x.2.text⟩ :: behind)
    c.last.phrase.tokens

theorem cuts (c : Chain) : Cuts c.text c.tokens := by
  obtain ⟨front, last⟩ := c
  induction front with
  | nil => exact last.phrase.cuts
  | cons x front ih => exact x.1.phrase.cuts.operator x.2 ih

/-- **Chains group to the right.** -/
theorem carries (c : Chain) : Carries none c.tokens (some c.tree) := by
  obtain ⟨front, last⟩ := c
  induction front with
  | nil => exact last.phrase.carries
  | cons x front ih =>
    exact x.1.carries_on (.operation (t := ⟨.text "operation", .text x.2.text⟩) rfl ih)

/-- A chain as a phrase. -/
def phrase (c : Chain) : Phrase := .ofCarries c.cuts c.carries

end Chain

/-! ## §4. Assignments and calls -/

theorem Symbol.cuts_assigned (target : Symbol) (p : Phrase) :
    Cuts (target.text ++ "=" ++ p.text) (target.phrase.tokens ++ .sign '=' :: p.tokens) :=
  target.phrase.cuts.sign (c := '=') rfl p.cuts

theorem Symbol.carries_assigned (target : Symbol) (p : Phrase) :
    Carries none (target.phrase.tokens ++ .sign '=' :: p.tokens)
      (some (.assignment target.name p.tree)) := by
  refine target.carries_on ?_
  rw [target.isSymbol]
  exact .assignment rfl p.carries

/-- An assignment of a phrase to a symbol. -/
def Symbol.assigned (target : Symbol) (p : Phrase) : Phrase :=
  .ofCarries (target.cuts_assigned p) (target.carries_assigned p)

/-- Phrases with something between them, as they are written. -/
def listText (separator : String) (items : List Phrase) : String :=
  separator.intercalate (items.map (·.text))

/-- The trees of phrases, of which empty ones have none. -/
def listTrees (items : List Phrase) : List Tree := items.filterMap (·.tree)

/-- The tokens of phrases with a sign between them. -/
def phraseTokens (separator : Char) (items : List Phrase) : List Token :=
  List.intercalate [.sign separator] (items.map (·.tokens))

/-- Phrases with a sign between them are cut apart. -/
theorem cuts_listText (separator : Char) (h : isSign separator = true) (items : List Phrase) :
    Cuts (listText (String.singleton separator) items) (phraseTokens separator items) := by
  unfold listText phraseTokens
  induction items with
  | nil => exact cuts_empty
  | cons p items ih =>
    cases items with
    | nil => simpa using p.cuts
    | cons q items =>
      simp only [List.map_cons, String.intercalate_cons_cons, List.intercalate_cons_cons] at ih ⊢
      simpa using p.cuts.sign h ih

/-- With another sign behind them, which closes the list. -/
theorem cuts_closed (separator close : Char) (h : isSign separator = true) (h' : isSign close = true)
    (items : List Phrase) :
    Cuts (listText (String.singleton separator) items ++ String.singleton close)
      (phraseTokens separator items ++ [.sign close]) := by
  have hcuts := (cuts_listText separator h items).sign h' cuts_empty
  rwa [String.append_empty] at hcuts

theorem listTrees_cons (p : Phrase) (items : List Phrase) :
    listTrees (p :: items) = p.tree.toList ++ listTrees items := by
  unfold listTrees
  cases htree : p.tree <;> simp [htree]

/-- Phrases with a sign between them are the items of a list, up to the sign that closes it. -/
theorem itemsCarry_phrases (separator close : Char)
    (hused : (Stop.item (String.singleton separator) (String.singleton close)).Used)
    (hends : (Stop.item (String.singleton separator) (String.singleton close)).endsAt
      (Token.sign separator).kind = .ok true)
    (hne : (Token.sign separator).kind.isText (String.singleton close) = false)
    (hclose : (Token.sign close).kind.isText (String.singleton close) = true) (items : List Phrase) :
    ItemsCarry (String.singleton separator) (String.singleton close)
      (phraseTokens separator items ++ [.sign close]) (listTrees items) := by
  unfold phraseTokens
  induction items with
  | nil => exact ItemsCarry.last hused (.nil none) hclose
  | cons p items ih =>
    rw [listTrees_cons]
    cases items with
    | nil => simpa [listTrees] using ItemsCarry.last hused p.carries hclose
    | cons q items =>
      simp only [List.map_cons, List.intercalate_cons_cons] at ih ⊢
      simpa using ItemsCarry.cons hused p.carries hends hne ih

theorem itemsCarry_arguments (args : List Phrase) :
    ItemsCarry "," ")" (phraseTokens ',' args ++ [.sign ')']) (listTrees args) :=
  itemsCarry_phrases ',' ')' .argument rfl rfl rfl args

theorem itemsCarry_body (body : List Phrase) :
    ItemsCarry ";" "\x7d" (phraseTokens ';' body ++ [.sign '\x7d']) (listTrees body) :=
  itemsCarry_phrases ';' '\x7d' .body rfl rfl rfl body

namespace Operand

theorem cuts_call (callee : Operand) (args : List Phrase) :
    Cuts (callee.text ++ "(" ++ (listText "," args ++ ")"))
      (callee.phrase.tokens ++ .sign '(' :: (phraseTokens ',' args ++ [.sign ')'])) :=
  callee.phrase.cuts.sign (c := '(') rfl (cuts_closed ',' ')' rfl rfl args)

theorem carries_call (callee : Operand) (args : List Phrase) :
    Carries none (callee.phrase.tokens ++ .sign '(' :: (phraseTokens ',' args ++ [.sign ')']))
      (some (.call (some callee.tree) (listTrees args))) := by
  refine callee.carries_on ?_
  have hgroup := (itemsCarry_arguments args).group (by simp)
  have hcall := Carries.call (t := .sign '(') rfl hgroup (.nil (some (.call (some callee.tree) _)))
  rwa [List.append_nil] at hcall

/-- A call of an operand with phrases as its arguments. -/
def call (callee : Operand) (args : List Phrase) : Operand :=
  .ofCarries (callee.cuts_call args) (callee.carries_call args) rfl

end Operand

/-! ## §5. Functions -/

/-- What a body starts with announces no parameters. -/
theorem ItemsCarry.not_colon {t : Token} {tokens : List Token} {trees : List Tree}
    (h : ItemsCarry ";" "\x7d" (t :: tokens) trees) : t.kind.isText ":" = false := by
  cases hcolon : t.kind.isText ":" with
  | false => rfl
  | true =>
    have hitems := h [.sign ';'] (tokens.length + 1) (List.cons_ne_nil _ _) (Nat.le_refl _)
    obtain ⟨item, stop, behind, hitem, -, -⟩ := items_succ_eq_ok hitems
    obtain ⟨f, hfails⟩ := reader_colon .body hcolon (tokens ++ [.sign ';'])
    rw [List.cons_append, hfails] at hitem
    cases hitem

/-- A parameter list, if there is one, as it is written. -/
def headText : Option (List Symbol) → String
  | none => ""
  | some params => ":(" ++ listText "," (params.map (·.phrase)) ++ ")"

/-- The tokens of a parameter list, if there is one. -/
def headTokens : Option (List Symbol) → List Token
  | none => []
  | some params => .sign ':' :: .sign '(' :: (phraseTokens ',' (params.map (·.phrase)) ++ [.sign ')'])

/-- The names of the parameters. -/
def headNames : Option (List Symbol) → List Value
  | none => []
  | some params => params.map (·.name)

theorem cuts_head (params : Option (List Symbol)) {behind : String} {tokens : List Token}
    (h : Cuts behind tokens) : Cuts (headText params ++ behind) (headTokens params ++ tokens) := by
  cases params with
  | none => simpa [headText, headTokens] using h
  | some params =>
    have hlist := cuts_listText ',' rfl (params.map (·.phrase))
    have hcuts := cuts_empty.sign (c := ':') rfl
      (cuts_empty.sign (c := '(') rfl (hlist.sign (c := ')') rfl h))
    have htext : headText (some params) ++ behind
        = "" ++ ":" ++ ("" ++ "(" ++ (listText "," (params.map (·.phrase)) ++ ")" ++ behind)) := by
      rw [← String.toList_inj]
      simp [headText]
    have htokens : headTokens (some params) ++ tokens
        = [] ++ .sign ':' :: ([] ++ .sign '(' ::
          (phraseTokens ',' (params.map (·.phrase)) ++ .sign ')' :: tokens)) := by
      simp [headTokens]
    rw [htext, htokens]
    exact hcuts

/-- The trees of parameters are their names. -/
theorem mapM_listTrees (params : List Symbol) :
    (listTrees (params.map (·.phrase))).mapM parameterName = .ok (params.map (·.name)) := by
  have htrees : listTrees (params.map (·.phrase)) = (params.map (·.name)).map .symbol := by
    induction params with
    | nil => rfl
    | cons p params ih =>
      rw [List.map_cons, listTrees_cons, ih, List.map_cons, List.map_cons]
      exact congrArg (fun t => t :: _) p.isSymbol
  rw [htrees]
  exact mapM_parameterName _

theorem parametersCarry_head (params : Option (List Symbol)) {next : Token}
    (h : next.kind.isText ":" = false) : ParametersCarry (headTokens params) (headNames params) next := by
  cases params with
  | none => exact parametersCarry_nil h
  | some params =>
    exact parametersCarry_list rfl rfl ((itemsCarry_arguments _).group (by simp)) (mapM_listTrees params)

namespace Operand

theorem cuts_function (params : Option (List Symbol)) (body : List Phrase) :
    Cuts ("\x7b" ++ (headText params ++ (listText ";" body ++ "\x7d")))
      (.sign '\x7b' :: (headTokens params ++ (phraseTokens ';' body ++ [.sign '\x7d']))) := by
  have hbody := cuts_closed ';' '\x7d' rfl rfl body
  have hcuts := cuts_empty.sign (c := '\x7b') rfl (cuts_head params hbody)
  rwa [String.empty_append] at hcuts

theorem carries_function (params : Option (List Symbol)) (body : List Phrase) :
    Carries none (.sign '\x7b' :: (headTokens params ++ (phraseTokens ';' body ++ [.sign '\x7d'])))
      (some (.function (headNames params) (listTrees body))) := by
  have hitems := itemsCarry_body body
  obtain ⟨next, inside, hinside⟩ :
      ∃ next inside, phraseTokens ';' body ++ [.sign '\x7d'] = next :: inside :=
    List.exists_cons_of_ne_nil (by simp)
  rw [hinside] at hitems ⊢
  have hcarries : Carries none _ _ := Carries.function (t := .sign '\x7b') rfl
    (parametersCarry_head params hitems.not_colon) (hitems.group (by simp)) (.nil _)
  rwa [List.append_nil] at hcarries

/-- A function with phrases as its statements. -/
def function (params : Option (List Symbol)) (body : List Phrase) : Operand :=
  .ofCarries (cuts_function params body) (carries_function params body) rfl

end Operand

end Scrawl.Grammar
