/-
  Scrawl.Proofs.Grammar.EmptyItems — items that are left out count for nothing.

  A PLACE between two tokens is told by the brackets that are open there and by what stands directly in
  front of it.  Where an item starts or ends, one more separator makes an empty item.  Tokens are PADDED if
  one such separator has been put in between.  The lemmas follow the parser: from padded tokens each part
  of it reads what it read before, and has either got behind the new separator or leaves tokens that are
  padded themselves (`Widened`).  `expression_keeps` is the induction over the layers, and
  `empty_items_dropped` says it for programs.
-/

import Scrawl.Proofs.Grammar.Termination

namespace Scrawl.Grammar

/-! ## §1. Places -/

/-- What a bracket has been opened for. -/
inductive Enclosure where
  /-- The arguments of a call. -/
  | arguments
  /-- The parameters of a function. -/
  | parameters
  /-- The body of a function. -/
  | body
  deriving Repr, DecidableEq

/-- What separates the items in a bracket. -/
def Enclosure.separator : Enclosure → String
  | .arguments | .parameters => ","
  | .body => ";"

/-- What closes a bracket. -/
def Enclosure.closing : Enclosure → String
  | .arguments | .parameters => ")"
  | .body => "\x7d"

/-- What stands directly in front of a place. -/
inductive Edge where
  /-- Nothing of an item: one starts here. -/
  | fresh
  /-- The opening brace of a function. -/
  | brace
  /-- A colon. -/
  | colon
  /-- Something of an item. -/
  | inside
  deriving Repr, DecidableEq

/-- What follows a bracket: the body behind its parameters, and otherwise more of an item. -/
def Enclosure.edgeBehind : Enclosure → Edge
  | .parameters => .fresh
  | .arguments | .body => .inside

/-- A place between two tokens. -/
structure Place where
  /-- What stands in front of it. -/
  edge : Edge
  /-- The brackets that are open, innermost first. -/
  opened : List Enclosure
  deriving Repr, DecidableEq

namespace Place

/-- In front of all tokens. -/
def start : Place := ⟨.fresh, []⟩

/-- The place behind the next token. -/
def pass (s : Place) (t : Token) : Place :=
  match t.kind with
  | .text "(" => ⟨.fresh, (if s.edge = .colon then .parameters else .arguments) :: s.opened⟩
  | .text "\x7b" => ⟨.brace, .body :: s.opened⟩
  | .text ":" => ⟨.colon, s.opened⟩
  | .text ")" => ⟨(s.opened.head?.map Enclosure.edgeBehind).getD .inside, s.opened.tail⟩
  | .text "\x7d" => ⟨.inside, s.opened.tail⟩
  | .text "," | .text ";" => ⟨.fresh, s.opened⟩
  | _ => ⟨.inside, s.opened⟩

/-- The place behind some tokens. -/
def behind (tokens : List Token) : Place := tokens.foldl pass start

/-- Where an expression ends inside some brackets. -/
def stopIn : List Enclosure → Stop
  | [] => .statement
  | b :: _ => .item b.separator b.closing

/-- What separates items inside some brackets. -/
def separatorIn : List Enclosure → String
  | [] => ";"
  | b :: _ => b.separator

/-- An item may be empty between a place and the tokens behind it: one starts there, or one ends there. -/
def Admits (s : Place) (tokens : List Token) : Prop :=
  s.edge = .fresh ∨ (s.edge = .brace ∧ ∀ t ∈ tokens.head?, t.kind ≠ .text ":") ∨
    ∃ t ∈ tokens.head?, (stopIn s.opened).endsAt t.kind = .ok true

theorem endsAt_separatorIn (opened : List Enclosure) :
    (stopIn opened).endsAt (.text (separatorIn opened)) = .ok true := by
  cases opened with
  | nil => rfl
  | cons b outer => cases b <;> rfl

section Passing

variable {e : Edge} {opened outer : List Enclosure} {b : Enclosure} {t : Token}

/-- What stands in front of a place only matters behind a colon. -/
theorem pass_edge (e' : Edge) (h : e ≠ .colon) (h' : e' ≠ .colon) (t : Token) :
    (⟨e, opened⟩ : Place).pass t = (⟨e', opened⟩ : Place).pass t := by
  unfold pass
  simp only [h, h', if_false]

theorem pass_bracket (ht : t.kind = .text "(") (h : e ≠ .colon) :
    (⟨e, opened⟩ : Place).pass t = ⟨.fresh, .arguments :: opened⟩ := by
  simp [pass, ht, h]

theorem pass_announced (ht : t.kind = .text "(") :
    (⟨.colon, opened⟩ : Place).pass t = ⟨.fresh, .parameters :: opened⟩ := by
  simp [pass, ht]

theorem pass_brace (ht : t.kind = .text "\x7b") :
    (⟨e, opened⟩ : Place).pass t = ⟨.brace, .body :: opened⟩ := by
  simp [pass, ht]

theorem pass_colon (ht : t.kind = .text ":") : (⟨e, opened⟩ : Place).pass t = ⟨.colon, opened⟩ := by
  simp [pass, ht]

theorem pass_separator (ht : t.kind = .text b.separator) :
    (⟨e, b :: outer⟩ : Place).pass t = ⟨.fresh, b :: outer⟩ := by
  cases b <;> simp [pass, ht, Enclosure.separator]

theorem pass_closing (ht : t.kind = .text b.closing) :
    (⟨e, b :: outer⟩ : Place).pass t = ⟨b.edgeBehind, outer⟩ := by
  cases b <;> simp [pass, ht, Enclosure.closing, Enclosure.edgeBehind]

/-- Behind a number, a string or a symbol. -/
theorem pass_leaf {leaf : Tree} (ht : leaf? t = some leaf) :
    (⟨e, opened⟩ : Place).pass t = ⟨.inside, opened⟩ := by
  cases Leaf.of_leaf? ht <;> simp [pass]

theorem pass_operation (ht : t.kind = .text "operation") :
    (⟨e, opened⟩ : Place).pass t = ⟨.inside, opened⟩ := by
  simp [pass, ht]

theorem pass_equals (ht : t.kind = .text "=") :
    (⟨e, opened⟩ : Place).pass t = ⟨.inside, opened⟩ := by
  simp [pass, ht]

end Passing

end Place

/-! ## §2. One more separator -/

open Place

/-- Tokens behind a place, and the same with one more separator where an item may be empty. -/
inductive Padded (separator : Token) : Place → List Token → List Token → Prop
  /-- The separator stands in front of all of them. -/
  | here {s : Place} {tokens : List Token} (hadmits : s.Admits tokens)
      (hkind : separator.kind = .text (separatorIn s.opened)) :
      Padded separator s tokens (separator :: tokens)
  /-- It stands behind the next one. -/
  | pass {s : Place} {t : Token} {tokens tokens' : List Token}
      (h : Padded separator (s.pass t) tokens tokens') : Padded separator s (t :: tokens) (t :: tokens')

/-- Tokens behind a place, and the same or one more separator. -/
def Widened (separator : Token) (s : Place) (tokens tokens' : List Token) : Prop :=
  tokens' = tokens ∨ Padded separator s tokens tokens'

section Padding

variable {separator : Token} {s : Place} {opened : List Enclosure} {tokens tokens' : List Token}
  {t : Token}

theorem Padded.ne_nil (h : Padded separator s tokens tokens') : tokens' ≠ [] := by
  cases h <;> exact List.cons_ne_nil _ _

theorem Padded.length_eq (h : Padded separator s tokens tokens') :
    tokens'.length = tokens.length + 1 := by
  induction h with
  | here _ _ => rfl
  | pass _ ih => rw [List.length_cons, List.length_cons, ih]

theorem Padded.of_append {before : List Token} (h : Padded separator (before.foldl Place.pass s)
    tokens tokens') : Padded separator s (before ++ tokens) (before ++ tokens') := by
  induction before generalizing s with
  | nil => exact h
  | cons t before ih => exact .pass (ih h)

/-- Where an item starts, the separator stands at once, or it would do so inside an item. -/
theorem Padded.inside (h : Padded separator ⟨.fresh, opened⟩ tokens tokens') :
    (tokens' = separator :: tokens ∧ separator.kind = .text (separatorIn opened)) ∨
      Padded separator ⟨.inside, opened⟩ tokens tokens' := by
  cases h with
  | here _ hkind => exact .inl ⟨rfl, hkind⟩
  | pass h =>
    rw [pass_edge .inside Edge.noConfusion Edge.noConfusion] at h
    exact .inr (.pass h)

/-- Where it may stand inside an item, it may stand if one starts. -/
theorem Padded.fresh {e : Edge} (he : e ≠ .colon) (h : Padded separator ⟨e, opened⟩ tokens tokens') :
    Padded separator ⟨.fresh, opened⟩ tokens tokens' := by
  cases h with
  | here _ hkind => exact .here (.inl rfl) hkind
  | pass h =>
    rw [pass_edge .fresh he Edge.noConfusion] at h
    exact .pass h

/-- Inside an item, the separator only stands in front of what ends it. -/
theorem Padded.inside_cons (h : Padded separator ⟨.inside, opened⟩ (t :: tokens) tokens') :
    (tokens' = separator :: t :: tokens ∧ separator.kind = .text (separatorIn opened) ∧
        (stopIn opened).endsAt t.kind = .ok true) ∨
      ∃ rest, tokens' = t :: rest ∧ Padded separator ((⟨.inside, opened⟩ : Place).pass t) tokens rest := by
  cases h with
  | here hadmits hkind =>
    rcases hadmits with hedge | ⟨hedge, -⟩ | ⟨u, hu, hends⟩
    · cases hedge
    · cases hedge
    · obtain rfl := Option.some.inj hu
      exact .inl ⟨rfl, hkind, hends⟩
  | pass h => exact .inr ⟨_, rfl, h⟩

end Padding

/-! ## §3. Lists of expressions -/

/-- From padded tokens a parser reads what it read before, and leaves the same tokens or padded ones. -/
def Keeps (separator : Token) (p : ExpressionParser) : Prop :=
  ∀ {opened : List Enclosure} {previous result : Option Tree} {tokens tokens' rest : List Token},
    Padded separator ⟨.inside, opened⟩ tokens tokens' →
      p (stopIn opened) previous tokens = .ok (result, rest) →
      ∃ rest', p (stopIn opened) previous tokens' = .ok (result, rest') ∧
        Widened separator ⟨.inside, opened⟩ rest rest'

theorem Keeps.widened {separator : Token} {p : ExpressionParser} (hp : Keeps separator p)
    {opened : List Enclosure} {previous result : Option Tree} {tokens tokens' rest : List Token}
    (hwidened : Widened separator ⟨.inside, opened⟩ tokens tokens')
    (h : p (stopIn opened) previous tokens = .ok (result, rest)) :
    ∃ rest', p (stopIn opened) previous tokens' = .ok (result, rest') ∧
      Widened separator ⟨.inside, opened⟩ rest rest' := by
  rcases hwidened with rfl | hpadded
  · exact ⟨rest, h, .inl rfl⟩
  · exact hp hpadded h

/-- A parser comes back at once where an expression ends. -/
def AtOnce (p : ExpressionParser) : Prop :=
  ∀ {stop : Stop} {t : Token}, stop.endsAt t.kind = .ok true → ∀ previous rest,
    p stop previous (t :: rest) = .ok (previous, t :: rest)

section Lists

variable {p : ExpressionParser} {close sep : String} {item : Option Tree} {stop : Token}
  {tokens behind : List Token}

/-- The last round of a list. -/
theorem items_last (hitem : p (.item sep close) none tokens = .ok (item, stop :: behind))
    (hne : behind ≠ []) (hclose : stop.kind.isText close = true) (fuel : Nat) :
    items none p sep close (fuel + 1) tokens = .ok (item.toList, behind) := by
  rw [items_round hne hitem, if_pos hclose]

/-- A round of a list with others behind it. -/
theorem items_next (hitem : p (.item sep close) none tokens = .ok (item, stop :: behind))
    (hne : behind ≠ []) (hclose : stop.kind.isText close = false) {fuel : Nat} {more : List Tree}
    {rest : List Token} (hmore : items none p sep close fuel behind = .ok (more, rest)) :
    items none p sep close (fuel + 1) tokens = .ok (item.toList ++ more, rest) := by
  rw [items_round hne hitem, if_neg (by simp [hclose]), hmore]
  rfl

/-- More rounds do no harm. -/
theorem items_more {fuel fuel' : Nat} (hle : fuel ≤ fuel') {trees : List Tree} {rest : List Token}
    (h : items none p sep close fuel tokens = .ok (trees, rest)) :
    items none p sep close fuel' tokens = .ok (trees, rest) := by
  have hsame : Prolongs [] p p := by
    intro stop previous tokens result rest h
    simpa using h
  simpa using items_prolongs none hsame hle h

/-- A function without a parameter list. -/
theorem parameters_none {first : Token} (hcolon : first.kind.isText ":" = false) (behind : List Token) :
    parameters none p (first :: behind) = .ok ([], first :: behind) := by
  simp only [parameters, glance, bind, Except.bind, hcolon]
  rfl

/-- A function with a parameter list. -/
theorem parameters_list {colon bracket : Token} {inside rest : List Token} {trees : List Tree}
    {names : List Value} (hcolon : colon.kind = .text ":") (hbracket : bracket.kind = .text "(")
    (hgroup : group none p "," ")" inside = .ok (trees, rest))
    (hnames : trees.mapM parameterName = .ok names) :
    parameters none p (colon :: bracket :: inside) = .ok (names, rest) := by
  simp only [parameters, glance, bind, Except.bind, hcolon, hbracket, advance_none, hgroup, hnames]
  rfl

end Lists

/-- What separates items closes nothing. -/
theorem isText_closing {b : Enclosure} {kind : Value} (h : kind = .text b.separator) :
    kind.isText b.closing = false := by
  subst h
  cases b <;> decide

section Padding

variable {separator : Token} {p : ExpressionParser} {b : Enclosure} {outer : List Enclosure}

/-- An empty item in front of a list is dropped. -/
theorem items_empty (honce : AtOnce p) (hkind : separator.kind = .text b.separator)
    {tokens rest : List Token} (hne : tokens ≠ []) {fuel : Nat} {trees : List Tree}
    (h : items none p b.separator b.closing fuel tokens = .ok (trees, rest)) :
    items none p b.separator b.closing (fuel + 1) (separator :: tokens) = .ok (trees, rest) := by
  have hends : (stopIn [b]).endsAt separator.kind = .ok true := by
    rw [hkind]
    exact endsAt_separatorIn [b]
  exact items_next (honce hends none tokens) hne (isText_closing hkind) h

variable (horderly : Orderly p) (honce : AtOnce p) (hkeeps : Keeps separator p)
include horderly honce hkeeps

/-- **Items are read from padded tokens as before.** -/
theorem items_padded : ∀ {fuel fuel' : Nat} {tokens tokens' rest : List Token} {trees : List Tree},
    fuel < fuel' → Padded separator ⟨.fresh, b :: outer⟩ tokens tokens' →
      items none p b.separator b.closing fuel tokens = .ok (trees, rest) →
      ∃ rest', items none p b.separator b.closing fuel' tokens' = .ok (trees, rest') ∧
        Widened separator ⟨b.edgeBehind, outer⟩ rest rest' := by
  intro fuel
  induction fuel with
  | zero => intro fuel' tokens tokens' rest trees _ _ hitems; cases hitems
  | succ fuel ih =>
    intro fuel' tokens tokens' rest trees hlt hpadded hitems
    obtain ⟨n, rfl⟩ : ∃ n, fuel' = n + 1 := ⟨fuel' - 1, by omega⟩
    obtain ⟨item, stop, behind, hitem, hne, hend⟩ := items_succ_eq_ok hitems
    rcases hpadded.inside with ⟨rfl, hkind⟩ | hinside
    · exact ⟨rest, items_empty honce hkind (horderly.ne_nil hitem)
        (items_more (by omega) hitems), .inl rfl⟩
    obtain ⟨left, hitem', rfl | hleft⟩ := hkeeps hinside hitem
    · -- the separator stands within the item
      rcases hend with ⟨hclose, rfl, rfl⟩ | ⟨hclose, more, hmore, rfl⟩
      · exact ⟨rest, items_last hitem' hne hclose n, .inl rfl⟩
      · exact ⟨rest, items_next hitem' hne hclose (items_more (by omega) hmore), .inl rfl⟩
    rcases hleft.inside_cons with ⟨rfl, hkind, hends⟩ | ⟨behind', rfl, hbehind⟩
    · -- it ends the item, and an empty one follows
      obtain ⟨m, rfl⟩ : ∃ m, n = m + 1 := ⟨n - 1, by omega⟩
      have hempty : p (.item b.separator b.closing) none (stop :: behind)
          = .ok (none, stop :: behind) := honce hends none behind
      rcases hend with ⟨hclose, rfl, rfl⟩ | ⟨hclose, more, hmore, rfl⟩
      · refine ⟨rest, ?_, .inl rfl⟩
        have hlast := items_last hempty hne hclose m
        simpa using items_next hitem' (List.cons_ne_nil _ _) (isText_closing hkind) hlast
      · refine ⟨rest, ?_, .inl rfl⟩
        have hmore' := items_next hempty hne hclose (items_more (by omega : fuel ≤ m) hmore)
        exact items_next hitem' (List.cons_ne_nil _ _) (isText_closing hkind) hmore'
    · -- it stands further on
      rcases hend with ⟨hclose, rfl, rfl⟩ | ⟨hclose, more, hmore, rfl⟩
      · rw [pass_closing (Value.eq_of_isText hclose)] at hbehind
        exact ⟨behind', items_last hitem' hbehind.ne_nil hclose n, .inr hbehind⟩
      · obtain ⟨u, others, hsame, hends⟩ := horderly.stops hitem
        obtain ⟨rfl, rfl⟩ := List.cons.inj hsame
        have hstop : stop.kind = .text b.separator := by
          have hor : (stop.kind.isText b.separator || stop.kind.isText b.closing) = true :=
            Except.ok.inj hends
          rw [hclose, Bool.or_false] at hor
          exact Value.eq_of_isText hor
        rw [pass_separator hstop] at hbehind
        obtain ⟨rest', hmore', hrest'⟩ := ih (by omega : fuel < n) hbehind hmore
        exact ⟨rest', items_next hitem' hbehind.ne_nil hclose hmore', hrest'⟩

/-- So is a list with its closing sign, if there is a token behind it. -/
theorem group_padded {tokens tokens' rest : List Token} {trees : List Tree}
    (hpadded : Padded separator ⟨.fresh, b :: outer⟩ tokens tokens') (hrest : rest ≠ [])
    (hgroup : group none p b.separator b.closing tokens = .ok (trees, rest)) :
    ∃ rest', group none p b.separator b.closing tokens' = .ok (trees, rest') ∧
      Widened separator ⟨b.edgeBehind, outer⟩ rest rest' := by
  obtain ⟨first, hclose, rfl, rfl⟩ | ⟨first, behind, hclose, rfl, hitems⟩ := group_cases hgroup
  · cases hpadded with
    | here _ hkind =>
      -- the list was closed at once, and now has an empty item
      have hends : (stopIn (b :: outer)).endsAt first.kind = .ok true := by
        show Except.ok (_ || _) = _
        rw [hclose, Bool.or_true]
      have hlast := items_last (honce hends none rest) hrest hclose rest.length
      refine ⟨rest, group_of_items (isText_closing hkind) ?_, .inl rfl⟩
      exact items_empty honce hkind (List.cons_ne_nil _ _) hlast
    | pass h =>
      rw [pass_closing (Value.eq_of_isText hclose)] at h
      exact ⟨_, group_close first hclose _, .inr h⟩
  · have hlength := hpadded.length_eq
    cases hpadded with
    | here _ hkind =>
      refine ⟨rest, group_of_items (isText_closing hkind) ?_, .inl rfl⟩
      exact items_empty honce hkind (List.cons_ne_nil _ _) hitems
    | pass h =>
      have hrounds := Nat.lt_of_succ_le (Nat.le_of_eq hlength.symm)
      obtain ⟨rest', hitems', hrest'⟩ := items_padded horderly honce hkeeps hrounds (.pass h) hitems
      exact ⟨rest', group_of_items hclose hitems', hrest'⟩

theorem group_widened {tokens tokens' rest : List Token} {trees : List Tree}
    (hwidened : Widened separator ⟨.fresh, b :: outer⟩ tokens tokens') (hrest : rest ≠ [])
    (hgroup : group none p b.separator b.closing tokens = .ok (trees, rest)) :
    ∃ rest', group none p b.separator b.closing tokens' = .ok (trees, rest') ∧
      Widened separator ⟨b.edgeBehind, outer⟩ rest rest' := by
  rcases hwidened with rfl | hpadded
  · exact ⟨rest, hgroup, .inl rfl⟩
  · exact group_padded horderly honce hkeeps hpadded hrest hgroup

/-- So is a parameter list, behind which the body starts. -/
theorem parameters_padded {tokens tokens' rest : List Token} {names : List Value}
    (hpadded : Padded separator ⟨.brace, .body :: outer⟩ tokens tokens') (hrest : rest ≠ [])
    (hparameters : parameters none p tokens = .ok (names, rest)) :
    ∃ rest', parameters none p tokens' = .ok (names, rest') ∧
      Widened separator ⟨.fresh, .body :: outer⟩ rest rest' := by
  obtain ⟨first, behind, hcolon, rfl, rfl, rfl⟩ |
    ⟨colon, bracket, inside, trees, hcolon, hbracket, rfl, hgroup, hnames⟩ :=
    parameters_cases hparameters
  · refine ⟨tokens', ?_, .inr (hpadded.fresh Edge.noConfusion)⟩
    cases hpadded with
    | here _ hkind =>
      have hsemicolon : separator.kind = .text ";" := hkind
      exact parameters_none (by rw [hsemicolon]; decide) _
    | pass h => exact parameters_none hcolon _
  · replace hcolon := Value.eq_of_isText hcolon
    replace hbracket := Value.eq_of_isText hbracket
    -- between the brace and the bracket no item starts or ends
    cases hpadded with
    | here hadmits _ =>
      rcases hadmits with hedge | ⟨-, hnext⟩ | ⟨t, ht, hends⟩
      · cases hedge
      · exact absurd hcolon (hnext colon rfl)
      · obtain rfl := Option.some.inj ht
        rw [hcolon] at hends
        cases hends
    | pass h =>
      rw [pass_colon hcolon] at h
      cases h with
      | here hadmits _ =>
        rcases hadmits with hedge | ⟨hedge, -⟩ | ⟨t, ht, hends⟩
        · cases hedge
        · cases hedge
        · obtain rfl := Option.some.inj ht
          rw [hbracket] at hends
          cases hends
      | pass h =>
        rw [pass_announced hbracket] at h
        obtain ⟨rest', hgroup', hrest'⟩ := group_padded horderly honce hkeeps h hrest hgroup
        exact ⟨rest', parameters_list hcolon hbracket hgroup' hnames, hrest'⟩

end Padding

/-! ## §4. Expressions -/

section Layer

variable {separator : Token} {p : ExpressionParser} {previous result : Option Tree} {t : Token}
  {rest : List Token} (horderly : Orderly p)
  (honce : ∀ {stop previous tokens read}, p stop previous tokens = .ok read → AtOnce p)
  (hkeeps : Keeps separator p)
include horderly honce hkeeps

/-- Behind a token of an expression, and in what follows that, the same is read. -/
theorem continueWith_padded {opened : List Enclosure} {tokens tokens' : List Token}
    (hpadded : Padded separator ((⟨.inside, opened⟩ : Place).pass t) tokens tokens')
    (h : continueWith none p (stopIn opened) previous t tokens = .ok (result, rest)) :
    ∃ rest', continueWith none p (stopIn opened) previous t tokens' = .ok (result, rest') ∧
      Widened separator ⟨.inside, opened⟩ rest rest' := by
  obtain ⟨right, left, hkind, hright, hread⟩ | ⟨args, left, hkind, hargs, hread⟩ |
    ⟨params, left, body, left', hkind, hparams, hbody, hread⟩ |
    ⟨name, value, left, hkind, rfl, hvalue, hread⟩ := continueWith_cases h
  · rw [pass_operation (Value.eq_of_isText hkind)] at hpadded
    obtain ⟨next, hright', hnext⟩ := hkeeps hpadded hright
    obtain ⟨rest', hread', hrest'⟩ := hkeeps.widened hnext hread
    refine ⟨rest', ?_, hrest'⟩
    unfold continueWith
    rw [if_pos hkind, hright']
    exact hread'
  · rw [pass_bracket (Value.eq_of_isText hkind) Edge.noConfusion] at hpadded
    obtain ⟨next, hargs', hnext⟩ := group_padded horderly (honce hread) hkeeps hpadded
      (horderly.ne_nil hread) hargs
    obtain ⟨rest', hread', hrest'⟩ := hkeeps.widened hnext hread
    refine ⟨rest', ?_, hrest'⟩
    unfold continueWith
    rw [Value.eq_of_isText hkind, if_neg (by decide), if_pos (by decide)]
    change group none p "," ")" tokens' = _ at hargs'
    rw [hargs']
    exact hread'
  · rw [pass_brace (Value.eq_of_isText hkind)] at hpadded
    have hleft : left ≠ [] := by
      rintro rfl
      cases hbody
    obtain ⟨next, hparams', hnext⟩ := parameters_padded horderly (honce hread) hkeeps hpadded hleft
      hparams
    obtain ⟨next', hbody', hnext'⟩ := group_widened horderly (honce hread) hkeeps hnext
      (horderly.ne_nil hread) hbody
    obtain ⟨rest', hread', hrest'⟩ := hkeeps.widened hnext' hread
    refine ⟨rest', ?_, hrest'⟩
    unfold continueWith
    rw [Value.eq_of_isText hkind, if_neg (by decide), if_neg (by decide), if_pos (by decide),
      hparams']
    change group none p ";" "\x7d" next = _ at hbody'
    show (group none p ";" "\x7d" next >>= _) = _
    rw [hbody']
    exact hread'
  · rw [pass_equals (Value.eq_of_isText hkind)] at hpadded
    obtain ⟨next, hvalue', hnext⟩ := hkeeps hpadded hvalue
    obtain ⟨rest', hread', hrest'⟩ := hkeeps.widened hnext hread
    refine ⟨rest', ?_, hrest'⟩
    unfold continueWith
    rw [Value.eq_of_isText hkind, if_neg (by decide), if_neg (by decide), if_neg (by decide),
      if_pos (by decide)]
    show (p (stopIn opened) none tokens' >>= _) = _
    rw [hvalue']
    exact hread'

/-- A layer reads from padded tokens what it read before. -/
theorem expressionLayer_keeps : Keeps separator (expressionLayer none p) := by
  intro opened previous result tokens tokens' rest hpadded h
  obtain ⟨t, behind, rfl, ⟨hends, rfl, rfl⟩ | ⟨hends, hread⟩⟩ := expressionLayer_cases h
  · -- the expression ends here, or now in front of the separator
    rcases hpadded.inside_cons with ⟨rfl, hkind, -⟩ | ⟨behind', rfl, -⟩
    · have hends' : (stopIn opened).endsAt separator.kind = .ok true := by
        rw [hkind]
        exact endsAt_separatorIn opened
      exact ⟨_, layer_stop hends' _ _, .inr hpadded⟩
    · exact ⟨_, layer_stop hends _ _, .inr hpadded⟩
  · obtain ⟨-, -, hstop⟩ | ⟨behind', rfl, hbehind⟩ := hpadded.inside_cons
    · cases hends.symm.trans hstop
    rcases hread with ⟨leaf, rfl, hleaf, hread⟩ | ⟨hleaf, hcontinue⟩
    · rw [pass_leaf hleaf] at hbehind
      rw [layer_leaf hends hleaf]
      exact hkeeps hbehind hread
    · rw [layer_continue hends hleaf]
      exact continueWith_padded horderly honce hkeeps hbehind hcontinue

end Layer

/-- **Expressions are read from padded tokens as before.** -/
theorem expression_keeps (separator : Token) :
    ∀ depth : Nat, Keeps separator (expression none depth) := by
  intro depth
  induction depth with
  | zero => intro opened previous result tokens tokens' rest _ h; cases h
  | succ depth ih =>
    refine expressionLayer_keeps (expression_orderly none depth) ?_ ih
    -- a parser that has read something has a layer
    intro stop previous tokens read h
    cases depth with
    | zero => cases h
    | succ depth => exact fun hends => expression_at_once none depth hends

/-! ## §5. Programs -/

/-- A token that ends a statement at once makes none. -/
theorem ofTokens_empty {depth : Nat} {t : Token} (h : Stop.statement.endsAt t.kind = .ok true)
    (tokens : List Token) :
    Program.ofTokens (depth + 1) ⟨t :: tokens, none⟩ = Program.ofTokens (depth + 1) ⟨tokens, none⟩ :=
  ofTokens_ok (expression_at_once none depth h none tokens)

/-- Behind the end of a statement another one starts. -/
theorem padded_behind {separator t : Token} (h : Stop.statement.endsAt t.kind = .ok true)
    {tokens tokens' : List Token}
    (hpadded : Padded separator ((⟨.inside, []⟩ : Place).pass t) tokens tokens') :
    Padded separator ⟨.fresh, []⟩ tokens tokens' := by
  rcases endsAt_statement h with hkind | hkind
  · have hpass : (⟨.inside, []⟩ : Place).pass t = ⟨.fresh, []⟩ := by simp [Place.pass, hkind]
    exact hpass ▸ hpadded
  · have hpass : (⟨.inside, []⟩ : Place).pass t = ⟨.inside, []⟩ := by simp [Place.pass, hkind]
    rw [hpass] at hpadded
    exact hpadded.fresh Edge.noConfusion

/-- **A program without a fault is the same for padded tokens.** -/
theorem ofTokens_padded {separator : Token} {depth : Nat} (tokens : List Token)
    (h : (Program.ofTokens (depth + 1) ⟨tokens, none⟩).fault = none) :
    ∀ tokens', Padded separator ⟨.fresh, []⟩ tokens tokens' →
      Program.ofTokens (depth + 1) ⟨tokens', none⟩ = Program.ofTokens (depth + 1) ⟨tokens, none⟩ := by
  have hsemicolon : separator.kind = .text ";" → Stop.statement.endsAt separator.kind = .ok true := by
    intro hkind
    rw [hkind]
    rfl
  refine faultless_induction (P := fun tokens => ∀ tokens', Padded separator ⟨.fresh, []⟩ tokens tokens' →
    Program.ofTokens (depth + 1) ⟨tokens', none⟩ = Program.ofTokens (depth + 1) ⟨tokens, none⟩)
    ?_ ?_ tokens h
  · intro _ tokens' hpadded
    cases hpadded with
    | here _ hkind => exact ofTokens_empty (hsemicolon hkind) []
  · intro tokens statement t behind hread _ ih tokens' hpadded
    rcases hpadded.inside with ⟨rfl, hkind⟩ | hinside
    · exact ofTokens_empty (hsemicolon hkind) tokens
    obtain ⟨left, hread', rfl | hleft⟩ := expression_keeps separator (depth + 1) hinside hread
    · rw [ofTokens_ok hread, ofTokens_ok hread']
    obtain ⟨u, others, hsame, hends⟩ := (expression_orderly none (depth + 1)).stops hread
    obtain ⟨rfl, rfl⟩ := List.cons.inj hsame
    rcases hleft.inside_cons with ⟨rfl, hkind, -⟩ | ⟨behind', rfl, hbehind⟩
    · -- the statement ends at the separator, and an empty one follows
      rw [ofTokens_ok hread, ofTokens_ok hread', ofTokens_empty hends]
    · rw [ofTokens_ok hread, ofTokens_ok hread', ih behind' (padded_behind hends hbehind)]

/-- Where one more separator makes an empty item, between the tokens before it and those after it. -/
inductive EmptyItem (before after : List Token) : (separator : String) → Prop
  /-- A semicolon at the start of a program. -/
  | programStart (hbefore : before = []) : EmptyItem before after ";"
  /-- A semicolon directly behind one that ends a statement. -/
  | statementEnd {front : List Token} {t : Token} (hbefore : before = front ++ [t])
      (ht : t.kind = .text ";") (hopened : (behind before).opened = []) : EmptyItem before after ";"
  /-- A semicolon at the start of a body, directly behind its brace if no parameter list follows. -/
  | bodyStart {front : List Token} {t : Token} (hbefore : before = front ++ [t])
      (ht : t.kind = .text "\x7b") (hafter : ∀ u ∈ after.head?, u.kind ≠ .text ":") :
      EmptyItem before after ";"
  /-- A semicolon at the start of a body, directly behind its parameter list. -/
  | parametersEnd {front : List Token} {t : Token} {outer : List Enclosure}
      (hbefore : before = front ++ [t]) (ht : t.kind = .text ")")
      (hopened : (behind front).opened = .parameters :: .body :: outer) : EmptyItem before after ";"
  /-- A semicolon directly behind one in a body. -/
  | behindSemicolon {front : List Token} {t : Token} {outer : List Enclosure}
      (hbefore : before = front ++ [t]) (ht : t.kind = .text ";")
      (hopened : (behind before).opened = .body :: outer) : EmptyItem before after ";"
  /-- A semicolon directly in front of one in a body, or of the closing brace. -/
  | beforeSemicolon {rest : List Token} {t : Token} {outer : List Enclosure}
      (hafter : after = t :: rest) (ht : t.kind = .text ";" ∨ t.kind = .text "\x7d")
      (hopened : (behind before).opened = .body :: outer) : EmptyItem before after ";"
  /-- A comma directly behind the opening bracket of arguments or parameters, or behind a comma there. -/
  | behindComma {front : List Token} {t : Token} {b : Enclosure} {outer : List Enclosure}
      (hbefore : before = front ++ [t]) (ht : t.kind = .text "(" ∨ t.kind = .text ",")
      (hopened : (behind before).opened = b :: outer) (hb : b ≠ .body) : EmptyItem before after ","
  /-- A comma directly in front of the closing bracket of arguments or parameters. -/
  | beforeBracket {rest : List Token} {t : Token} {b : Enclosure} {outer : List Enclosure}
      (hafter : after = t :: rest) (ht : t.kind = .text ")")
      (hopened : (behind before).opened = b :: outer) (hb : b ≠ .body) : EmptyItem before after ","

/-- The place behind one more token. -/
theorem behind_append (front : List Token) (t : Token) : behind (front ++ [t]) = (behind front).pass t := by
  simp [behind]

/-- An item starts behind a separator and behind an opening bracket. -/
theorem edge_of_kind {front : List Token} {t : Token}
    (ht : t.kind = .text ";" ∨ t.kind = .text "(" ∨ t.kind = .text ",") :
    (behind (front ++ [t])).edge = .fresh := by
  rw [behind_append]
  rcases ht with ht | ht | ht <;> simp [Place.pass, ht]

/-- Arguments and parameters are separated by commas. -/
theorem separator_of_ne {b : Enclosure} (hb : b ≠ .body) : b.separator = "," := by
  cases b with
  | arguments => rfl
  | parameters => rfl
  | body => exact absurd rfl hb

/-- At each of these places an item may be empty. -/
theorem EmptyItem.admits {before after : List Token} {kind : String}
    (h : EmptyItem before after kind) :
    (behind before).Admits after ∧ kind = separatorIn (behind before).opened := by
  cases h with
  | programStart hbefore =>
    subst hbefore
    exact ⟨.inl rfl, rfl⟩
  | statementEnd hbefore ht hopened =>
    rw [hopened]
    exact ⟨.inl (hbefore ▸ edge_of_kind (.inl ht)), rfl⟩
  | bodyStart hbefore ht hafter =>
    subst hbefore
    rw [behind_append, pass_brace ht]
    exact ⟨.inr (.inl ⟨rfl, hafter⟩), rfl⟩
  | @parametersEnd front t outer hbefore ht hopened =>
    subst hbefore
    have hpass : (behind front).pass t = ⟨.fresh, .body :: outer⟩ := by
      generalize behind front = s at hopened
      obtain ⟨e, opened⟩ := s
      obtain rfl : opened = .parameters :: .body :: outer := hopened
      exact pass_closing ht
    rw [behind_append, hpass]
    exact ⟨.inl rfl, rfl⟩
  | behindSemicolon hbefore ht hopened =>
    rw [hopened]
    exact ⟨.inl (hbefore ▸ edge_of_kind (.inl ht)), rfl⟩
  | beforeSemicolon hafter ht hopened =>
    subst hafter
    refine ⟨.inr (.inr ⟨_, rfl, ?_⟩), by rw [hopened]; rfl⟩
    rw [hopened]
    rcases ht with ht | ht <;> rw [ht] <;> rfl
  | @behindComma front t b outer hbefore ht hopened hb =>
    refine ⟨.inl (hbefore ▸ edge_of_kind (.inr ht)), ?_⟩
    rw [hopened]
    exact (separator_of_ne hb).symm
  | @beforeBracket rest t b outer hafter ht hopened hb =>
    subst hafter
    have hends : (stopIn (b :: outer)).endsAt (.text ")") = .ok true := by
      cases b with
      | arguments => rfl
      | parameters => rfl
      | body => exact absurd rfl hb
    rw [hopened]
    exact ⟨.inr (.inr ⟨t, rfl, by rw [hopened, ht, hends]⟩), (separator_of_ne hb).symm⟩

/-- **Empty items count for nothing.**  Put one more separator into tokens that are a program without a
    fault, at the start or at the end of any item of the program, of a body, or of a list of arguments or
    parameters, however deeply that is nested.  Then they are a program without a fault again, with just
    the same statements. -/
theorem empty_items_dropped {depth : Nat} {before after : List Token} {separator : Token}
    {kind : String}
    (haccepted : (Program.ofTokens (depth + 1) ⟨before ++ after, none⟩).fault = none)
    (hkind : separator.kind = .text kind) (hplace : EmptyItem before after kind) :
    (Program.ofTokens (depth + 1) ⟨before ++ separator :: after, none⟩).fault = none ∧
      (Program.ofTokens (depth + 1) ⟨before ++ separator :: after, none⟩).statements
        = (Program.ofTokens (depth + 1) ⟨before ++ after, none⟩).statements := by
  obtain ⟨hadmits, rfl⟩ := hplace.admits
  have hpadded : Padded separator .start (before ++ after) (before ++ separator :: after) :=
    .of_append (.here hadmits hkind)
  rw [ofTokens_padded _ haccepted _ hpadded]
  exact ⟨haccepted, rfl⟩

/-- The start of a call with a function, up to the end of its parameter list: `g ( { : ( p )`. -/
def nestedHead : List Token :=
  [nameToken (.text "g"), .sign '(', .sign '\x7b', .sign ':', .sign '(', nameToken (.text "p"),
    .sign ')']

/-- The rest of that call: `h ( ) ; } ) ;`. -/
def nestedTail : List Token :=
  [nameToken (.text "h"), .sign '(', .sign ')', .sign ';', .sign '\x7d', .sign ')', .sign ';']

/-- A semicolon at the start of the body makes no difference. -/
theorem nested_semicolon_dropped :
    (Program.ofTokens 20 ⟨nestedHead ++ nestedTail, none⟩).fault = none ∧
      EmptyItem nestedHead nestedTail ";" ∧
      (Program.ofTokens 20 ⟨nestedHead ++ .sign ';' :: nestedTail, none⟩).statements
        = (Program.ofTokens 20 ⟨nestedHead ++ nestedTail, none⟩).statements := by
  have haccepted : (Program.ofTokens 20 ⟨nestedHead ++ nestedTail, none⟩).fault = none := by
    decide +kernel
  have hclosed : nestedHead = nestedHead.dropLast ++ [.sign ')'] := rfl
  have hplace : EmptyItem nestedHead nestedTail ";" := .parametersEnd hclosed rfl rfl
  exact ⟨haccepted, hplace, (empty_items_dropped haccepted rfl hplace).2⟩

end Scrawl.Grammar
