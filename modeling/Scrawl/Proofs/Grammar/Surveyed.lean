/-
  Scrawl.Proofs.Grammar.Surveyed — the parser and the survey.

  Where the parser stands in front of a token with something read, a survey is AT that place: what it
  has kept are the marks of that.  When the parser comes back, the survey has got to the same token and is
  DONE with the expression.  One lemma follows each part of the parser, over a parser for everything
  deeper; `expression_followed` is the induction over the layers.
-/

import Scrawl.Proofs.Grammar.Appending
import Scrawl.Proofs.Grammar.Survey

namespace Scrawl.Grammar

namespace Survey

/-! ## §1. Passing tokens -/

theorem stopIn_spoil (opened : List (Bracket × Nat)) : stopIn (spoil opened) = stopIn opened := by
  cases opened with
  | nil => rfl
  | cons first outer =>
    obtain ⟨b, n⟩ := first
    cases b <;> rfl

theorem spoil_spoil (opened : List (Bracket × Nat)) : spoil (spoil opened) = spoil opened := by
  cases opened with
  | nil => rfl
  | cons first outer =>
    obtain ⟨b, n⟩ := first
    cases b <;> rfl

/-- What ends an expression is no colon. -/
theorem not_colon_of_endsAt {opened : List (Bracket × Nat)} {kind : Value}
    (h : (stopIn opened).endsAt kind = .ok true) : kind.isText ":" = false := by
  cases hcolon : kind.isText ":" with
  | false => rfl
  | true =>
    rw [Value.eq_of_isText hcolon] at h
    cases opened with
    | nil => cases h
    | cons first outer =>
      obtain ⟨b, n⟩ := first
      cases b <;> cases h

variable {s : Survey} {t : Token}

/-- Anywhere but at a colon that announces a parameter list, and behind it, it only counts whether the
    expression ends. -/
theorem pass_eq_goOn (hfront : s.front ≠ .colon) (ht : s.front = .head → t.kind.isText ":" = false) :
    s.pass t = s.goOn t := by
  unfold pass
  split
  · next h => exact absurd h hfront
  · next h => rw [ht h, if_neg Bool.false_ne_true]
  · rfl

/-- Behind the colon of a function only a bracket is passed. -/
theorem pass_of_colon (hfront : s.front = .colon) (t : Token) :
    s.pass t
      = if t.kind.isText "(" then some (s.enter (.parameters true) .start s.kept) else none := by
  unfold pass
  rw [hfront]

theorem pass_finish (hfront : s.front ≠ .colon)
    (hends : (stopIn s.opened).endsAt t.kind = .ok true) : s.pass t = s.finish t := by
  rw [pass_eq_goOn hfront (fun _ => not_colon_of_endsAt hends), goOn, hends]

theorem pass_proceed (hfront : s.front ≠ .colon) (ht : s.front = .head → t.kind.isText ":" = false)
    (hends : (stopIn s.opened).endsAt t.kind = .ok false) : s.pass t = s.proceed t := by
  rw [pass_eq_goOn hfront ht, goOn, hends]

theorem proceed_leaf {leaf : Tree} (hleaf : leaf? t = some leaf) (hbare : s.front.isBare = true) :
    s.proceed t = some (s.take t) := by
  rw [proceed, hleaf, hbare]
  rfl

theorem proceed_operation (h : t.kind.isText "operation" = true) :
    s.proceed t = some (s.owe (s.filled ++ [.token t])) := by
  obtain ⟨kind, value⟩ := t
  obtain rfl := Value.eq_of_isText h
  rfl

theorem proceed_bracket (h : t.kind.isText "(" = true) :
    s.proceed t = some (s.enter .arguments .start s.filled) := by
  obtain ⟨kind, value⟩ := t
  obtain rfl := Value.eq_of_isText h
  rfl

theorem proceed_brace (h : t.kind.isText "\x7b" = true) :
    s.proceed t = some (s.drop.enter .body .head s.drop.kept) := by
  obtain ⟨kind, value⟩ := t
  obtain rfl := Value.eq_of_isText h
  rfl

theorem proceed_equals (h : t.kind.isText "=" = true) :
    s.proceed t = if s.front = .name then some (s.owe s.kept) else none := by
  obtain ⟨kind, value⟩ := t
  obtain rfl := Value.eq_of_isText h
  rfl

/-! ## §2. Places and ways -/

/-- Whether something is more than a symbol. -/
def spoils : Option Tree → Bool
  | none | some (.symbol _) => false
  | some _ => true

/-- Some open brackets, when something has been found in them that may be more than a symbol. -/
def spoilIf (found : Bool) (opened : List (Bracket × Nat)) : List (Bracket × Nat) :=
  if found then spoil opened else opened

theorem stopIn_spoilIf (found : Bool) (opened : List (Bracket × Nat)) :
    stopIn (spoilIf found opened) = stopIn opened := by
  cases found with
  | false => rfl
  | true => exact stopIn_spoil opened

theorem spoilIf_spoilIf (found found' : Bool) (opened : List (Bracket × Nat)) :
    spoilIf found' (spoilIf found opened) = spoilIf (found || found') opened := by
  cases found <;> cases found' <;> first | rfl | exact spoil_spoil opened

/-- What can stand in front of the next token when something has been read; where nothing has, something
    may be owed. -/
def Fits (owed : Bool) : Option Tree → Front → Prop
  | none, front => front.isBare = true ∧ (front = .due ↔ owed = true)
  | some (.symbol _), front => front = .name
  | some _, front => front = .operand

theorem Fits.ne_colon {owed : Bool} {previous : Option Tree} {front : Front}
    (h : Fits owed previous front) : front ≠ .colon := by
  rintro rfl
  unfold Fits at h
  split at h
  · cases h.1
  · cases h
  · cases h

theorem Fits.isBare {owed : Bool} {tree : Tree} {front : Front}
    (h : Fits owed (some tree) front) : front.isBare = false := by
  cases tree <;> (obtain rfl := h; rfl)

/-- What has been read of an expression, as marks. -/
def readMarks : Option Tree → List Mark
  | none => []
  | some t => t.marks

/-- What has been read of an expression when it ends. -/
def endMarks (owed : Bool) : Option Tree → List Mark
  | none => if owed then [.gap] else []
  | some t => t.marks

/-- The survey stands where something has been read of an expression. -/
structure At (s : Survey) (base : List Mark) (around : List (Bracket × Nat)) (owed : Bool)
    (previous : Option Tree) : Prop where
  /-- The marks are those in front of the expression and those of it. -/
  kept : s.kept = base ++ readMarks previous
  /-- Those in front of it are settled. -/
  settled : s.settled = base.length
  /-- The open brackets are those around it. -/
  opened : s.opened = spoilIf (spoils previous) around
  /-- What stands directly in front is the end of what has been read. -/
  front : Fits owed previous s.front

/-- The survey stands where an expression ends. -/
structure Done (s : Survey) (base : List Mark) (around : List (Bracket × Nat)) (owed : Bool)
    (result : Option Tree) : Prop where
  /-- The marks are those in front of the expression and those of it. -/
  closed : s.closed = base ++ endMarks owed result
  /-- The open brackets are those around it. -/
  opened : s.opened = spoilIf (spoils result) around
  /-- A parameter list is not being announced. -/
  front : s.front ≠ .colon

/-- Going over some tokens, a survey comes to the rest of them, without finishing a statement. -/
structure Leads (ending : Option Fault) (s : Survey) (tokens : List Token) (s' : Survey)
    (rest : List Token) : Prop where
  /-- It goes on from there. -/
  run : s.run ending tokens = s'.run ending rest
  /-- No statement has been finished. -/
  finished : s'.finished = s.finished

theorem Leads.refl (ending : Option Fault) (s : Survey) (tokens : List Token) :
    Leads ending s tokens s tokens := ⟨rfl, rfl⟩

theorem Leads.trans {ending : Option Fault} {s s' s'' : Survey} {tokens rest more : List Token}
    (h : Leads ending s tokens s' rest) (h' : Leads ending s' rest s'' more) :
    Leads ending s tokens s'' more :=
  ⟨h.run.trans h'.run, h'.finished.trans h.finished⟩

theorem run_of_pass {s' : Survey} (h : s.pass t = some s') (ending : Option Fault)
    (rest : List Token) : s.run ending (t :: rest) = s'.run ending rest := by
  rw [run, h]

theorem leads_of_pass {s' : Survey} (h : s.pass t = some s') (hfinished : s'.finished = s.finished)
    (ending : Option Fault) (rest : List Token) : Leads ending s (t :: rest) s' rest :=
  ⟨run_of_pass h ending rest, hfinished⟩

/-- Where an expression ends at once, the survey is done with it. -/
theorem At.done {base : List Mark} {around : List (Bracket × Nat)} {owed : Bool}
    {previous : Option Tree} (h : s.At base around owed previous) :
    s.Done base around owed previous where
  closed := by
    have hfront := h.front
    rw [closed, h.kept]
    cases previous with
    | none =>
      by_cases hdue : s.front = .due
      · simp [hdue, hfront.2.1 hdue, readMarks, endMarks]
      · have howed : owed = false := by
          rw [← Bool.not_eq_true, ← hfront.2]
          exact hdue
        simp [hdue, howed, readMarks, endMarks]
    | some tree =>
      have hdue : s.front ≠ .due := by
        intro hdue
        have hbare := hfront.isBare
        rw [hdue] at hbare
        cases hbare
      rw [if_neg hdue]
      rfl
  opened := h.opened
  front := h.front.ne_colon

/-- A gap is filled in front of what needs an operand on its left. -/
theorem At.filled {base : List Mark} {around : List (Bracket × Nat)} {owed : Bool}
    {previous : Option Tree} (h : s.At base around owed previous) :
    s.filled = base ++ Tree.optionMarks previous := by
  rw [Survey.filled, h.kept]
  cases previous with
  | none => simp [h.front.1, readMarks, Tree.optionMarks]
  | some tree => simp [h.front.isBare, readMarks, Tree.optionMarks]

/-- What has been read of an expression can be dropped. -/
theorem At.drop_kept {base : List Mark} {around : List (Bracket × Nat)} {owed : Bool}
    {previous : Option Tree} (h : s.At base around owed previous) : s.drop.kept = base := by
  show s.kept.take s.settled = base
  rw [h.kept, h.settled, List.take_left]

/-- The open brackets, when more than a symbol has been found in them. -/
theorem At.spoil_opened {base : List Mark} {around : List (Bracket × Nat)} {owed : Bool}
    {previous : Option Tree} (h : s.At base around owed previous) :
    spoil s.opened = spoil around := by
  have hspoiled := spoilIf_spoilIf (spoils previous) true around
  rw [Bool.or_true] at hspoiled
  rw [h.opened]
  exact hspoiled

/-- Behind an operator or an equals sign, something is owed. -/
theorem At.owe {base : List Mark} {around : List (Bracket × Nat)} {owed : Bool}
    {previous : Option Tree} (h : s.At base around owed previous) (marks : List Mark) :
    (s.owe marks).At marks (spoil around) true none where
  kept := (List.append_nil marks).symm
  settled := rfl
  opened := h.spoil_opened
  front := ⟨rfl, by simp [Survey.owe]⟩

/-- Nothing has been read of the next item in the innermost bracket. -/
structure Ready (s : Survey) : Prop where
  /-- All marks are settled. -/
  settled : s.settled = s.kept.length
  /-- The item has not begun. -/
  front : s.front = .start ∨ s.front = .head

theorem Ready.isBare (h : s.Ready) : s.front.isBare = true := by
  rcases h.front with hfront | hfront <;> rw [hfront] <;> rfl

theorem Ready.ne_due (h : s.Ready) : s.front ≠ .due := by
  rcases h.front with hfront | hfront <;> rw [hfront] <;> decide

/-- An item begins. -/
theorem Ready.at (h : s.Ready) : s.At s.kept s.opened false none where
  kept := (List.append_nil _).symm
  settled := h.settled
  opened := rfl
  front := ⟨h.isBare, by simp [h.ne_due]⟩

/-- Behind the end of an expression the next one can begin. -/
theorem ready_next (s : Survey) (opened : List (Bracket × Nat)) : (s.next opened).Ready where
  settled := rfl
  front := .inl rfl

/-- The survey stands at the end of a list, some items of which have been collected. -/
structure Collected (s : Survey) (base : List Mark) (around : List (Bracket × Nat))
    (trees : List Tree) : Prop where
  /-- The marks are those in front of the list and those of the items. -/
  closed : s.closed = base ++ Tree.listMarks trees
  /-- The open brackets are those around the items. -/
  opened : s.opened = spoilIf (trees.any fun t => spoils (some t)) around
  /-- A parameter list is not being announced. -/
  front : s.front ≠ .colon

/-- An item, which may be empty, has been collected. -/
theorem Done.collected {base : List Mark} {around : List (Bracket × Nat)} {item : Option Tree}
    (h : s.Done base around false item) : s.Collected base around item.toList where
  closed := by
    rw [h.closed]
    cases item with
    | none => rfl
    | some t => simp [endMarks, Tree.listMarks]
  opened := by
    rw [h.opened]
    cases item with
    | none => rfl
    | some t => simp
  front := h.front

/-! ## §3. Lists of expressions -/

/-- What the parser reads, the survey goes over. -/
def Followed (ending : Option Fault) (p : ExpressionParser) : Prop :=
  ∀ {stop : Stop} {previous result : Option Tree} {tokens rest : List Token} {s : Survey}
    {base : List Mark} {around : List (Bracket × Nat)} {owed : Bool},
    p stop previous tokens = .ok (result, rest) → stop = stopIn around →
      s.At base around owed previous →
        ∃ s', Leads ending s tokens s' rest ∧ s'.Done base around owed result

section Lists

variable {ending : Option Fault} {inner : ExpressionParser}

/-- Passes what separates two items. -/
theorem finish_separator {b : Bracket} {n : Nat} {outer : List (Bracket × Nat)}
    (hopened : s.opened = (b, n) :: outer) (ht : t.kind.isText b.closing = false) :
    s.finish t = some (s.next s.opened) := by
  unfold finish
  rw [hopened]
  simp [ht]

/-- Passes what closes the arguments of a call or the body of a function. -/
theorem finish_closing {b : Bracket} {n : Nat} {outer : List (Bracket × Nat)}
    (hopened : s.opened = (b, n) :: outer) (ht : t.kind.isText b.closing = true)
    (hb : b = .arguments ∨ b = .body) :
    s.finish t
      = some { s with front := .operand, opened := outer, kept := s.closed, settled := n } := by
  unfold finish
  rw [hopened]
  rcases hb with rfl | rfl <;> simp [ht]

/-- Passes what closes a parameter list. -/
theorem finish_parameters {plain : Bool} {n : Nat} {outer : List (Bracket × Nat)}
    (hopened : s.opened = (.parameters plain, n) :: outer) (ht : t.kind.isText ")" = true) :
    s.finish t = if plain then some (s.next outer) else none := by
  unfold finish
  rw [hopened]
  have hclosing : t.kind.isText (Bracket.closing (.parameters plain)) = true := ht
  simp only [hclosing, if_true]

/-- The end of an item in a bracket. -/
theorem endsAt_item {b : Bracket} {n : Nat} {outer : List (Bracket × Nat)} {kind : Value}
    (h : kind.isText b.separator = true ∨ kind.isText b.closing = true) :
    (stopIn ((b, n) :: outer)).endsAt kind = .ok true := by
  rcases h with h | h <;> simp [stopIn, Stop.endsAt, h]

theorem spoilIf_cons (found : Bool) (b : Bracket) (n : Nat) (outer : List (Bracket × Nat)) :
    ∃ b' : Bracket, spoilIf found ((b, n) :: outer) = (b', n) :: outer ∧
      b'.separator = b.separator ∧ b'.closing = b.closing ∧
      (b = .arguments ∨ b = .body → b' = b) := by
  cases found with
  | false => exact ⟨b, rfl, rfl, rfl, fun _ => rfl⟩
  | true =>
    refine ⟨b.spoiled, rfl, by cases b <;> rfl, by cases b <;> rfl, ?_⟩
    rintro (rfl | rfl) <;> rfl

/-- One round of a list of items: the survey goes over the item, and over the separator if that is not
    what closes the bracket. -/
theorem item_followed (horderly : Orderly inner) (hinner : Followed ending inner) {b : Bracket} {n : Nat}
    {outer : List (Bracket × Nat)} (hopened : s.opened = (b, n) :: outer) (hready : s.Ready)
    {item : Option Tree} {stop : Token} {tokens behind : List Token}
    (hitem : inner (.item b.separator b.closing) none tokens = .ok (item, stop :: behind)) :
    ∃ s', Leads ending s tokens s' (stop :: behind) ∧ s'.Collected s.kept s.opened item.toList ∧
      (stop.kind.isText b.closing = false →
        Leads ending s tokens (s'.next s'.opened) behind) := by
  have hstop : Stop.item b.separator b.closing = stopIn s.opened := by rw [hopened]; rfl
  obtain ⟨s', hleads, hdone⟩ := hinner hitem hstop hready.at
  refine ⟨s', hleads, hdone.collected, fun hclosing => ?_⟩
  obtain ⟨u, more, hsame, hends⟩ := horderly.stops hitem
  obtain ⟨rfl, rfl⟩ := List.cons.inj hsame
  obtain ⟨b', hopened', -, hclosing', -⟩ := spoilIf_cons (spoils item) b n outer
  rw [← hopened, ← hdone.opened] at hopened'
  rw [hstop, ← stopIn_spoilIf (spoils item), ← hdone.opened] at hends
  have hpass : s'.pass stop = some (s'.next s'.opened) := by
    rw [pass_finish hdone.front hends]
    exact finish_separator hopened' (by rw [hclosing']; exact hclosing)
  exact hleads.trans (leads_of_pass hpass rfl ending behind)

/-- The items of a list are collected up to what closes it. -/
theorem items_followed (horderly : Orderly inner) (hinner : Followed ending inner) :
    ∀ {fuel : Nat} {tokens rest : List Token} {trees : List Tree} {s : Survey} {b : Bracket} {n : Nat}
      {outer : List (Bracket × Nat)}, s.opened = (b, n) :: outer → s.Ready →
      items ending inner b.separator b.closing fuel tokens = .ok (trees, rest) →
        ∃ s' last, Leads ending s tokens s' (last :: rest) ∧ last.kind.isText b.closing = true ∧
          s'.Collected s.kept s.opened trees := by
  intro fuel
  induction fuel with
  | zero => intro tokens rest trees s b n outer _ _ h; cases h
  | succ fuel ih =>
    intro tokens rest trees s b n outer hopened hready h
    obtain ⟨item, stop, behind, hitem, -, hend⟩ := items_succ_eq_ok h
    obtain ⟨s', hleads, hcollected, hnext⟩ :=
      item_followed horderly hinner hopened hready hitem
    obtain ⟨hclosing, rfl, rfl⟩ | ⟨hclosing, more, hmore, rfl⟩ := hend
    · exact ⟨s', stop, hleads, hclosing, hcollected⟩
    · -- the other items are collected behind the separator, in the same bracket
      obtain ⟨b', hopened', hseparator', hclosing', -⟩ :=
        spoilIf_cons (item.toList.any fun t => spoils (some t)) b n outer
      rw [← hopened, ← hcollected.opened] at hopened'
      rw [← hseparator', ← hclosing'] at hmore
      obtain ⟨s'', last, hleads', hlast, hothers⟩ :=
        ih (s := s'.next s'.opened) hopened' (ready_next s' _) hmore
      refine ⟨s'', last, (hnext hclosing).trans hleads', hclosing' ▸ hlast, ?_, ?_, hothers.front⟩
      · rw [hothers.closed, listMarks_append, ← List.append_assoc, ← hcollected.closed]
        rfl
      · rw [hothers.opened, List.any_append, ← spoilIf_spoilIf, ← hcollected.opened]
        rfl

/-- The items of a list in a bracket, which may be closed at once, are collected. -/
theorem group_followed (horderly : Orderly inner) (hinner : Followed ending inner) {b : Bracket} {n : Nat}
    {outer : List (Bracket × Nat)} (hopened : s.opened = (b, n) :: outer) (hready : s.Ready)
    {tokens rest : List Token} {trees : List Tree}
    (h : group ending inner b.separator b.closing tokens = .ok (trees, rest)) :
    ∃ s' last, Leads ending s tokens s' (last :: rest) ∧ last.kind.isText b.closing = true ∧
      s'.Collected s.kept s.opened trees := by
  obtain ⟨first, hclosing, rfl, rfl⟩ | ⟨-, -, -, -, h⟩ := group_cases h
  · exact ⟨s, first, .refl _ _ _, hclosing, hready.at.done.collected⟩
  · exact items_followed horderly hinner hopened hready h

/-- Behind the arguments of a call or the body of a function there is an operand. -/
theorem block_followed (horderly : Orderly inner) (hinner : Followed ending inner) {b : Bracket} {n : Nat}
    {outer : List (Bracket × Nat)} (hopened : s.opened = (b, n) :: outer) (hready : s.Ready)
    (hb : b = .arguments ∨ b = .body) {tokens rest : List Token} {trees : List Tree}
    (h : group ending inner b.separator b.closing tokens = .ok (trees, rest)) :
    ∃ s', Leads ending s tokens s' rest ∧ s'.front = .operand ∧ s'.opened = outer ∧
      s'.settled = n ∧ s'.kept = s.kept ++ Tree.listMarks trees := by
  obtain ⟨s', last, hleads, hlast, hcollected⟩ := group_followed horderly hinner hopened hready h
  have hspoiled : ∀ found, spoilIf found ((b, n) :: outer) = (b, n) :: outer := by
    intro found
    rcases hb with rfl | rfl <;> cases found <;> rfl
  have hopened' : s'.opened = (b, n) :: outer := by
    rw [hcollected.opened, hopened, hspoiled]
  have hpass := (pass_finish hcollected.front
    (by rw [hopened']; exact endsAt_item (.inr hlast))).trans (finish_closing hopened' hlast hb)
  exact ⟨_, hleads.trans (leads_of_pass hpass rfl ending rest), rfl, rfl, rfl, hcollected.closed⟩

/-- Symbols do not spoil a parameter list. -/
theorem any_spoils_symbols (names : List Value) :
    ((names.map Tree.symbol).any fun t => spoils (some t)) = false := by
  simp [spoils]

/-- Passes the colon that announces a parameter list. -/
theorem pass_colon (hhead : s.front = .head) (ht : t.kind.isText ":" = true) :
    s.pass t = some { s with front := .colon } := by
  unfold pass
  rw [hhead]
  simp [ht]

/-- Passes the opening bracket of a parameter list that has been announced. -/
theorem pass_announced (s : Survey) (ht : t.kind.isText "(" = true) :
    Survey.pass { s with front := .colon } t
      = some (s.enter (.parameters true) .start s.kept) :=
  (pass_of_colon rfl t).trans (if_pos ht)

/-- Behind its parameters, if it has any, the body of a function can begin. -/
theorem parameters_followed (horderly : Orderly inner) (hinner : Followed ending inner) {n : Nat}
    {outer : List (Bracket × Nat)} (hopened : s.opened = (.body, n) :: outer)
    (hready : s.Ready) (hhead : s.front = .head) {tokens rest : List Token} {names : List Value}
    (h : parameters ending inner tokens = .ok (names, rest)) :
    ∃ s', Leads ending s tokens s' rest ∧ s'.opened = s.opened ∧ s'.Ready ∧
      s'.kept = s.kept ++ Tree.listMarks (names.map .symbol) ∧
      (s'.front = .head → ∃ t behind, rest = t :: behind ∧ t.kind.isText ":" = false) := by
  obtain ⟨first, behind, hcolon, rfl, rfl, rfl⟩ |
    ⟨colon, bracket, inside, trees, hcolon, hbracket, rfl, hgroup, hnames⟩ := parameters_cases h
  · refine ⟨s, .refl _ _ _, rfl, hready, ?_, fun _ => ⟨first, behind, rfl, hcolon⟩⟩
    simp [Tree.listMarks]
  have henter : (s.enter (.parameters true) .start s.kept).opened
      = (.parameters true, s.settled) :: (.body, n) :: outer := by
    simp only [enter, hopened]
    rfl
  obtain ⟨s', last, hleads, hlast, hcollected⟩ := group_followed (b := .parameters true) horderly hinner
    henter ⟨rfl, .inl rfl⟩ hgroup
  -- all of the parameters are symbols, so the list can be closed
  obtain rfl := eq_symbols_of_mapM hnames
  have hopened' : s'.opened = (.parameters true, s.settled) :: (.body, n) :: outer := by
    rw [hcollected.opened, any_spoils_symbols, henter]
    rfl
  have hpass := (pass_finish hcollected.front
    (by rw [hopened']; exact endsAt_item (.inr hlast))).trans (finish_parameters hopened' hlast)
  rw [if_pos rfl] at hpass
  refine ⟨_, ?_, hopened.symm, ready_next s' _, hcollected.closed, fun hhead => by cases hhead⟩
  exact (leads_of_pass (pass_colon hhead hcolon) rfl ending _).trans
    ((leads_of_pass (pass_announced s hbracket) rfl ending _).trans
      (hleads.trans (leads_of_pass hpass rfl ending rest)))

end Lists

/-! ## §4. One layer -/

section Layer

variable {ending : Option Fault} {inner : ExpressionParser} {base : List Mark}
  {around : List (Bracket × Nat)} {owed : Bool} {previous : Option Tree}

/-- Passes a token of an expression that does not end it. -/
theorem At.pass_eq (h : s.At base around owed previous)
    (hends : (stopIn around).endsAt t.kind = .ok false)
    (ht : s.front = .head → t.kind.isText ":" = false) : s.pass t = s.proceed t := by
  refine pass_proceed h.front.ne_colon ht ?_
  rw [h.opened, stopIn_spoilIf]
  exact hends

/-- Passes a token that is an operand by itself. -/
theorem At.leaf (h : s.At base around owed none) {leaf : Tree} (hleaf : leaf? t = some leaf) :
    (s.take t).At base around owed (some leaf) := by
  have hkept : s.kept = base := h.kept.trans (List.append_nil base)
  have hopened : s.opened = around := h.opened
  cases Leaf.of_leaf? hleaf with
  | number => exact ⟨congrArg (· ++ _) hkept, h.settled, congrArg spoil hopened, rfl⟩
  | string => exact ⟨congrArg (· ++ _) hkept, h.settled, congrArg spoil hopened, rfl⟩
  | symbol => exact ⟨congrArg (· ++ _) hkept, h.settled, hopened, rfl⟩

theorem take_finished (s : Survey) (t : Token) : (s.take t).finished = s.finished := by
  unfold take
  split <;> rfl

/-- A leaf is no colon. -/
theorem not_colon_of_leaf {leaf : Tree} (hleaf : leaf? t = some leaf) :
    t.kind.isText ":" = false := by
  cases Leaf.of_leaf? hleaf <;> rfl

/-- Behind an operator or an equals sign the rest of the expression is read, and then it ends. -/
theorem owed_followed (horderly : Orderly inner) (hinner : Followed ending inner) {stop : Stop}
    (hstop : stop = stopIn around) (h : s.At base around owed previous) {marks : List Mark}
    {right : Option Tree} {tree : Tree} {result : Option Tree} {tokens left rest : List Token}
    (hmarks : marks ++ Tree.optionMarks right = base ++ tree.marks) (htree : spoils (some tree) = true)
    (hright : inner stop none tokens = .ok (right, left))
    (hlast : inner stop (some tree) left = .ok (result, rest)) :
    ∃ s', Leads ending (s.owe marks) tokens s' rest ∧ s'.Done base around owed result := by
  obtain ⟨s', hleads, hdone⟩ := hinner hright (hstop.trans (stopIn_spoil around).symm) (h.owe marks)
  obtain ⟨u, more, rfl, hends⟩ := horderly.stops hright
  obtain ⟨rfl, rfl⟩ := horderly.stays hends hlast
  refine ⟨s', hleads, ?_, ?_, hdone.front⟩
  · rw [hdone.closed, endMarks, ← hmarks]
    cases right <;> rfl
  · have hspoiled := spoilIf_spoilIf true (spoils right) around
    rw [hdone.opened, htree]
    exact hspoiled

/-- Behind its arguments, a call is an operand that starts where the callee did. -/
theorem call_followed (horderly : Orderly inner) (hinner : Followed ending inner)
    (h : s.At base around owed previous) {args : List Tree} {tokens left : List Token}
    (hargs : group ending inner "," ")" tokens = .ok (args, left)) :
    ∃ s', Leads ending (s.enter .arguments .start s.filled) tokens s' left ∧
      s'.At base around owed (some (.call previous args)) := by
  have henter : (s.enter .arguments .start s.filled).opened
      = (.arguments, s.settled) :: spoil s.opened := rfl
  obtain ⟨s', hleads, hfront, hopened, hsettled, hkept⟩ :=
    block_followed horderly hinner henter ⟨rfl, .inl rfl⟩ (.inl rfl) hargs
  exact ⟨s', hleads, by rw [hkept, enter, h.filled, List.append_assoc]; rfl,
    hsettled.trans h.settled, hopened.trans h.spoil_opened, hfront⟩

/-- Behind its body, a function is an operand, and what has been read in front of it is dropped. -/
theorem body_followed (horderly : Orderly inner) (hinner : Followed ending inner)
    (h : s.At base around owed previous) {s' : Survey} {params : List Value} {body : List Tree}
    {tokens left : List Token} (hopened : s'.opened = (.body, s.settled) :: spoil s.opened)
    (hready : s'.Ready) (hkept : s'.kept = s.drop.kept ++ Tree.listMarks (params.map .symbol))
    (hbody : group ending inner ";" "\x7d" tokens = .ok (body, left)) :
    ∃ s'', Leads ending s' tokens s'' left ∧
      s''.At base around owed (some (.function params body)) := by
  obtain ⟨s'', hleads, hfront, hopened', hsettled, hkept'⟩ :=
    block_followed horderly hinner hopened hready (.inr rfl) hbody
  refine ⟨s'', hleads, ?_, hsettled.trans h.settled, hopened'.trans h.spoil_opened, hfront⟩
  rw [hkept', hkept, h.drop_kept, listMarks_symbols, List.append_assoc]
  rfl

/-- What the parser reads behind a token that it has passed, the survey goes over. -/
theorem continueWith_followed (horderly : Orderly inner) (hinner : Followed ending inner) {stop : Stop}
    (hstop : stop = stopIn around) (h : s.At base around owed previous)
    (hends : stop.endsAt t.kind = .ok false) {result : Option Tree} {tokens rest : List Token}
    (hread : continueWith ending inner stop previous t tokens = .ok (result, rest)) :
    ∃ s', Leads ending s (t :: tokens) s' rest ∧ s'.Done base around owed result := by
  rw [hstop] at hends
  obtain ⟨right, left, hkind, hright, hlast⟩ | ⟨args, left, hkind, hargs, hlast⟩ |
    ⟨params, left, body, left', hkind, hparams, hbody, hlast⟩ |
    ⟨name, value, left, hkind, rfl, hvalue, hlast⟩ := continueWith_cases hread
  · -- an operator: what is missing in front of it leaves a gap
    have hpass := (h.pass_eq hends fun _ => by rw [Value.eq_of_isText hkind]; rfl).trans
      (proceed_operation hkind)
    have hmarks : s.filled ++ [.token t] ++ Tree.optionMarks right
        = base ++ (Tree.operation t.value previous right).marks := by
      obtain ⟨kind, value⟩ := t
      obtain rfl := Value.eq_of_isText hkind
      simp [h.filled, Tree.marks]
    obtain ⟨s', hleads, hdone⟩ := owed_followed horderly hinner hstop h hmarks rfl hright hlast
    exact ⟨s', (leads_of_pass hpass rfl ending tokens).trans hleads, hdone⟩
  · have hpass := (h.pass_eq hends fun _ => by rw [Value.eq_of_isText hkind]; rfl).trans
      (proceed_bracket hkind)
    obtain ⟨s', hleads, hcall⟩ := call_followed horderly hinner h hargs
    obtain ⟨s'', hleads', hdone⟩ := hinner hlast hstop hcall
    exact ⟨s'', (leads_of_pass hpass rfl ending tokens).trans (hleads.trans hleads'), hdone⟩
  · have hpass := (h.pass_eq hends fun _ => by rw [Value.eq_of_isText hkind]; rfl).trans
      (proceed_brace hkind)
    have henter : (s.drop.enter .body .head s.drop.kept).opened
        = (.body, s.settled) :: spoil s.opened := rfl
    obtain ⟨s₁, hleads, hopened, hready, hkept, -⟩ :=
      parameters_followed horderly hinner henter ⟨rfl, .inr rfl⟩ rfl hparams
    obtain ⟨s₂, hleads', hfunction⟩ :=
      body_followed horderly hinner h (hopened.trans henter) hready hkept hbody
    obtain ⟨s₃, hleads'', hdone⟩ := hinner hlast hstop hfunction
    exact ⟨s₃, (leads_of_pass hpass rfl ending tokens).trans
      (hleads.trans (hleads'.trans hleads'')), hdone⟩
  · -- an assignment: the symbol in front of it is kept
    have hname : s.front = .name := h.front
    have hpass := (h.pass_eq hends fun _ => by rw [Value.eq_of_isText hkind]; rfl).trans
      ((proceed_equals hkind).trans (if_pos hname))
    have hmarks : s.kept ++ Tree.optionMarks value
        = base ++ (Tree.assignment name value).marks := by
      simp [h.kept, readMarks, Tree.marks]
    obtain ⟨s', hleads, hdone⟩ := owed_followed horderly hinner hstop h hmarks rfl hvalue hlast
    exact ⟨s', (leads_of_pass hpass rfl ending tokens).trans hleads, hdone⟩

theorem expressionLayer_followed (horderly : Orderly inner) (hinner : Followed ending inner) :
    Followed ending (expressionLayer ending inner) := by
  intro stop previous result tokens rest s base around owed hread hstop h
  obtain ⟨t, behind, rfl, ⟨-, rfl, rfl⟩ | ⟨hends, ⟨leaf, rfl, hleaf, hread⟩ | ⟨-, hread⟩⟩⟩ :=
    expressionLayer_cases hread
  · exact ⟨s, .refl _ _ _, h.done⟩
  · have hpass := (h.pass_eq (hstop ▸ hends) fun _ => not_colon_of_leaf hleaf).trans
      (proceed_leaf hleaf h.front.1)
    obtain ⟨s', hleads, hdone⟩ := hinner hread hstop (h.leaf hleaf)
    exact ⟨s', (leads_of_pass hpass (take_finished s t) ending behind).trans hleads, hdone⟩
  · exact continueWith_followed horderly hinner hstop h hends hread

end Layer

/-- **Whatever the parser reads, the survey goes over.** -/
theorem expression_followed (ending : Option Fault) :
    ∀ depth : Nat, Followed ending (expression ending depth) := by
  intro depth
  induction depth with
  | zero => intro stop previous result tokens rest s base around owed h; cases h
  | succ depth ih => exact expressionLayer_followed (expression_orderly ending depth) ih

/-! ## §5. Statements -/

/-- The survey stands between two statements. -/
structure Between (s : Survey) : Prop where
  /-- All marks are settled. -/
  settled : s.settled = s.kept.length
  /-- Nothing stands in front. -/
  front : s.front = .start
  /-- No bracket is open. -/
  opened : s.opened = []
  /-- The marks are those of the finished statements. -/
  finished : s.finished = s.kept

theorem between_start : Between .start := ⟨rfl, rfl, rfl, rfl⟩

theorem Between.ready (h : s.Between) : s.Ready := ⟨h.settled, .inl h.front⟩

/-- A statement that may be empty is gone over with the token that ends it. -/
theorem statement_followed {ending : Option Fault} {depth : Nat} {tokens behind : List Token}
    {statement : Option Tree} (h : s.Between)
    (hread : expression ending depth .statement none tokens = .ok (statement, t :: behind)) :
    ∃ s' : Survey, s.run ending tokens = s'.run ending behind ∧ s'.Between ∧
      s'.kept = s.kept ++ Tree.listMarks statement.toList := by
  have hstop : Stop.statement = stopIn s.opened := by rw [h.opened]; rfl
  obtain ⟨s', hleads, hdone⟩ := expression_followed ending depth hread hstop h.ready.at
  have hcollected := hdone.collected
  have hopened : s'.opened = [] := by
    rw [hcollected.opened, h.opened]
    cases statement.toList.any fun t => spoils (some t) <;> rfl
  obtain ⟨u, more, hsame, hends⟩ := (expression_orderly ending depth).stops hread
  obtain ⟨rfl, rfl⟩ := List.cons.inj hsame
  have hpass : s'.pass t = some { s'.next [] with finished := s'.closed } := by
    rw [pass_finish hdone.front (by rw [hopened]; exact hends), finish, hopened]
  refine ⟨_, hleads.run.trans (run_of_pass hpass ending behind), ⟨rfl, rfl, rfl, rfl⟩, ?_⟩
  exact hcollected.closed

/-- **A program without a fault is gone over to its end,** and the marks kept are those of its
    statements. -/
theorem program_followed {ending : Option Fault} {depth : Nat} (tokens : List Token)
    (h : (Program.ofTokens depth ⟨tokens, ending⟩).fault = none) :
    ∀ s : Survey, s.Between → ∃ s', s.run ending tokens = (.accepted, s') ∧
      s'.kept = s.kept ++ Tree.listMarks (Program.ofTokens depth ⟨tokens, ending⟩).statements := by
  refine faultless_induction (P := fun tokens => ∀ s : Survey, s.Between →
    ∃ s', s.run ending tokens = (.accepted, s') ∧
      s'.kept = s.kept ++ Tree.listMarks (Program.ofTokens depth ⟨tokens, ending⟩).statements)
    ?_ ?_ tokens h
  · rintro rfl s hs
    refine ⟨s, ?_, (List.append_nil _).symm⟩
    simp [run, verdict, hs.front, hs.opened]
  · intro tokens statement t behind hread _ ih s hs
    obtain ⟨s', hrun, hs', hkept⟩ := statement_followed hs hread
    obtain ⟨s'', hrun', hkept'⟩ := ih s' hs'
    refine ⟨s'', hrun.trans hrun', ?_⟩
    rw [hkept', hkept, ofTokens_ok hread, Program.behind, listMarks_append, List.append_assoc]

end Survey

end Scrawl.Grammar
