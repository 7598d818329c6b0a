/-
  Scrawl.Proofs.Grammar.Tracking — where the parser fails, the survey fails.

  Each part of the parser has an inversion that lists all ways in which it can fail.  In each of them the
  survey comes to the same token and cannot pass it: either a syntax error is reported there, or
  something that is not there has been taken for a token or an expression.  `expression_tracked` is
  the induction over the layers.
-/

import Scrawl.Proofs.Grammar.Surveyed

namespace Scrawl.Grammar

/-! ## §1. Ways to fail -/

/-- A sequence of two computations fails exactly if one of them does. -/
theorem bind_eq_error {ε α β : Type} {x : Except ε α} {k : α → Except ε β} {f : ε} :
    (x >>= k) = .error f ↔ x = .error f ∨ ∃ a, x = .ok a ∧ k a = .error f := by
  cases x with
  | error e =>
    constructor
    · intro h
      obtain rfl := Except.error.inj h
      exact .inl rfl
    · rintro (h | ⟨a, h, -⟩)
      · obtain rfl := Except.error.inj h
        rfl
      · cases h
  | ok a =>
    constructor
    · intro h
      exact .inr ⟨a, rfl, h⟩
    · rintro (h | ⟨b, h, hk⟩)
      · cases h
      · obtain rfl := Except.ok.inj h
        exact hk

/-- Passing a token fails where a fault stands behind the last one. -/
theorem advance_eq_error {ending : Option Fault} {tokens : List Token} {f : Fault}
    (h : advance ending tokens = .error f) : ∃ t, tokens = [t] ∧ ending = some f := by
  cases tokens with
  | nil => cases h
  | cons t rest =>
    cases rest with
    | cons u rest => cases h
    | nil =>
      cases ending with
      | none => cases h
      | some g =>
        obtain rfl := Except.error.inj h
        exact ⟨t, rfl, rfl⟩

/-- The last token can only be passed if no fault stands behind it. -/
theorem ending_of_advance {ending : Option Fault} {t : Token} {rest tokens : List Token}
    (h : advance ending (t :: rest) = .ok tokens) (hrest : rest = []) : ending = none := by
  subst hrest
  cases ending with
  | none => rfl
  | some f => cases h

theorem expect_eq_error {expected : String} {tokens : List Token} {f : Fault}
    (h : expect expected tokens = .error f) : tokens = [] ∧ f = .endOfInput expected := by
  cases tokens with
  | nil => exact ⟨rfl, (Except.error.inj h).symm⟩
  | cons t rest => cases h

theorem glance_eq_error {tokens : List Token} {f : Fault} (h : glance tokens = .error f) :
    tokens = [] ∧ f = .notIndexable (Value.kind .nil) := by
  cases tokens with
  | nil => exact ⟨rfl, (Except.error.inj h).symm⟩
  | cons t rest => cases h

section Lists

variable {ending : Option Fault} {inner : ExpressionParser} {separator close : String} {f : Fault}

/-- All ways in which a round of a list of items can fail: in the item, behind the token that ends it, or
    in the other items. -/
theorem items_succ_eq_error (horderly : Orderly inner) {fuel : Nat} {tokens : List Token}
    (h : items ending inner separator close (fuel + 1) tokens = .error f) :
    inner (.item separator close) none tokens = .error f ∨
    ∃ item stop behind, inner (.item separator close) none tokens = .ok (item, stop :: behind) ∧
      ((behind = [] ∧ ending = some f) ∨
        (behind = [] ∧ ending = none ∧ f = .endOfInput close) ∨
        (behind ≠ [] ∧ stop.kind.isText close = false ∧
          items ending inner separator close fuel behind = .error f)) := by
  unfold items at h
  rw [bind_eq_error] at h
  obtain h | ⟨⟨item, left⟩, hitem, h⟩ := h
  · exact .inl h
  obtain ⟨stop, behind, rfl, -⟩ := horderly.stops hitem
  refine .inr ⟨item, stop, behind, hitem, ?_⟩
  simp only [bind_eq_error, glance] at h
  obtain h | ⟨_, hstop, h⟩ := h
  · cases h
  obtain rfl := Except.ok.inj hstop
  obtain h | ⟨left, hleft, h⟩ := h
  · obtain ⟨t, hlast, hending⟩ := advance_eq_error h
    exact .inl ⟨(List.cons.inj hlast).2, hending⟩
  obtain rfl := advance_eq_ok hleft
  obtain h | ⟨next, hnext, h⟩ := h
  · obtain ⟨rfl, rfl⟩ := expect_eq_error h
    exact .inr (.inl ⟨rfl, ending_of_advance hleft rfl, rfl⟩)
  obtain ⟨more, rfl⟩ := expect_eq_ok hnext
  refine .inr (.inr ⟨List.cons_ne_nil _ _, ?_⟩)
  by_cases hclose : stop.kind.isText close = true
  · rw [if_pos hclose] at h
    cases h
  · rw [if_neg hclose, bind_eq_error] at h
    refine ⟨by simpa using hclose, ?_⟩
    obtain h | ⟨_, -, h⟩ := h
    · exact h
    · cases h

/-- All ways in which a list of expressions can fail: there is no token, a fault stands behind the token
    that closes it at once, or an item fails. -/
theorem group_eq_error {tokens : List Token}
    (h : group ending inner separator close tokens = .error f) :
    (tokens = [] ∧ f = .endOfInput close) ∨
    (∃ first, first.kind.isText close = true ∧ tokens = [first] ∧ ending = some f) ∨
    ∃ first behind, tokens = first :: behind ∧
      items ending inner separator close tokens.length tokens = .error f := by
  unfold group at h
  rw [bind_eq_error] at h
  obtain h | ⟨first, hfirst, h⟩ := h
  · exact .inl (expect_eq_error h)
  obtain ⟨behind, rfl⟩ := expect_eq_ok hfirst
  by_cases hclose : first.kind.isText close = true
  · rw [if_pos hclose, bind_eq_error] at h
    obtain h | ⟨_, -, h⟩ := h
    · obtain ⟨t, hlast, hending⟩ := advance_eq_error h
      obtain ⟨-, rfl⟩ := List.cons.inj hlast
      exact .inr (.inl ⟨first, hclose, rfl, hending⟩)
    · cases h
  · rw [if_neg hclose] at h
    exact .inr (.inr ⟨first, behind, rfl, h⟩)

/-- A list of expressions is only closed by the last token if no fault stands behind it. -/
theorem ending_of_group {tokens : List Token} {trees : List Tree}
    (h : group ending inner separator close tokens = .ok (trees, [])) : ending = none := by
  obtain ⟨first, hclose, rfl, -⟩ | ⟨first, behind, hclose, rfl, hitems⟩ := group_cases h
  · unfold group at h
    simp only [bind_eq_ok, expect] at h
    obtain ⟨_, hfirst, h⟩ := h
    obtain rfl := Except.ok.inj hfirst
    rw [if_pos hclose, bind_eq_ok] at h
    obtain ⟨_, hleft, -⟩ := h
    exact ending_of_advance hleft rfl
  · -- behind the last item there is always another token
    exfalso
    generalize (first :: behind).length = fuel at hitems
    generalize first :: behind = tokens at hitems
    clear h
    induction fuel generalizing tokens trees with
    | zero => cases hitems
    | succ fuel ih =>
      obtain ⟨item, stop, more, -, hne, ⟨-, -, hrest⟩ | ⟨-, others, hothers, -⟩⟩ :=
        items_succ_eq_ok hitems
      · exact hne hrest.symm
      · exact ih more hothers

/-- All ways in which a parameter list can fail. -/
theorem parameters_eq_error {tokens : List Token} (h : parameters ending inner tokens = .error f) :
    (tokens = [] ∧ f = .notIndexable (Value.kind .nil)) ∨
    ∃ colon behind, colon.kind.isText ":" = true ∧ tokens = colon :: behind ∧
      ((behind = [] ∧ ending = some f) ∨
        (behind = [] ∧ ending = none ∧ f = .notIndexable (Value.kind .nil)) ∨
        ∃ second inside, behind = second :: inside ∧
          ((second.kind.isText "(" = false ∧ f = .noParameterList) ∨
            (second.kind.isText "(" = true ∧
              ((inside = [] ∧ ending = some f) ∨
                (inside = [] → ending = none) ∧
                  (group ending inner "," ")" inside = .error f ∨
                    ∃ trees rest, group ending inner "," ")" inside = .ok (trees, rest) ∧
                      trees.mapM parameterName = .error f))))) := by
  unfold parameters at h
  rw [bind_eq_error] at h
  obtain h | ⟨colon, hfirst, h⟩ := h
  · exact .inl (glance_eq_error h)
  obtain ⟨behind, rfl⟩ := glance_eq_ok hfirst
  by_cases hcolon : (!colon.kind.isText ":") = true
  · rw [if_pos hcolon] at h
    cases h
  rw [if_neg hcolon, bind_eq_error] at h
  refine .inr ⟨colon, behind, by simpa using hcolon, rfl, ?_⟩
  obtain h | ⟨left, hleft, h⟩ := h
  · obtain ⟨t, hlast, hending⟩ := advance_eq_error h
    exact .inl ⟨(List.cons.inj hlast).2, hending⟩
  obtain rfl := advance_eq_ok hleft
  rw [bind_eq_error] at h
  obtain h | ⟨second, hsecond, h⟩ := h
  · obtain ⟨rfl, rfl⟩ := glance_eq_error h
    exact .inr (.inl ⟨rfl, ending_of_advance hleft rfl, rfl⟩)
  obtain ⟨inside, rfl⟩ := glance_eq_ok hsecond
  refine .inr (.inr ⟨second, inside, rfl, ?_⟩)
  by_cases hopen : (!second.kind.isText "(") = true
  · rw [if_pos hopen, bind_eq_error] at h
    obtain h | ⟨_, h, -⟩ := h
    · exact .inl ⟨by simpa using hopen, (Except.error.inj h).symm⟩
    · cases h
  rw [if_neg hopen, bind_eq_error] at h
  refine .inr ⟨by simpa using hopen, ?_⟩
  obtain h | ⟨left, hleft', h⟩ := h
  · obtain ⟨t, hlast, hending⟩ := advance_eq_error h
    exact .inl ⟨(List.cons.inj hlast).2, hending⟩
  obtain rfl := advance_eq_ok hleft'
  refine .inr ⟨ending_of_advance hleft', ?_⟩
  rw [bind_eq_error] at h
  obtain h | ⟨⟨trees, rest⟩, hgroup, h⟩ := h
  · exact .inl h
  · rw [bind_eq_error] at h
    obtain h | ⟨_, -, h⟩ := h
    · exact .inr ⟨trees, rest, hgroup, h⟩
    · cases h

/-- A parameter list is only read up to the end of the tokens if no fault stands behind them. -/
theorem ending_of_parameters {tokens : List Token} {names : List Value}
    (h : parameters ending inner tokens = .ok (names, [])) : ending = none := by
  obtain ⟨first, behind, -, rfl, -, hnil⟩ | ⟨_, _, inside, trees, -, -, -, hgroup, -⟩ :=
    parameters_cases h
  · cases hnil
  · exact ending_of_group hgroup

end Lists

/-! ## §2. Surveys that cannot go on -/

/-- The faults that report a syntax error. -/
def isSyntaxFault : Fault → Bool
  | .unterminated | .unknownCharacter _ | .endOfInput _ | .noParameterList | .badParameter _
  | .badTarget | .unexpectedToken _ => true
  | _ => false

/-- The kinds of all tokens are texts. -/
def AllText (tokens : List Token) : Prop := ∀ t ∈ tokens, ∃ kind : String, t.kind = .text kind

theorem AllText.suffix {tokens rest : List Token} (h : AllText tokens) (hrest : rest <:+ tokens) :
    AllText rest :=
  fun t ht => h t (hrest.subset ht)

theorem AllText.tail {t : Token} {rest : List Token} (h : AllText (t :: rest)) : AllText rest :=
  h.suffix (List.suffix_cons t rest)

namespace Survey

variable {s : Survey} {t : Token} {ending : Option Fault}

/-- Going over tokens ends in a given way, before a statement is finished. -/
structure Ends (ending : Option Fault) (s : Survey) (tokens : List Token) (v : Verdict) : Prop where
  /-- In this way. -/
  verdict : (s.run ending tokens).1 = v
  /-- No statement has been finished. -/
  finished : (s.run ending tokens).2.finished = s.finished

theorem Ends.of_leads {s' : Survey} {tokens rest : List Token} {v : Verdict}
    (h : Leads ending s tokens s' rest) (hends : Ends ending s' rest v) : Ends ending s tokens v :=
  ⟨by rw [h.run]; exact hends.verdict, by rw [h.run, hends.finished, h.finished]⟩

/-- Where the parser fails, going over the tokens ends in the way that fits its fault, unless the
    nesting is too deep. -/
inductive Fails (ending : Option Fault) (s : Survey) (tokens : List Token) : Fault → Prop
  /-- The nesting is too deep. -/
  | deep : Fails ending s tokens .tooDeep
  /-- A syntax error is reported. -/
  | refused {f : Fault} (hf : isSyntaxFault f = true) (h : Ends ending s tokens .refused) :
      Fails ending s tokens f
  /-- Something is taken for a token or an expression that is not there. -/
  | stumbled (h : Ends ending s tokens .stumbled) :
      Fails ending s tokens (.notIndexable (Value.kind .nil))

theorem Fails.of_leads {s' : Survey} {tokens rest : List Token} {f : Fault}
    (h : Leads ending s tokens s' rest) (hfails : Fails ending s' rest f) :
    Fails ending s tokens f := by
  cases hfails with
  | deep => exact .deep
  | refused hf hends => exact .refused hf (hends.of_leads h)
  | stumbled hends => exact .stumbled (hends.of_leads h)

/-- A fault stands behind the last token. -/
theorem refused_at_fault {f : Fault} (h : ending = some f) : Ends ending s [] .refused :=
  ⟨by simp [run, h], rfl⟩

/-- The tokens end where more would have to come. -/
theorem refused_at_end (hending : ending = none) (hhead : s.front ≠ .head)
    (hcolon : s.front ≠ .colon) (hstart : s.front = .start → s.opened ≠ []) :
    Ends ending s [] .refused := by
  refine ⟨?_, rfl⟩
  have hverdict : s.verdict = .refused := by
    unfold verdict
    split
    · next hfront hopened => exact absurd hopened (hstart hfront)
    · next hfront => exact absurd hfront hhead
    · next hfront => exact absurd hfront hcolon
    · rfl
  simp [run, hending, hverdict]

/-- The tokens end directly behind the opening brace or the colon of a function. -/
theorem stumbled_at_end (hending : ending = none) (h : s.front = .head ∨ s.front = .colon) :
    Ends ending s [] .stumbled := by
  refine ⟨?_, rfl⟩
  rcases h with h | h <;> simp [run, hending, verdict, h]

/-- A token cannot stand here. -/
theorem refused_of_stuck (hpass : s.pass t = none) (htrips : s.trips t = false)
    (rest : List Token) : Ends ending s (t :: rest) .refused := by
  have hrun : s.run ending (t :: rest) = (.refused, s) := by simp [run, hpass, htrips]
  exact ⟨by rw [hrun], by rw [hrun]⟩

/-- A fault stands behind a token that finishes no statement. -/
theorem refused_at_last {f : Fault} (hending : ending = some f)
    (hfinished : ∀ s', s.pass t = some s' → s'.finished = s.finished) :
    Ends ending s [t] .refused := by
  cases hpass : s.pass t with
  | some s' => exact (refused_at_fault hending).of_leads (leads_of_pass hpass (hfinished s' hpass) _ _)
  | none =>
    have hrun : s.run ending [t] = (.refused, s) := by simp [run, hpass, hending]
    exact ⟨by rw [hrun], by rw [hrun]⟩

/-- A token that does not end an expression finishes no statement. -/
theorem finished_of_proceed {s' : Survey} (h : s.proceed t = some s') : s'.finished = s.finished := by
  unfold proceed at h
  split at h
  · split at h
    · obtain rfl := Option.some.inj h
      exact take_finished s t
    · cases h
  split at h
  · obtain rfl := Option.some.inj h
    rfl
  split at h
  · obtain rfl := Option.some.inj h
    rfl
  split at h
  · obtain rfl := Option.some.inj h
    rfl
  split at h
  · split at h
    · obtain rfl := Option.some.inj h
      rfl
    · cases h
  · cases h

/-- What ends an expression in a bracket finishes no statement, and the tokens cannot end behind it. -/
theorem finish_in_bracket {s' : Survey} {b : Bracket} {n : Nat} {outer : List (Bracket × Nat)}
    (hopened : s.opened = (b, n) :: outer) (hnested : outer = [] → b = .arguments ∨ b = .body)
    (h : s.finish t = some s') :
    s'.finished = s.finished ∧ (s'.front = .operand ∨ (s'.front = .start ∧ s'.opened ≠ [])) := by
  cases hclosing : t.kind.isText b.closing with
  | false =>
    rw [finish_separator hopened hclosing] at h
    obtain rfl := Option.some.inj h
    exact ⟨rfl, .inr ⟨rfl, by simp [next, hopened]⟩⟩
  | true =>
    cases b with
    | arguments =>
      rw [finish_closing hopened hclosing (.inl rfl)] at h
      obtain rfl := Option.some.inj h
      exact ⟨rfl, .inl rfl⟩
    | body =>
      rw [finish_closing hopened hclosing (.inr rfl)] at h
      obtain rfl := Option.some.inj h
      exact ⟨rfl, .inl rfl⟩
    | parameters plain =>
      rw [finish_parameters hopened hclosing] at h
      split at h
      · obtain rfl := Option.some.inj h
        refine ⟨rfl, .inr ⟨rfl, fun hnil => ?_⟩⟩
        obtain hb | hb := hnested hnil <;> cases hb
      · cases h

/-- What ends an expression is no equals sign. -/
theorem not_trips_of_endsAt {opened : List (Bracket × Nat)}
    (h : (stopIn opened).endsAt t.kind = .ok true) : s.trips t = false := by
  cases hequals : t.kind.isText "=" with
  | false => simp [trips, hequals]
  | true =>
    rw [Value.eq_of_isText hequals] at h
    cases opened with
    | nil => cases h
    | cons first outer =>
      obtain ⟨b, n⟩ := first
      cases b <;> cases h

/-! ## §3. Lists of expressions that fail -/

/-- The survey stands where the parser may fail: if there are no more tokens, there is no fault behind them
    and a bracket or an expression is open, and a colon has not been passed over. -/
structure Poised (ending : Option Fault) (s : Survey) (tokens : List Token) : Prop where
  /-- The tokens do not end in a fault that should have come to light. -/
  ending : tokens = [] → ending = none
  /-- They do not end between statements. -/
  start : tokens = [] → s.front = .start → s.opened ≠ []
  /-- Directly behind an opening brace there is a token that does not announce parameters. -/
  head : s.front = .head → ∃ t rest, tokens = t :: rest ∧ t.kind.isText ":" = false

/-- Where a parser fails, the survey fails. -/
def Tracked (ending : Option Fault) (p : ExpressionParser) : Prop :=
  ∀ {stop : Stop} {previous : Option Tree} {tokens : List Token} {f : Fault} {s : Survey}
    {base : List Mark} {around : List (Bracket × Nat)} {owed : Bool}, AllText tokens →
    p stop previous tokens = .error f → stop = stopIn around → s.At base around owed previous →
      Poised ending s tokens → Fails ending s tokens f

/-- Behind the end of an item there is always another token to be read. -/
theorem poised_next (s : Survey) (opened : List (Bracket × Nat)) {tokens : List Token}
    (h : tokens ≠ []) : Poised ending (s.next opened) tokens :=
  ⟨fun hnil => absurd hnil h, fun hnil => absurd hnil h, fun hhead => by cases hhead⟩

section Lists

variable {inner : ExpressionParser} (hending : ∀ f ∈ ending, isSyntaxFault f = true)
  (horderly : Orderly inner) (hfollowed : Followed ending inner) (htracked : Tracked ending inner)
include hending horderly hfollowed htracked

theorem items_tracked :
    ∀ {fuel : Nat} {tokens : List Token} {f : Fault} {s : Survey} {b : Bracket} {n : Nat}
      {outer : List (Bracket × Nat)}, s.opened = (b, n) :: outer →
      (outer = [] → b = .arguments ∨ b = .body) → s.Ready → Poised ending s tokens →
      AllText tokens → items ending inner b.separator b.closing fuel tokens = .error f →
        Fails ending s tokens f := by
  intro fuel
  induction fuel with
  | zero =>
    intro tokens f s b n outer _ _ _ _ _ h
    obtain rfl := Except.error.inj h
    exact .deep
  | succ fuel ih =>
    intro tokens f s b n outer hopened hnested hready hpoised htext h
    have hstop : Stop.item b.separator b.closing = stopIn s.opened := by rw [hopened]; rfl
    obtain hitem | ⟨item, stop, behind, hitem, hbehind⟩ := items_succ_eq_error horderly h
    · exact htracked htext hitem hstop hready.at hpoised
    obtain ⟨s', hleads, hcollected, hnext⟩ :=
      item_followed horderly hfollowed hopened hready hitem
    obtain ⟨b', hopened', hseparator', hclosing', hsame⟩ :=
      spoilIf_cons (item.toList.any fun t => spoils (some t)) b n outer
    rw [← hopened, ← hcollected.opened] at hopened'
    have hnested' : outer = [] → b' = .arguments ∨ b' = .body := fun hnil => by
      rw [hsame (hnested hnil)]
      exact hnested hnil
    have hends : (stopIn s'.opened).endsAt stop.kind = .ok true := by
      obtain ⟨u, more, hu, hends⟩ := horderly.stops hitem
      obtain ⟨rfl, rfl⟩ := List.cons.inj hu
      rw [hcollected.opened, stopIn_spoilIf, ← hstop]
      exact hends
    have hpass := pass_finish hcollected.front hends
    obtain ⟨rfl, hfault⟩ | ⟨rfl, hnone, rfl⟩ | ⟨hne, hclosing, hothers⟩ := hbehind
    · refine .of_leads hleads (.refused (hending f hfault) (refused_at_last hfault fun s'' hs'' => ?_))
      exact (finish_in_bracket hopened' hnested' (hpass ▸ hs'')).1
    · -- the tokens end behind the token that ends the item
      refine .of_leads hleads (.refused rfl ?_)
      cases hfinish : s'.finish stop with
      | none => exact refused_of_stuck (hpass.trans hfinish) (not_trips_of_endsAt hends) []
      | some s'' =>
        obtain ⟨hfinished, hfront⟩ := finish_in_bracket hopened' hnested' hfinish
        refine (refused_at_end hnone ?_ ?_ ?_).of_leads
          (leads_of_pass (hpass.trans hfinish) hfinished ending [])
        all_goals
          rcases hfront with hfront | ⟨hfront, hne⟩ <;> simp [hfront]
        exact hne
    · refine .of_leads (hnext hclosing) ?_
      rw [← hseparator', ← hclosing'] at hothers
      exact ih (s := s'.next s'.opened) hopened' hnested' (ready_next s' _) (poised_next s' _ hne)
        (htext.suffix ((List.suffix_cons _ _).trans (horderly.suffix hitem))) hothers

theorem group_tracked {b : Bracket} {n : Nat} {outer : List (Bracket × Nat)}
    (hopened : s.opened = (b, n) :: outer) (hnested : outer = [] → b = .arguments ∨ b = .body)
    (hready : s.Ready) {tokens : List Token} (hpoised : Poised ending s tokens)
    (htext : AllText tokens) {f : Fault}
    (h : group ending inner b.separator b.closing tokens = .error f) : Fails ending s tokens f := by
  have hne : s.opened ≠ [] := by simp [hopened]
  have hcolon : s.front ≠ .colon := hready.at.front.ne_colon
  obtain ⟨rfl, rfl⟩ | ⟨first, hclosing, rfl, hfault⟩ | ⟨first, behind, rfl, hitems⟩ :=
    group_eq_error h
  · refine .refused rfl (refused_at_end (hpoised.ending rfl) (fun hhead => ?_) hcolon fun _ => hne)
    obtain ⟨t, rest, hnil, -⟩ := hpoised.head hhead
    cases hnil
  · refine .refused (hending f hfault) (refused_at_last hfault fun s' hs' => ?_)
    have hpass := pass_finish (t := first) hcolon (by rw [hopened]; exact endsAt_item (.inr hclosing))
    exact (finish_in_bracket hopened hnested (hpass ▸ hs')).1
  · exact items_tracked hending horderly hfollowed htracked hopened hnested hready hpoised htext hitems

end Lists

/-- A parameter that is no symbol spoils its list. -/
theorem spoils_of_mapM_error {trees : List Tree} {f : Fault}
    (h : trees.mapM parameterName = .error f) :
    isSyntaxFault f = true ∧ (trees.any fun t => spoils (some t)) = true := by
  induction trees with
  | nil => cases h
  | cons t trees ih =>
    rw [List.mapM_cons, bind_eq_error] at h
    rw [List.any_cons]
    obtain h | ⟨_, -, h⟩ := h
    · cases t with
      | symbol name => cases h
      | _ => exact ⟨by rw [← Except.error.inj h]; rfl, rfl⟩
    · rw [bind_eq_error] at h
      obtain h | ⟨_, -, h⟩ := h
      · exact ⟨(ih h).1, by rw [(ih h).2, Bool.or_true]⟩
      · cases h

section Parameters

variable {inner : ExpressionParser} (hending : ∀ f ∈ ending, isSyntaxFault f = true)
  (horderly : Orderly inner) (hfollowed : Followed ending inner) (htracked : Tracked ending inner)
include hending horderly hfollowed htracked

theorem parameters_tracked {n : Nat} {outer : List (Bracket × Nat)}
    (hopened : s.opened = (.body, n) :: outer) (hhead : s.front = .head) {tokens : List Token}
    (hnone : tokens = [] → ending = none) (htext : AllText tokens) {f : Fault}
    (h : parameters ending inner tokens = .error f) : Fails ending s tokens f := by
  obtain ⟨rfl, rfl⟩ | ⟨colon, behind, hcolon, rfl, hbehind⟩ := parameters_eq_error h
  · exact .stumbled (stumbled_at_end (hnone rfl) (.inl hhead))
  have hleads := leads_of_pass (pass_colon hhead hcolon) rfl ending behind
  obtain ⟨rfl, hfault⟩ | ⟨rfl, hnone, rfl⟩ | ⟨second, inside, rfl, hsecond⟩ := hbehind
  · exact .of_leads hleads (.refused (hending f hfault) (refused_at_fault hfault))
  · exact .of_leads hleads (.stumbled (stumbled_at_end hnone (.inr rfl)))
  obtain ⟨hopen, rfl⟩ | ⟨hopen, hinside⟩ := hsecond
  · refine .of_leads hleads (.refused rfl (refused_of_stuck ?_ ?_ inside))
    · simp [pass, hopen]
    · simp [trips, Front.isBare]
  have hleads' := hleads.trans (leads_of_pass (pass_announced s hopen) rfl ending inside)
  obtain ⟨rfl, hfault⟩ | ⟨hnone, hgroup⟩ := hinside
  · exact .of_leads hleads' (.refused (hending f hfault) (refused_at_fault hfault))
  have henter : (s.enter (.parameters true) .start s.kept).opened
      = (.parameters true, s.settled) :: (.body, n) :: outer := by
    simp only [enter, hopened]
    rfl
  refine .of_leads hleads' ?_
  obtain hgroup | ⟨trees, rest, hgroup, hnames⟩ := hgroup
  · refine group_tracked (b := .parameters true) hending horderly hfollowed htracked henter
      (fun hnil => by cases hnil) ⟨rfl, .inl rfl⟩ ?_ htext.tail.tail hgroup
    exact ⟨hnone, fun _ _ => by simp [henter], fun hhead => by cases hhead⟩
  · -- the list is read to its end, but one of the parameters is no symbol
    obtain ⟨hf, hspoils⟩ := spoils_of_mapM_error hnames
    obtain ⟨s', last, hleads'', hlast, hcollected⟩ :=
      group_followed (b := .parameters true) horderly hfollowed henter ⟨rfl, .inl rfl⟩ hgroup
    have hopened' : s'.opened = (.parameters false, s.settled) :: (.body, n) :: outer := by
      rw [hcollected.opened, hspoils, henter]
      rfl
    have hends : (stopIn s'.opened).endsAt last.kind = .ok true := by
      rw [hopened']
      exact endsAt_item (.inr hlast)
    have hpass := (pass_finish hcollected.front hends).trans (finish_parameters hopened' hlast)
    exact .of_leads hleads'' (.refused hf (refused_of_stuck hpass (not_trips_of_endsAt hends) rest))

end Parameters

/-! ## §4. One layer that fails -/

/-- In front of what ends an expression, a parser only fails if it has no layers left. -/
def Prompt (p : ExpressionParser) : Prop :=
  ∀ {stop : Stop} {previous : Option Tree} {t : Token} {rest : List Token} {f : Fault},
    stop.endsAt t.kind = .ok true → p stop previous (t :: rest) = .error f → f = .tooDeep

theorem expression_prompt (ending : Option Fault) : ∀ depth : Nat, Prompt (expression ending depth) := by
  intro depth stop previous t rest f hends h
  cases depth with
  | zero => exact (Except.error.inj h).symm
  | succ depth =>
    simp only [expression, expressionLayer, expect] at h
    change (stop.endsAt t.kind >>= _) = _ at h
    rw [hends] at h
    cases h

section Layer

variable {inner : ExpressionParser} {base : List Mark} {around : List (Bracket × Nat)} {owed : Bool}
  {previous : Option Tree} {stop : Stop} {f : Fault}

/-- Where something has been read, the survey stands where the parser may fail. -/
theorem At.poised {tree : Tree} (h : s.At base around owed (some tree)) {tokens : List Token}
    (hending : tokens = [] → ending = none) : Poised ending s tokens where
  ending := hending
  start _ hstart := by
    have hbare := h.front.isBare
    rw [hstart] at hbare
    cases hbare
  head hhead := by
    have hbare := h.front.isBare
    rw [hhead] at hbare
    cases hbare

theorem poised_owe (s : Survey) (marks : List Mark) {tokens : List Token}
    (hending : tokens = [] → ending = none) : Poised ending (s.owe marks) tokens :=
  ⟨hending, fun _ hstart => (by cases hstart), fun hhead => (by cases hhead)⟩

/-- Behind an operator or an equals sign, the rest of the expression fails, or there are not layers
    enough to come back. -/
theorem owed_tracked (horderly : Orderly inner) (htracked : Tracked ending inner)
    (hprompt : Prompt inner) (hstop : stop = stopIn around) (h : s.At base around owed previous)
    (marks : List Mark) {tree : Option Tree → Option Tree} {tokens : List Token}
    (hnone : tokens = [] → ending = none) (htext : AllText tokens)
    (hread : inner stop none tokens = .error f ∨ ∃ right left,
      inner stop none tokens = .ok (right, left) ∧ inner stop (tree right) left = .error f) :
    Fails ending (s.owe marks) tokens f := by
  obtain hright | ⟨right, left, hright, hlast⟩ := hread
  · exact htracked htext hright (hstop.trans (stopIn_spoil around).symm) (h.owe marks)
      (poised_owe s marks hnone)
  · obtain ⟨u, more, rfl, hends⟩ := horderly.stops hright
    rw [hprompt hends hlast]
    exact .deep

/-- An equals sign behind anything but a symbol is refused, unless there is nothing in front of it. -/
theorem equals_tracked (h : s.At base around owed previous) (hkind : t.kind.isText "=" = true)
    (hpass : s.pass t = s.proceed t) {rest : List Token}
    (hnone : rest = [] → ending = none) (hname : targetName previous = .error f) :
    Fails ending s (t :: rest) f := by
  cases previous with
  | none =>
    obtain rfl := Except.error.inj hname
    have hbare : s.front.isBare = true := h.front.1
    have hstuck : s.pass t = none := by
      rw [hpass, proceed_equals hkind, if_neg]
      intro hfront
      rw [hfront] at hbare
      cases hbare
    have hseen : (rest.isEmpty && ending.isSome) = false := by
      cases rest with
      | nil => rw [hnone rfl]; rfl
      | cons u rest => rfl
    have hrun : s.run ending (t :: rest) = (.stumbled, s) := by
      simp [run, hstuck, trips, hkind, hbare, hseen]
    exact .stumbled ⟨by rw [hrun], by rw [hrun]⟩
  | some tree =>
    have hbare := h.front.isBare
    have htrips : s.trips t = false := by simp [trips, hbare]
    cases tree with
    | symbol name => cases hname
    | _ =>
      obtain rfl := Except.error.inj hname
      have hfront : s.front = .operand := h.front
      have hstuck : s.pass t = none := by
        rw [hpass, proceed_equals hkind, if_neg (by simp [hfront])]
      exact .refused rfl (refused_of_stuck hstuck htrips rest)

variable (hending : ∀ f ∈ ending, isSyntaxFault f = true) (horderly : Orderly inner)
  (hfollowed : Followed ending inner) (htracked : Tracked ending inner) (hprompt : Prompt inner)
include hending horderly hfollowed htracked hprompt

theorem continueWith_tracked (hstop : stop = stopIn around) (h : s.At base around owed previous)
    (hends : stop.endsAt t.kind = .ok false) (hleaf : previous = none → leaf? t = none)
    (hcolon : s.front = .head → t.kind.isText ":" = false) {tokens : List Token}
    (hnone : tokens = [] → ending = none) (htext : AllText tokens)
    (hread : continueWith ending inner stop previous t tokens = .error f) :
    Fails ending s (t :: tokens) f := by
  rw [hstop] at hends
  unfold continueWith at hread
  split at hread
  · next hkind =>
    have hpass := (h.pass_eq hends fun _ => by rw [Value.eq_of_isText hkind]; rfl).trans
      (proceed_operation hkind)
    rw [bind_eq_error, Prod.exists] at hread
    refine .of_leads (leads_of_pass hpass rfl ending tokens) ?_
    exact owed_tracked horderly htracked hprompt hstop h _ hnone htext hread
  split at hread
  · next hkind =>
    have hpass := (h.pass_eq hends fun _ => by rw [Value.eq_of_isText hkind]; rfl).trans
      (proceed_bracket hkind)
    refine .of_leads (leads_of_pass hpass rfl ending tokens) ?_
    have henter : (s.enter .arguments .start s.filled).opened
        = (.arguments, s.settled) :: spoil s.opened := rfl
    rw [bind_eq_error] at hread
    obtain hargs | ⟨⟨args, left⟩, hargs, hlast⟩ := hread
    · refine group_tracked (b := .arguments) hending horderly hfollowed htracked henter
        (fun _ => .inl rfl) ⟨rfl, .inl rfl⟩ ?_ htext hargs
      exact ⟨hnone, fun _ _ => by simp [henter], fun hhead => by cases hhead⟩
    · obtain ⟨s', hleads, hcall⟩ := call_followed horderly hfollowed h hargs
      refine .of_leads hleads (htracked (htext.suffix (group_suffix horderly hargs)) hlast hstop hcall
        (hcall.poised ?_))
      rintro rfl
      exact ending_of_group hargs
  split at hread
  · next hkind =>
    have hpass := (h.pass_eq hends fun _ => by rw [Value.eq_of_isText hkind]; rfl).trans
      (proceed_brace hkind)
    refine .of_leads (leads_of_pass hpass rfl ending tokens) ?_
    have henter : (s.drop.enter .body .head s.drop.kept).opened
        = (.body, s.settled) :: spoil s.opened := rfl
    rw [bind_eq_error] at hread
    obtain hparams | ⟨⟨params, left⟩, hparams, hread⟩ := hread
    · exact parameters_tracked hending horderly hfollowed htracked henter rfl hnone htext hparams
    rw [bind_eq_error] at hread
    obtain ⟨s₁, hleads', hopened, hready, hkept, hhead⟩ :=
      parameters_followed horderly hfollowed henter ⟨rfl, .inr rfl⟩ rfl hparams
    have hleft : AllText left := htext.suffix (parameters_suffix horderly hparams)
    obtain hbody | ⟨⟨body, left'⟩, hbody, hlast⟩ := hread
    · refine .of_leads hleads' (group_tracked (b := .body) hending horderly hfollowed htracked
        (hopened.trans henter) (fun _ => .inr rfl) hready ?_ hleft hbody)
      refine ⟨?_, fun _ _ => by simp [hopened, henter], hhead⟩
      rintro rfl
      exact ending_of_parameters hparams
    · obtain ⟨s', hleads, hfunction⟩ := body_followed horderly hfollowed h hopened hready hkept hbody
      refine .of_leads (hleads'.trans hleads) (htracked
        (hleft.suffix (group_suffix horderly hbody)) hlast hstop hfunction (hfunction.poised ?_))
      rintro rfl
      exact ending_of_group hbody
  split at hread
  · next hkind =>
    have hproceed := h.pass_eq hends fun _ => by rw [Value.eq_of_isText hkind]; rfl
    rw [bind_eq_error] at hread
    obtain hname | ⟨name, hname, hread⟩ := hread
    · exact equals_tracked h hkind hproceed hnone hname
    obtain rfl := targetName_eq_ok hname
    have hfront : s.front = .name := h.front
    have hpass := hproceed.trans ((proceed_equals hkind).trans (if_pos hfront))
    rw [bind_eq_error, Prod.exists] at hread
    refine .of_leads (leads_of_pass hpass rfl ending tokens) ?_
    exact owed_tracked horderly htracked hprompt hstop h _ hnone htext hread
  · next hoperation hbracket hbrace hequals =>
    obtain rfl := Except.error.inj hread
    have hstuck : s.pass t = none := by
      rw [h.pass_eq hends hcolon, proceed, if_neg hoperation, if_neg hbracket, if_neg hbrace,
        if_neg hequals]
      cases previous with
      | none => rw [hleaf rfl, if_neg (by simp)]
      | some tree => rw [h.front.isBare]; simp
    exact .refused rfl (refused_of_stuck hstuck (by simp [trips, hequals]) tokens)

theorem expressionLayer_tracked : Tracked ending (expressionLayer ending inner) := by
  intro stop previous tokens f s base around owed htext hread hstop h hpoised
  unfold expressionLayer at hread
  rw [bind_eq_error] at hread
  obtain hread | ⟨t, ht, hread⟩ := hread
  · obtain ⟨rfl, rfl⟩ := expect_eq_error hread
    refine .refused rfl (refused_at_end (hpoised.ending rfl) (fun hhead => ?_) h.front.ne_colon
      (hpoised.start rfl))
    obtain ⟨t, rest, hnil, -⟩ := hpoised.head hhead
    cases hnil
  obtain ⟨behind, rfl⟩ := expect_eq_ok ht
  obtain ⟨kind, hkind⟩ := htext t List.mem_cons_self
  have hcolon : s.front = .head → t.kind.isText ":" = false := by
    intro hhead
    obtain ⟨u, rest, hu, hcolon⟩ := hpoised.head hhead
    obtain ⟨rfl, rfl⟩ := List.cons.inj hu
    exact hcolon
  rw [bind_eq_error] at hread
  obtain hread | ⟨ends, hends, hread⟩ := hread
  · rw [hkind] at hread
    cases stop <;> cases hread
  cases ends with
  | true => cases hread
  | false =>
    simp only [Bool.false_eq_true, if_false, bind_eq_error] at hread
    obtain hread | ⟨left, hleft, hread⟩ := hread
    · -- a fault stands behind the token, which finishes no statement
      obtain ⟨u, hu, hfault⟩ := advance_eq_error hread
      obtain ⟨rfl, rfl⟩ := List.cons.inj hu
      refine .refused (hending f hfault) (refused_at_last hfault fun s' hs' => ?_)
      rw [h.pass_eq (hstop ▸ hends) hcolon] at hs'
      exact finished_of_proceed hs'
    · obtain rfl := advance_eq_ok hleft
      have hnone := ending_of_advance hleft
      split at hread
      · next leaf hleaf =>
        have hpass := (h.pass_eq (hstop ▸ hends) hcolon).trans (proceed_leaf hleaf h.front.1)
        refine .of_leads (leads_of_pass hpass (take_finished s t) ending left) ?_
        exact htracked htext.tail hread hstop (h.leaf hleaf) ((h.leaf hleaf).poised hnone)
      · next hleaf =>
        refine continueWith_tracked hending horderly hfollowed htracked hprompt hstop h hends
          (fun hprevious => ?_) hcolon hnone htext.tail hread
        cases hleaf' : leaf? t with
        | none => rfl
        | some leaf => exact (hleaf leaf hprevious hleaf').elim

end Layer

/-- **Where the parser fails, the survey fails in the same way.** -/
theorem expression_tracked {ending : Option Fault} (hending : ∀ f ∈ ending, isSyntaxFault f = true) :
    ∀ depth : Nat, Tracked ending (expression ending depth) := by
  intro depth
  induction depth with
  | zero =>
    intro stop previous tokens f s base around owed _ hread _ _ _
    obtain rfl := Except.error.inj hread
    exact .deep
  | succ depth ih =>
    exact expressionLayer_tracked hending (expression_orderly ending depth)
      (expression_followed ending depth) ih (expression_prompt ending depth)

end Survey

end Scrawl.Grammar
