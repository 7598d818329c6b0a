/-
  Scrawl.Proofs.Grammar.Stumbling — how reading ends.

  The survey of tokens tells how reading them ends, and the marks of the statements that are read before
  that (`ofTokens_surveyed`).  There are three ways: at the end of the tokens, with a syntax error, or by
  taking what is not there for a token or an expression.  A condition on tokens that stand next to each
  other rules the last out (`run_not_stumbled`).
-/

import Scrawl.Proofs.Grammar.Tracking

namespace Scrawl.Grammar

namespace Survey

/-! ## §1. How the reading of a program ends -/

/-- The way in which the reading of a program ends, by its fault. -/
inductive Ended : Option Fault → Verdict → Prop
  /-- All of it is read. -/
  | accepted : Ended none .accepted
  /-- A syntax error is reported. -/
  | refused {f : Fault} (hf : isSyntaxFault f = true) : Ended (some f) .refused
  /-- What is not there is taken for a token or an expression. -/
  | stumbled : Ended (some (.notIndexable (Value.kind .nil))) .stumbled

namespace Ended

variable {fault : Option Fault} {v : Verdict}

theorem accepted_iff (h : Ended fault v) : fault = none ↔ v = .accepted := by
  cases h with
  | accepted => exact ⟨fun _ => rfl, fun _ => rfl⟩
  | refused hf => constructor <;> (intro h; cases h)
  | stumbled => constructor <;> (intro h; cases h)

theorem refused_iff (h : Ended fault v) :
    (∃ f ∈ fault, isSyntaxFault f = true) ↔ v = .refused := by
  cases h with
  | accepted =>
    constructor
    · rintro ⟨f, hf, -⟩
      cases hf
    · intro h
      cases h
  | refused hf => exact ⟨fun _ => rfl, fun _ => ⟨_, rfl, hf⟩⟩
  | stumbled =>
    constructor
    · rintro ⟨f, hf, hsyntax⟩
      obtain rfl := Option.some.inj hf
      cases hsyntax
    · intro h
      cases h

theorem stumbled_iff (h : Ended fault v) :
    fault = some (.notIndexable (Value.kind .nil)) ↔ v = .stumbled := by
  cases h with
  | accepted => constructor <;> (intro h; cases h)
  | refused hf =>
    constructor
    · intro h
      rw [Option.some.inj h] at hf
      cases hf
    · intro h
      cases h
  | stumbled => exact ⟨fun _ => rfl, fun _ => rfl⟩

end Ended

/-- **The survey tells how the reading of tokens ends,** and what has been read before that, unless the
    nesting is too deep. -/
theorem ofTokens_surveyed {ending : Option Fault} {depth : Nat}
    (hending : ∀ f ∈ ending, isSyntaxFault f = true) (tokens : List Token) (htext : AllText tokens)
    (hdeep : (Program.ofTokens depth ⟨tokens, ending⟩).fault ≠ some .tooDeep) :
    ∀ s : Survey, s.Between →
      Ended (Program.ofTokens depth ⟨tokens, ending⟩).fault (s.run ending tokens).1 ∧
      (s.run ending tokens).2.finished
        = s.kept ++ Tree.listMarks (Program.ofTokens depth ⟨tokens, ending⟩).statements := by
  induction hn : tokens.length using Nat.strongRecOn generalizing tokens with
  | ind n ih =>
    intro s hs
    cases tokens with
    | nil =>
      refine ⟨?_, by simp [run, hs.finished, Program.ofTokens, Tree.listMarks]⟩
      cases ending with
      | none =>
        simp only [run, verdict, hs.front, hs.opened]
        exact .accepted
      | some f => exact .refused (hending f rfl)
    | cons u tokens =>
      cases hread : expression ending depth .statement none (u :: tokens) with
      | error f =>
        have hprogram := ofTokens_error (List.cons_ne_nil u tokens) hread
        rw [hprogram] at hdeep ⊢
        have hstop : Stop.statement = stopIn s.opened := by rw [hs.opened]; rfl
        have hpoised : Poised ending s (u :: tokens) :=
          ⟨fun hnil => (by cases hnil), fun hnil => (by cases hnil),
            fun hhead => (by rw [hs.front] at hhead; cases hhead)⟩
        have hkept : s.finished = s.kept ++ Tree.listMarks [] := by
          rw [hs.finished]
          exact (List.append_nil _).symm
        cases expression_tracked hending depth htext hread hstop hs.ready.at hpoised with
        | deep => exact absurd rfl hdeep
        | refused hf hends => exact ⟨hends.verdict ▸ .refused hf, hends.finished.trans hkept⟩
        | stumbled hends => exact ⟨hends.verdict ▸ .stumbled, hends.finished.trans hkept⟩
      | ok read =>
        obtain ⟨statement, left⟩ := read
        obtain ⟨t, behind, rfl, -⟩ := (expression_orderly ending depth).stops hread
        have hsuffix := (expression_orderly ending depth).suffix hread
        have hlength := hsuffix.length_le
        rw [List.length_cons, hn] at hlength
        obtain ⟨s', hrun, hs', hkept⟩ := statement_followed hs hread
        rw [ofTokens_ok hread] at hdeep ⊢
        obtain ⟨hended, hfinished⟩ := ih behind.length (by omega) behind
          (htext.suffix ((List.suffix_cons _ _).trans hsuffix)) hdeep rfl s' hs'
        rw [hrun]
        refine ⟨hended, ?_⟩
        rw [hfinished, hkept, Program.behind, listMarks_append, List.append_assoc]

end Survey

/-! ## §2. Where reading does not stumble -/

/-- Every equals sign stands directly behind a symbol. -/
def EqualsBehindSymbols (tokens : List Token) : Prop :=
  (∀ t ∈ tokens.head?, t.kind.isText "=" = false) ∧
    ∀ before t sign after, tokens = before ++ t :: sign :: after →
      sign.kind.isText "=" = true → t.kind.isText "symbol" = true

/-- The last token is neither the opening brace nor the colon of a function. -/
def EndsOutsideHead (tokens : List Token) : Prop :=
  ∀ t ∈ tokens.getLast?, t.kind.isText "\x7b" = false ∧ t.kind.isText ":" = false

namespace Survey

variable {s s' : Survey} {t : Token}

/-- Behind a symbol there is a name. -/
theorem front_of_symbol (h : s.pass t = some s') (ht : t.kind.isText "symbol" = true) :
    s'.front = .name := by
  obtain ⟨kind, value⟩ := t
  obtain rfl := Value.eq_of_isText ht
  have hends : (stopIn s.opened).endsAt (.text "symbol") = .ok false := by
    cases s.opened with
    | nil => rfl
    | cons first outer =>
      obtain ⟨b, n⟩ := first
      cases b <;> rfl
  have hproceed : s.proceed ⟨.text "symbol", value⟩ = some s' := by
    cases hfront : s.front with
    | colon =>
      rw [pass_of_colon hfront] at h
      cases h
    | _ => rwa [pass_proceed (by simp [hfront]) (fun _ => rfl) hends] at h
  change (if s.front.isBare = true then some (s.take ⟨.text "symbol", value⟩) else none) = some s'
    at hproceed
  split at hproceed
  · obtain rfl := Option.some.inj hproceed
    rfl
  · cases hproceed

theorem front_of_finish (h : s.finish t = some s') : s'.front = .start ∨ s'.front = .operand := by
  unfold finish at h
  split at h
  · obtain rfl := Option.some.inj h
    exact .inl rfl
  split at h
  · split at h
    · split at h
      · obtain rfl := Option.some.inj h
        exact .inl rfl
      · cases h
    · obtain rfl := Option.some.inj h
      exact .inr rfl
  · obtain rfl := Option.some.inj h
    exact .inl rfl

theorem front_of_proceed (h : s.proceed t = some s') (ht : t.kind.isText "\x7b" = false) :
    s'.front ≠ .head ∧ s'.front ≠ .colon := by
  unfold proceed at h
  split at h
  · split at h
    · obtain rfl := Option.some.inj h
      unfold take
      split <;> exact ⟨Front.noConfusion, Front.noConfusion⟩
    · cases h
  split at h
  · obtain rfl := Option.some.inj h
    exact ⟨Front.noConfusion, Front.noConfusion⟩
  split at h
  · obtain rfl := Option.some.inj h
    exact ⟨Front.noConfusion, Front.noConfusion⟩
  rw [ht, if_neg Bool.false_ne_true] at h
  split at h
  · split at h
    · obtain rfl := Option.some.inj h
      exact ⟨Front.noConfusion, Front.noConfusion⟩
    · cases h
  · cases h

/-- Only an opening brace or a colon leads into the head of a function. -/
theorem front_of_pass (h : s.pass t = some s') (hbrace : t.kind.isText "\x7b" = false)
    (hcolon : t.kind.isText ":" = false) : s'.front ≠ .head ∧ s'.front ≠ .colon := by
  cases hfront : s.front with
  | colon =>
    rw [pass_of_colon hfront] at h
    split at h
    · obtain rfl := Option.some.inj h
      exact ⟨Front.noConfusion, Front.noConfusion⟩
    · cases h
  | _ =>
    rw [pass_eq_goOn (by simp [hfront]) (fun _ => hcolon)] at h
    unfold goOn at h
    split at h
    · rcases front_of_finish h with hstart | hoperand
      · simp [hstart]
      · simp [hoperand]
    · exact front_of_proceed h hbrace
    · cases h

/-- Where every equals sign stands behind a symbol, going over tokens that do not end in the head of a
    function does not stumble. -/
theorem run_not_stumbled {ending : Option Fault} :
    ∀ (tokens : List Token) (s : Survey),
      (∀ t ∈ tokens.head?, t.kind.isText "=" = true → s.front = .name) →
      (∀ before t sign after, tokens = before ++ t :: sign :: after →
        sign.kind.isText "=" = true → t.kind.isText "symbol" = true) →
      (tokens = [] → s.front ≠ .head ∧ s.front ≠ .colon) → EndsOutsideHead tokens →
        (s.run ending tokens).1 ≠ .stumbled := by
  intro tokens
  induction tokens with
  | nil =>
    intro s _ _ hfront _
    obtain ⟨hhead, hcolon⟩ := hfront rfl
    rw [run]
    split
    · exact Verdict.noConfusion
    · unfold verdict
      split
      · exact Verdict.noConfusion
      · next h => exact absurd h hhead
      · next h => exact absurd h hcolon
      · exact Verdict.noConfusion
  | cons t tokens ih =>
    intro s hfirst hsymbols _ hlast
    cases hpass : s.pass t with
    | none =>
      have htrips : s.trips t = false := by
        cases hequals : t.kind.isText "=" with
        | false => simp [trips, hequals]
        | true => simp [trips, hfirst t rfl hequals, Front.isBare]
      rw [run, hpass, htrips]
      exact Verdict.noConfusion
    | some s' =>
      rw [run_of_pass hpass]
      refine ih s' (fun u hu hequals => ?_) (fun before u sign after htokens => ?_) (fun hnil => ?_) ?_
      · obtain ⟨more, rfl⟩ := List.head?_eq_some_iff.1 hu
        exact front_of_symbol hpass (hsymbols [] t u more rfl hequals)
      · exact hsymbols (t :: before) u sign after (by rw [htokens]; rfl)
      · subst hnil
        obtain ⟨hbrace, hcolon⟩ := hlast t rfl
        exact front_of_pass hpass hbrace hcolon
      · intro u hu
        refine hlast u ?_
        obtain ⟨front, rfl⟩ := List.getLast?_eq_some_iff.1 hu
        rw [← List.cons_append, List.getLast?_concat]
        rfl

end Survey

/-! ## §3. Texts -/

/-- What cannot be cut up is a syntax error. -/
theorem isSyntaxFault_of_first {c : Char} {cs : List Char} {f : Fault}
    (h : Item.first c cs = .fault f) : isSyntaxFault f = true := by
  unfold Item.first at h
  split at h
  · cases h
  split at h
  · cases h
  split at h
  · cases h
  split at h
  · split at h
    · cases h
    · obtain rfl := Item.fault.inj h
      rfl
  split at h
  · cases h
  split at h
  · cases h
  split at h
  · split at h
    · cases h
    · obtain rfl := Item.fault.inj h
      rfl
  · obtain rfl := Item.fault.inj h
    rfl

/-- A fault behind the tokens of a text is a syntax error. -/
theorem isSyntaxFault_of_ofChars (cs : List Char) :
    ∀ f ∈ (Tokens.ofChars cs).fault, isSyntaxFault f = true := by
  fun_induction Tokens.ofChars cs with
  | case1 => intro f hf; cases hf
  | case2 c cs rest h _ ih => exact ih
  | case3 c cs u rest h _ ih => exact ih
  | case4 c cs f h =>
    intro g hg
    obtain rfl := Option.some.inj hg
    exact isSyntaxFault_of_first h

/-- The kinds of lexical tokens are texts. -/
theorem allText_of_ofChars (cs : List Char) : AllText (Tokens.ofChars cs).items := by
  intro t ht
  cases ofChars_lexical cs t ht with
  | number h => exact ⟨_, rfl⟩
  | string h => exact ⟨_, rfl⟩
  | symbol h => exact ⟨_, rfl⟩
  | operation h => exact ⟨_, rfl⟩
  | sign h => exact ⟨_, rfl⟩

/-- The survey of a text. -/
def surveyText (text : String) : Verdict × Survey :=
  Survey.start.run (Tokens.ofText text).fault (Tokens.ofText text).items

/-- **How the reading of a text ends.**  The survey of any text tells whether something is missing in
    the statements that are read, and in which of three ways the reading ends: at the end of the text, with
    a syntax error, or because something that is not there is taken for a token or an expression.  The
    last does not happen if every equals sign stands directly behind a symbol and the text does not end
    directly behind the opening brace or the colon of a function. -/
theorem reading_ends_as_surveyed {depth : Nat} {text : String}
    (hdeep : (Program.ofText depth text).fault ≠ some .tooDeep) :
    ((∀ t ∈ (Program.ofText depth text).statements, t.Complete) ↔
      Mark.gap ∉ (surveyText text).2.finished) ∧
    ((Program.ofText depth text).fault = none ↔ (surveyText text).1 = .accepted) ∧
    ((∃ f ∈ (Program.ofText depth text).fault, isSyntaxFault f = true) ↔
      (surveyText text).1 = .refused) ∧
    ((Program.ofText depth text).fault = some (.notIndexable (Value.kind .nil)) ↔
      (surveyText text).1 = .stumbled) ∧
    (EqualsBehindSymbols (Tokens.ofText text).items → EndsOutsideHead (Tokens.ofText text).items →
      (Program.ofText depth text).fault ≠ some (.notIndexable (Value.kind .nil))) := by
  obtain ⟨hended, hfinished⟩ := Survey.ofTokens_surveyed (isSyntaxFault_of_ofChars text.toList)
    _ (allText_of_ofChars text.toList) hdeep .start Survey.between_start
  change Survey.Ended (Program.ofText depth text).fault (surveyText text).1 at hended
  change (surveyText text).2.finished = Tree.listMarks (Program.ofText depth text).statements
    at hfinished
  refine ⟨by rw [hfinished, complete_iff_gapless], hended.accepted_iff, hended.refused_iff,
    hended.stumbled_iff, fun hequals hends hfault => ?_⟩
  refine Survey.run_not_stumbled _ .start (fun t ht hequal => ?_) hequals.2
    (fun _ => ⟨Front.noConfusion, Front.noConfusion⟩) hends (hended.stumbled_iff.1 hfault)
  rw [hequals.1 t ht] at hequal
  cases hequal

/-- An operator without a right operand in the first statement, and an assignment to what is not there in
    the third. -/
theorem missing_operand_surveyed :
    (Program.ofText 20 "f(1 +); g(x); y = = 2;").fault ≠ some .tooDeep ∧
      (surveyText "f(1 +); g(x); y = = 2;").1 = .stumbled ∧
      (Program.ofText 20 "f(1 +); g(x); y = = 2;").fault
        = some (.notIndexable (Value.kind .nil)) := by
  have hdeep : (Program.ofText 20 "f(1 +); g(x); y = = 2;").fault ≠ some .tooDeep := by
    decide +kernel
  have hstumbled : (surveyText "f(1 +); g(x); y = = 2;").1 = .stumbled := by decide +kernel
  exact ⟨hdeep, hstumbled, (reading_ends_as_surveyed hdeep).2.2.2.1.2 hstumbled⟩

/-- **Statements can be incomplete, and reading can stumble.** -/
theorem incomplete_statement_read :
    (¬ ∀ t ∈ (Program.ofText 10 "+;").statements, t.Complete) ∧
      (Program.ofText 10 "=1;").fault = some (.notIndexable (Value.kind .nil)) := by
  refine ⟨fun hcomplete => ?_, by decide +kernel⟩
  have hmarks : ((Tree.listMarks (Program.ofText 10 "+;").statements).any
      fun m => m.token?.isNone) = true := by decide +kernel
  obtain ⟨m, hm, hnone⟩ := List.any_eq_true.1 hmarks
  cases m with
  | token t => cases hnone
  | gap => exact (complete_iff_gapless _).1 hcomplete hm

end Scrawl.Grammar
