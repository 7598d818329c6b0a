/-
  Scrawl.Proofs.Grammar.Keeping — what the parser keeps of the tokens.

  Numbers, strings, symbols and operators are the CONTENT of tokens.  A survey keeps all of it, in
  order, except for what an opening brace finds in front of it in the operand it stands in, which it drops
  (`Conserved`).  So the statements of a program hold the content of its tokens but for that, and all of
  it if every brace keeps away from the ends of operands (`dropped_of_run`).
-/

import Scrawl.Proofs.Grammar.Surveyed

namespace Scrawl.Grammar

/-! ## §1. Content -/

/-- Whether a token is a number, a string, a symbol or an operator. -/
def Token.isContent (t : Token) : Bool :=
  t.kind.isText "number" || t.kind.isText "string" || t.kind.isText "symbol" ||
    t.kind.isText "operation"

/-- The numbers, strings, symbols and operators among tokens. -/
def content (tokens : List Token) : List Token := tokens.filter Token.isContent

/-- The tokens among marks. -/
def markTokens (marks : List Mark) : List Token := marks.filterMap Mark.token?

theorem markTokens_append (marks others : List Mark) :
    markTokens (marks ++ others) = markTokens marks ++ markTokens others :=
  List.filterMap_append

theorem isContent_of_leaf {t : Token} {leaf : Tree} (h : leaf? t = some leaf) :
    t.isContent = true := by
  cases Leaf.of_leaf? h <;> rfl

/-- A token of a given kind that is none of the four is no content. -/
theorem not_isContent_of_kind {t : Token} {kind : String} (h : t.kind.isText kind = true)
    (hkind : kind ∉ ["number", "string", "symbol", "operation"]) : t.isContent = false := by
  simp only [List.mem_cons, List.not_mem_nil, or_false, not_or] at hkind
  rw [Token.isContent, Value.eq_of_isText h]
  simp [Value.isText, hkind]

/-- What ends an expression is no content. -/
theorem not_isContent_of_endsAt {opened : List (Bracket × Nat)} {t : Token}
    (h : (Survey.stopIn opened).endsAt t.kind = .ok true) : t.isContent = false := by
  cases hcontent : t.isContent with
  | false => rfl
  | true =>
    simp only [Token.isContent, Bool.or_eq_true] at hcontent
    rcases hcontent with ((hkind | hkind) | hkind) | hkind <;>
    · rw [Value.eq_of_isText hkind] at h
      cases opened with
      | nil => cases h
      | cons first outer =>
        obtain ⟨b, n⟩ := first
        cases b <;> cases h

/-! ## §2. What a survey keeps -/

namespace Survey

/-- All that passing a token can do to the marks: the token is added, an operand is dropped, or only
    gaps are added. -/
inductive Moves (s : Survey) (t : Token) (s' : Survey) : Prop
  /-- Content is kept. -/
  | adds (ht : t.isContent = true) (hkept : markTokens s'.kept = markTokens s.kept ++ [t])
      (hdropped : s'.dropped = s.dropped)
  /-- A brace drops what has been read of an operand. -/
  | drops (ht : t.kind.isText "\x7b" = true) (hkept : s'.kept = s.kept.take s.settled)
      (hdropped : s'.dropped = s.dropped ++ s.kept.drop s.settled)
  /-- Anything else leaves the content alone. -/
  | stays (ht : t.isContent = false) (hkept : markTokens s'.kept = markTokens s.kept)
      (hdropped : s'.dropped = s.dropped)

theorem markTokens_filled (s : Survey) : markTokens s.filled = markTokens s.kept := by
  unfold filled
  split
  · rw [markTokens_append]
    exact List.append_nil _
  · rfl

theorem markTokens_closed (s : Survey) : markTokens s.closed = markTokens s.kept := by
  unfold closed
  split
  · rw [markTokens_append]
    exact List.append_nil _
  · rfl

variable {s s' : Survey} {t : Token}

theorem finish_moves (hends : (stopIn s.opened).endsAt t.kind = .ok true)
    (h : s.finish t = some s') : Moves s t s' := by
  have ht := not_isContent_of_endsAt hends
  unfold finish at h
  split at h
  · obtain rfl := Option.some.inj h
    exact .stays ht (markTokens_closed s) rfl
  split at h
  · split at h
    · split at h
      · obtain rfl := Option.some.inj h
        exact .stays ht (markTokens_closed s) rfl
      · cases h
    · obtain rfl := Option.some.inj h
      exact .stays ht (markTokens_closed s) rfl
  · obtain rfl := Option.some.inj h
    exact .stays ht (markTokens_closed s) rfl

theorem proceed_moves (h : s.proceed t = some s') : Moves s t s' := by
  unfold proceed at h
  split at h
  · next hleaf =>
    obtain ⟨leaf, hleaf⟩ := Option.isSome_iff_exists.1 hleaf
    split at h
    · obtain rfl := Option.some.inj h
      unfold take
      split <;> exact .adds (isContent_of_leaf hleaf) (markTokens_append _ _) rfl
    · cases h
  split at h
  · next hkind =>
    obtain rfl := Option.some.inj h
    refine .adds (by simp [Token.isContent, hkind]) ?_ rfl
    show markTokens (s.filled ++ [.token t]) = _
    rw [markTokens_append, markTokens_filled]
    rfl
  split at h
  · next hkind =>
    obtain rfl := Option.some.inj h
    exact .stays (not_isContent_of_kind hkind (by decide)) (markTokens_filled s) rfl
  split at h
  · next hkind =>
    obtain rfl := Option.some.inj h
    exact .drops hkind rfl rfl
  split at h
  · next hkind =>
    split at h
    · obtain rfl := Option.some.inj h
      exact .stays (not_isContent_of_kind hkind (by decide)) rfl rfl
    · cases h
  · cases h

theorem goOn_moves (h : s.goOn t = some s') : Moves s t s' := by
  unfold goOn at h
  split at h
  · next hends => exact finish_moves hends h
  · exact proceed_moves h
  · cases h

theorem pass_moves (h : s.pass t = some s') : Moves s t s' := by
  unfold pass at h
  split at h
  · split at h
    · next hkind =>
      obtain rfl := Option.some.inj h
      exact .stays (not_isContent_of_kind hkind (by decide)) rfl rfl
    · cases h
  · split at h
    · next hkind =>
      obtain rfl := Option.some.inj h
      exact .stays (not_isContent_of_kind hkind (by decide)) rfl rfl
    · exact goOn_moves h
  · exact goOn_moves h

/-- What has been kept and what has been dropped are the content of the tokens passed, and what has
    been kept is in order. -/
structure Conserved (s : Survey) (passed : List Token) : Prop where
  /-- What has been kept is part of the content, in order. -/
  sublist : (markTokens s.kept).Sublist (content passed)
  /-- With what has been dropped it is all of it. -/
  perm : (markTokens s.kept ++ markTokens s.dropped).Perm (content passed)

/-- Passing a token conserves the content. -/
theorem Conserved.step {passed : List Token} (h : s.Conserved passed) (hpass : s.pass t = some s') :
    s'.Conserved (passed ++ [t]) := by
  cases pass_moves hpass with
  | adds ht hkept hdropped =>
    have hcontent : content (passed ++ [t]) = content passed ++ [t] := by
      simp [content, ht]
    refine ⟨?_, ?_⟩
    · rw [hkept, hcontent]
      exact h.sublist.append_right [t]
    · rw [hkept, hdropped, hcontent, List.append_assoc]
      refine (List.perm_append_comm.append_left _).trans ?_
      rw [← List.append_assoc]
      exact h.perm.append_right [t]
  | drops ht hkept hdropped =>
    have hcontent : content (passed ++ [t]) = content passed := by
      simp [content, not_isContent_of_kind ht (by decide)]
    refine ⟨?_, ?_⟩
    · rw [hkept, hcontent]
      exact ((List.take_sublist _ _).filterMap _).trans h.sublist
    · rw [hkept, hdropped, hcontent, markTokens_append]
      have hparts : markTokens s.kept
          = markTokens (s.kept.take s.settled) ++ markTokens (s.kept.drop s.settled) := by
        rw [← markTokens_append, List.take_append_drop]
      have hperm := h.perm
      rw [hparts, List.append_assoc] at hperm
      exact (List.perm_append_comm.append_left _).trans hperm
  | stays ht hkept hdropped =>
    have hcontent : content (passed ++ [t]) = content passed := by
      simp [content, ht]
    exact ⟨by rw [hkept, hcontent]; exact h.sublist,
      by rw [hkept, hdropped, hcontent]; exact h.perm⟩

/-- A survey that comes to the end conserves the content of all tokens. -/
theorem Conserved.run {ending : Option Fault} {tokens : List Token} :
    ∀ {s : Survey} {passed : List Token}, s.Conserved passed →
      Survey.run ending s tokens = (.accepted, s') → s'.Conserved (passed ++ tokens) := by
  induction tokens with
  | nil =>
    intro s passed h hrun
    obtain rfl : s = s' := congrArg Prod.snd hrun
    rw [List.append_nil]
    exact h
  | cons t tokens ih =>
    intro s passed h hrun
    rw [Survey.run] at hrun
    split at hrun
    · next hpass =>
      have hall := ih (h.step hpass) hrun
      rwa [List.append_assoc] at hall
    · -- a token that cannot be passed is not accepted
      have hverdict := congrArg Prod.fst hrun
      simp only at hverdict
      split at hverdict <;> cases hverdict

end Survey

/-! ## §3. What a survey drops -/

/-- Whether a token can be the end of an operand. -/
def Token.endsOperand (t : Token) : Bool :=
  t.kind.isText "number" || t.kind.isText "string" || t.kind.isText "symbol" ||
    t.kind.isText ")" || t.kind.isText "\x7d"

/-- No opening brace stands directly behind a token that can be the end of an operand. -/
def BracesApart (tokens : List Token) : Prop :=
  ∀ before t brace after, tokens = before ++ t :: brace :: after →
    brace.kind.isText "\x7b" = true → t.endsOperand = false

theorem BracesApart.tail {t : Token} {tokens : List Token} (h : BracesApart (t :: tokens)) :
    BracesApart tokens := by
  intro before u brace after htokens
  exact h (t :: before) u brace after (by rw [htokens]; rfl)

theorem endsOperand_of_leaf {t : Token} {leaf : Tree} (h : leaf? t = some leaf) :
    t.endsOperand = true := by
  cases Leaf.of_leaf? h <;> rfl

theorem endsOperand_of_closing {b : Bracket} {t : Token} (h : t.kind.isText b.closing = true) :
    t.endsOperand = true := by
  rw [Token.endsOperand, Value.eq_of_isText h]
  cases b <;> rfl

namespace Survey

/-- Where nothing of an operand has been read, all marks are settled. -/
def Settled (s : Survey) : Prop := s.front.isBare = true → s.kept.length ≤ s.settled

/-- Nothing of an operand has been read; a parameter list may have been announced. -/
def Bare (s : Survey) : Prop := s.front.isBare = true ∨ s.front = .colon

variable {s s' : Survey} {t : Token}

theorem finish_settled (h : s.finish t = some s') :
    s'.Settled ∧ (t.endsOperand = false → s'.Bare) := by
  unfold finish at h
  split at h
  · obtain rfl := Option.some.inj h
    exact ⟨fun _ => Nat.le_refl _, fun _ => .inl rfl⟩
  split at h
  · next hclosing =>
    split at h
    · split at h
      · obtain rfl := Option.some.inj h
        exact ⟨fun _ => Nat.le_refl _, fun _ => .inl rfl⟩
      · cases h
    · obtain rfl := Option.some.inj h
      refine ⟨fun hbare => (by cases hbare), fun ht => ?_⟩
      rw [endsOperand_of_closing hclosing] at ht
      cases ht
  · obtain rfl := Option.some.inj h
    exact ⟨fun _ => Nat.le_refl _, fun _ => .inl rfl⟩

theorem proceed_settled (h : s.proceed t = some s') :
    s'.Settled ∧ (t.endsOperand = false → s'.Bare) := by
  unfold proceed at h
  split at h
  · next hleaf =>
    obtain ⟨leaf, hleaf⟩ := Option.isSome_iff_exists.1 hleaf
    split at h
    · obtain rfl := Option.some.inj h
      refine ⟨?_, fun ht => ?_⟩
      · unfold take
        split <;> exact fun hbare => by cases hbare
      · rw [endsOperand_of_leaf hleaf] at ht
        cases ht
    · cases h
  split at h
  · obtain rfl := Option.some.inj h
    exact ⟨fun _ => Nat.le_refl _, fun _ => .inl rfl⟩
  split at h
  · obtain rfl := Option.some.inj h
    exact ⟨fun _ => Nat.le_refl _, fun _ => .inl rfl⟩
  split at h
  · obtain rfl := Option.some.inj h
    exact ⟨fun _ => Nat.le_refl _, fun _ => .inl rfl⟩
  split at h
  · split at h
    · obtain rfl := Option.some.inj h
      exact ⟨fun _ => Nat.le_refl _, fun _ => .inl rfl⟩
    · cases h
  · cases h

theorem goOn_settled (h : s.goOn t = some s') :
    s'.Settled ∧ (t.endsOperand = false → s'.Bare) := by
  unfold goOn at h
  split at h
  · exact finish_settled h
  · exact proceed_settled h
  · cases h

/-- Behind a token that can be no end of an operand, nothing of an operand has been read. -/
theorem pass_settled (h : s.pass t = some s') :
    s'.Settled ∧ (t.endsOperand = false → s'.Bare) := by
  unfold pass at h
  split at h
  · split at h
    · obtain rfl := Option.some.inj h
      exact ⟨fun _ => Nat.le_refl _, fun _ => .inl rfl⟩
    · cases h
  · split at h
    · obtain rfl := Option.some.inj h
      exact ⟨fun hbare => (by cases hbare), fun _ => .inr rfl⟩
    · exact goOn_settled h
  · exact goOn_settled h

/-- Where nothing of an operand has been read, nothing is dropped. -/
theorem dropped_of_pass (h : s.pass t = some s') (hsettled : s.Settled)
    (hbare : t.kind.isText "\x7b" = true → s.Bare) : s'.dropped = s.dropped := by
  cases pass_moves h with
  | adds ht hkept hdropped => exact hdropped
  | stays ht hkept hdropped => exact hdropped
  | drops ht hkept hdropped =>
    rcases hbare ht with hfront | hfront
    · rw [hdropped, List.drop_eq_nil_of_le (hsettled hfront), List.append_nil]
    · -- only a bracket can stand behind the colon
      rw [pass_of_colon hfront, Value.eq_of_isText ht] at h
      cases h

/-- Over tokens in which no brace stands behind the end of an operand, nothing is dropped. -/
theorem dropped_of_run {ending : Option Fault} : ∀ (tokens : List Token) (s : Survey), s.Settled →
    (∀ t ∈ tokens.head?, t.kind.isText "\x7b" = true → s.Bare) →
    BracesApart tokens → (s.run ending tokens).2.dropped = s.dropped := by
  intro tokens
  induction tokens with
  | nil => intro s _ _ _; rfl
  | cons t tokens ih =>
    intro s hsettled hbare hapart
    cases hpass : s.pass t with
    | none => rw [run, hpass]
    | some s' =>
      obtain ⟨hsettled', hbare'⟩ := pass_settled hpass
      have hnext : ∀ u ∈ tokens.head?, u.kind.isText "\x7b" = true → s'.Bare := by
        intro u hu hbrace
        obtain ⟨more, rfl⟩ := List.head?_eq_some_iff.1 hu
        exact hbare' (hapart [] t u more rfl hbrace)
      rw [run_of_pass hpass, ih s' hsettled' hnext hapart.tail]
      exact dropped_of_pass hpass hsettled (hbare t rfl)

end Survey

/-! ## §4. What statements keep -/

/-- What is lost of tokens: the content that an opening brace finds in front of it in the operand that
    it stands in. -/
def lost (tokens : List Token) : List Token :=
  markTokens (Survey.start.run none tokens).2.dropped

/-- **Statements keep the content of their tokens, but for what an opening brace drops.**  Read off the
    statements of any tokens that are accepted, from left to right, it is part of the content of the
    tokens, in order; together with what is lost it is all of it; and so it is the whole content, in
    order, exactly if nothing is lost.  That is so if no opening brace stands directly behind a token
    that can be the end of an operand. -/
theorem statements_keep_content {depth : Nat} {tokens : List Token}
    (h : (Program.ofTokens depth ⟨tokens, none⟩).fault = none) :
    (readOff (Program.ofTokens depth ⟨tokens, none⟩).statements).Sublist (content tokens) ∧
    (readOff (Program.ofTokens depth ⟨tokens, none⟩).statements ++ lost tokens).Perm
      (content tokens) ∧
    (readOff (Program.ofTokens depth ⟨tokens, none⟩).statements = content tokens ↔
      lost tokens = []) ∧
    (BracesApart tokens → lost tokens = []) := by
  obtain ⟨s, hrun, hkept⟩ := Survey.program_followed tokens h .start Survey.between_start
  have hstart : Survey.start.Conserved [] := ⟨List.Sublist.refl _, List.Perm.refl _⟩
  have hconserved := hstart.run hrun
  have hread : markTokens s.kept = readOff (Program.ofTokens depth ⟨tokens, none⟩).statements := by
    rw [hkept]
    rfl
  have hlost : markTokens s.dropped = lost tokens := by
    rw [lost, hrun]
  obtain ⟨hsublist, hperm⟩ := hconserved
  rw [List.nil_append, hread] at hsublist hperm
  rw [hlost] at hperm
  refine ⟨hsublist, hperm, ⟨fun hall => ?_, fun hnone => ?_⟩, fun hapart => ?_⟩
  · rw [hall] at hperm
    have hlength := hperm.length_eq
    rw [List.length_append] at hlength
    exact List.eq_nil_of_length_eq_zero (by omega)
  · rw [hnone, List.append_nil] at hperm
    exact hsublist.eq_of_length hperm.length_eq
  · rw [lost, Survey.dropped_of_run tokens .start (fun _ => Nat.le_refl _) (fun _ _ _ => .inl rfl) hapart]
    rfl

/-- A call that a function is written behind: `g = f ( 1 ) { : ( p ) p ; } + x ;`. -/
def callBeforeBrace : List Token :=
  [nameToken (.text "g"), .sign '=', nameToken (.text "f"), .sign '(',
    ⟨.text "number", .text "1"⟩, .sign ')', .sign '\x7b', .sign ':', .sign '(',
    nameToken (.text "p"), .sign ')', nameToken (.text "p"), .sign ';', .sign '\x7d',
    ⟨.text "operation", .text "+"⟩, nameToken (.text "x"), .sign ';']

/-- What is lost is the call, with its argument. -/
theorem callBeforeBrace_keeps :
    (Program.ofTokens 30 ⟨callBeforeBrace, none⟩).fault = none ∧
      lost callBeforeBrace = [nameToken (.text "f"), ⟨.text "number", .text "1"⟩] ∧
      (readOff (Program.ofTokens 30 ⟨callBeforeBrace, none⟩).statements ++ lost callBeforeBrace).Perm
        (content callBeforeBrace) := by
  have hfault : (Program.ofTokens 30 ⟨callBeforeBrace, none⟩).fault = none := by decide +kernel
  exact ⟨hfault, rfl, (statements_keep_content hfault).2.1⟩

/-- A symbol that a function is written behind: `f { } ;`. -/
def symbolBeforeBrace : List Token :=
  [nameToken (.text "f"), .sign '\x7b', .sign '\x7d', .sign ';']

/-- **The parser loses a symbol that stands in front of an opening brace.** -/
theorem symbolBeforeBrace_lost :
    (Program.ofTokens 10 ⟨symbolBeforeBrace, none⟩).fault = none ∧
      readOff (Program.ofTokens 10 ⟨symbolBeforeBrace, none⟩).statements ≠ content symbolBeforeBrace := by
  refine ⟨by decide +kernel, fun hsame => ?_⟩
  have hlength := congrArg List.length hsame
  exact absurd hlength (by decide +kernel)

end Scrawl.Grammar
