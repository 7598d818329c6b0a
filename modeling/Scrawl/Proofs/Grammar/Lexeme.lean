/-
  Scrawl.Proofs.Grammar.Lexeme — what tokens there are and how they are written.

  A token of the language is LEXICAL: a number, a string or a symbol with a text of its class, an
  operator, or a sign.  Cutting a text up gives lexical tokens only (`ofChars_lexical`), and lexical
  tokens that are written with a blank between them are cut apart again just as they were
  (`ofChars_spellTokens`).
-/

import Scrawl.Grammar.Token

namespace Scrawl.Grammar

/-! ## §1. The texts of tokens -/

/-- The characters a symbol can start with. -/
def isSymbolStart (c : Char) : Bool :=
  c == '_' || ('a' ≤ c && c ≤ 'z') || ('A' ≤ c && c ≤ 'Z')

/-- The texts of numbers: one or more digits and points. -/
def isNumberText (s : String) : Bool := !s.toList.isEmpty && s.toList.all isNumberChar

/-- The texts of symbols: a letter or an underscore, and then letters, underscores and digits. -/
def isSymbolText (s : String) : Bool :=
  match s.toList with
  | [] => false
  | c :: cs => isSymbolStart c && cs.all isSymbolChar

/-- The texts of strings: at least one of the two quotes does not occur. -/
def isStringText (s : String) : Bool := !s.toList.contains '\'' || !s.toList.contains '"'

/-- The texts of operators. -/
def isOperatorText (s : String) : Bool := s == "+" || s == "-" || s == "*" || s == "/"

/-- The tokens of the language. -/
inductive Token.Lexical : Token → Prop
  /-- A number. -/
  | number {s : String} (h : isNumberText s = true) : Lexical ⟨.text "number", .text s⟩
  /-- A string. -/
  | string {s : String} (h : isStringText s = true) : Lexical ⟨.text "string", .text s⟩
  /-- A symbol. -/
  | symbol {s : String} (h : isSymbolText s = true) : Lexical ⟨.text "symbol", .text s⟩
  /-- An operator. -/
  | operation {s : String} (h : isOperatorText s = true) : Lexical ⟨.text "operation", .text s⟩
  /-- A sign that stands for itself. -/
  | sign {c : Char} (h : isSign c = true) : Lexical (.sign c)

/-! ## §2. Classes of characters -/

theorem isSymbolStart_iff (c : Char) :
    isSymbolStart c = true ↔ isSymbolChar c = true ∧ isNumberChar c = false := by
  simp only [isSymbolStart, isSymbolChar, isNumberChar, Bool.or_eq_true, Bool.and_eq_true,
    beq_iff_eq, decide_eq_true_eq, Bool.or_eq_false_iff, Bool.and_eq_false_iff,
    decide_eq_false_iff_not, beq_eq_false_iff_ne, ne_eq, Char.le_def, UInt32.le_iff_toNat_le,
    Char.ext_iff, ← UInt32.toNat_inj]
  simp only [show ('_' : Char).val.toNat = 95 from rfl, show ('a' : Char).val.toNat = 97 from rfl,
    show ('z' : Char).val.toNat = 122 from rfl, show ('A' : Char).val.toNat = 65 from rfl,
    show ('Z' : Char).val.toNat = 90 from rfl, show ('0' : Char).val.toNat = 48 from rfl,
    show ('9' : Char).val.toNat = 57 from rfl, show ('.' : Char).val.toNat = 46 from rfl]
  omega

/-- Characters of numbers and symbols are no blanks, operators, signs or quotes. -/
theorem wordChar_plain {c : Char} (h : (isNumberChar c || isSymbolChar c) = true) :
    isSpace c = false ∧ isOperator c = false ∧ isSign c = false ∧ isQuote c = false := by
  have hne : ∀ d : Char, (isNumberChar d || isSymbolChar d) = false → c ≠ d := by
    rintro d hd rfl
    rw [h] at hd
    exact nomatch hd
  simp only [isSpace, isOperator, isSign, isQuote, Bool.or_eq_false_iff, beq_eq_false_iff_ne]
  and_intros <;> exact hne _ rfl

/-! ## §3. The item at the front of a text -/

theorem first_operator {c : Char} (h : isOperator c = true) (cs : List Char) :
    Item.first c cs = .token (.run "operation" [c]) cs := by
  have hc : isSpace c = false := by
    simp only [isOperator, Bool.or_eq_true, beq_iff_eq] at h
    rcases h with ((rfl | rfl) | rfl) | rfl <;> rfl
  simp [Item.first, hc, h]

theorem first_sign {c : Char} (h : isSign c = true) (cs : List Char) :
    Item.first c cs = .token (.sign c) cs := by
  have hc : isSpace c = false ∧ isOperator c = false := by
    simp only [isSign, Bool.or_eq_true, beq_iff_eq] at h
    rcases h with ((((((rfl | rfl) | rfl) | rfl) | rfl) | rfl) | rfl) | rfl <;> exact ⟨rfl, rfl⟩
  simp [Item.first, hc, h]

theorem first_quote {c : Char} (h : isQuote c = true) {body : List Char} (hbody : c ∉ body)
    (rest : List Char) : Item.first c (body ++ c :: rest) = .token (.run "string" body) rest := by
  have hc : isSpace c = false ∧ isOperator c = false ∧ isSign c = false := by
    simp only [isQuote, Bool.or_eq_true, beq_iff_eq] at h
    rcases h with rfl | rfl <;> exact ⟨rfl, rfl, rfl⟩
  have hall : ∀ d ∈ body, (d != c) = true := by
    intro d hd
    rw [bne_iff_ne]
    rintro rfl
    exact hbody hd
  simp [Item.first, hc, h, List.takeWhile_append_of_pos hall, List.dropWhile_append_of_pos hall]

theorem first_number {c : Char} (h : isNumberChar c = true) (cs : List Char) :
    Item.first c cs =
      .token (.run "number" (c :: cs.takeWhile isNumberChar)) (cs.dropWhile isNumberChar) := by
  have hc := wordChar_plain (c := c) (by rw [h]; rfl)
  simp [Item.first, hc, h]

theorem first_symbol {c : Char} (h : isSymbolStart c = true) (cs : List Char) :
    Item.first c cs =
      .token (.run "symbol" (c :: cs.takeWhile isSymbolChar)) (cs.dropWhile isSymbolChar) := by
  obtain ⟨hsymbol, hnumber⟩ := (isSymbolStart_iff c).1 h
  have hc := wordChar_plain (c := c) (by rw [hsymbol, Bool.or_true])
  simp [Item.first, hc, hnumber, hsymbol]

/-! ## §4. Only lexical tokens -/

theorem isNumberText_run {c : Char} (h : isNumberChar c = true) (cs : List Char) :
    isNumberText (String.ofList (c :: cs.takeWhile isNumberChar)) = true := by
  simp only [isNumberText, String.toList_ofList, List.isEmpty_cons, Bool.not_false, Bool.true_and,
    List.all_cons, h]
  exact List.all_takeWhile

theorem isSymbolText_run {c : Char} (h : isSymbolStart c = true) (cs : List Char) :
    isSymbolText (String.ofList (c :: cs.takeWhile isSymbolChar)) = true := by
  simp only [isSymbolText, String.toList_ofList, h, Bool.true_and]
  exact List.all_takeWhile

/-- What runs up to a quote lacks that quote. -/
theorem isStringText_run {c : Char} (h : isQuote c = true) (cs : List Char) :
    isStringText (String.ofList (cs.takeWhile (· != c))) = true := by
  have hlacks : c ∉ cs.takeWhile (· != c) := by
    intro hmem
    have hall := List.all_eq_true.1 (List.all_takeWhile (p := (· != c)) (l := cs)) c hmem
    simp at hall
  simp only [isQuote, Bool.or_eq_true, beq_iff_eq] at h
  simp only [isStringText, String.toList_ofList, Bool.or_eq_true, Bool.not_eq_true',
    List.contains_eq_mem, decide_eq_false_iff_not]
  rcases h with rfl | rfl
  · exact .inl hlacks
  · exact .inr hlacks

theorem isOperatorText_run {c : Char} (h : isOperator c = true) :
    isOperatorText (String.ofList [c]) = true := by
  simp only [isOperator, Bool.or_eq_true, beq_iff_eq] at h
  rcases h with ((rfl | rfl) | rfl) | rfl <;> rfl

/-- A token at the front of a text is lexical. -/
theorem first_lexical {c : Char} {cs rest : List Char} {t : Token}
    (h : Item.first c cs = .token t rest) : t.Lexical := by
  unfold Item.first at h
  split at h
  · exact nomatch h
  split at h
  · next hoperator =>
    injection h with ht
    subst ht
    exact .operation (isOperatorText_run hoperator)
  split at h
  · next hsign =>
    injection h with ht
    subst ht
    exact .sign hsign
  split at h
  · next hquote =>
    split at h
    · injection h with ht
      subst ht
      exact .string (isStringText_run hquote cs)
    · exact nomatch h
  split at h
  · next hnumber =>
    injection h with ht
    subst ht
    exact .number (isNumberText_run hnumber cs)
  split at h
  · next hnumber hsymbol =>
    injection h with ht
    subst ht
    have hstart : isSymbolStart c = true :=
      (isSymbolStart_iff c).2 ⟨hsymbol, by simpa using hnumber⟩
    exact .symbol (isSymbolText_run hstart cs)
  split at h
  · split at h <;> exact nomatch h
  · exact nomatch h

/-- **Cutting a text up gives lexical tokens only**, also in front of a fault. -/
theorem ofChars_lexical (cs : List Char) : ∀ t ∈ (Tokens.ofChars cs).items, t.Lexical := by
  fun_induction Tokens.ofChars cs with
  | case1 => intro t ht; exact nomatch ht
  | case2 c cs rest h _ ih => exact ih
  | case3 c cs u rest h _ ih =>
    intro t ht
    rcases List.mem_cons.1 ht with rfl | ht
    · exact first_lexical h
    · exact ih t ht
  | case4 c cs f h => intro t ht; exact nomatch ht

/-! ## §5. Writing tokens -/

/-- A choice of the quote between which each string is written. -/
structure Quoting where
  /-- The quote for a string. -/
  quote : String → Char
  /-- It is one of the two quotes. -/
  isQuote_quote : ∀ s, isQuote (quote s) = true
  /-- It does not occur in the string. -/
  quote_not_mem : ∀ s, isStringText s = true → quote s ∉ s.toList

/-- Single quotes, except for strings that hold one. -/
def Quoting.sparing : Quoting where
  quote s := if s.toList.contains '\'' then '"' else '\''
  isQuote_quote s := by split <;> rfl
  quote_not_mem s h := by
    simp only [isStringText, Bool.or_eq_true, Bool.not_eq_true', List.contains_eq_mem,
      decide_eq_false_iff_not, decide_eq_true_eq] at h ⊢
    split
    · next hsingle => exact h.resolve_left (absurd hsingle)
    · next hsingle => exact hsingle

/-- The characters of a token. -/
def Token.spelling (q : Quoting) (t : Token) : List Char :=
  match t.kind, t.value with
  | .text "string", .text s => q.quote s :: (s.toList ++ [q.quote s])
  | .text kind, .text s => if s.toList.isEmpty then kind.toList else s.toList
  | _, _ => []

/-- Tokens written with a blank between them. -/
def spellTokens (q : Quoting) (ts : List Token) : List Char :=
  List.intercalate [' '] (ts.map (Token.spelling q))

/-- What can stand behind a token without becoming part of it: nothing, or a blank. -/
def AtBlank (rest : List Char) : Prop := ∀ c ∈ rest.head?, c = ' '

/-- A run of characters of a class that cannot go on is all that there is of the class. -/
theorem run_ends {p : Char → Bool} {cs rest : List Char} (hcs : ∀ c ∈ cs, p c = true)
    (hrest : ∀ c ∈ rest.head?, p c = false) :
    (cs ++ rest).takeWhile p = cs ∧ (cs ++ rest).dropWhile p = rest := by
  rw [List.takeWhile_append_of_pos hcs, List.dropWhile_append_of_pos hcs]
  cases rest with
  | nil => simp
  | cons c rest => simp [hrest c rfl]

/-- A run of characters of a class ends at a blank that is not in the class. -/
theorem run_atBlank {p : Char → Bool} (hp : p ' ' = false) {cs rest : List Char}
    (hcs : cs.all p = true) (hrest : AtBlank rest) :
    (cs ++ rest).takeWhile p = cs ∧ (cs ++ rest).dropWhile p = rest := by
  refine run_ends (List.all_eq_true.1 hcs) fun c hc => ?_
  obtain rfl : c = ' ' := hrest c hc
  exact hp

/-- A lexical token is the item at the front of its own spelling. -/
theorem first_spelling (q : Quoting) {t : Token} (ht : t.Lexical) {rest : List Char}
    (hrest : AtBlank rest) :
    ∃ c cs, t.spelling q ++ rest = c :: cs ∧ Item.first c cs = .token t rest := by
  cases ht with
  | @number s h =>
    obtain ⟨hne, hall⟩ := Bool.and_eq_true_iff.1 h
    cases hs : s.toList with
    | nil => simp [hs] at hne
    | cons c cs =>
      rw [hs, List.all_cons, Bool.and_eq_true] at hall
      obtain ⟨hrun, hleft⟩ := run_atBlank (p := isNumberChar) rfl hall.2 hrest
      refine ⟨c, cs ++ rest, by simp [Token.spelling, hs], ?_⟩
      rw [first_number hall.1, hrun, hleft, Token.run, ← hs, String.ofList_toList]
  | @string s h =>
    refine ⟨q.quote s, s.toList ++ q.quote s :: rest, by simp [Token.spelling], ?_⟩
    rw [first_quote (q.isQuote_quote s) (q.quote_not_mem s h), Token.run, String.ofList_toList]
  | @symbol s h =>
    unfold isSymbolText at h
    cases hs : s.toList with
    | nil => simp [hs] at h
    | cons c cs =>
      rw [hs, Bool.and_eq_true] at h
      obtain ⟨hrun, hleft⟩ := run_atBlank (p := isSymbolChar) rfl h.2 hrest
      refine ⟨c, cs ++ rest, by simp [Token.spelling, hs], ?_⟩
      rw [first_symbol h.1, hrun, hleft, Token.run, ← hs, String.ofList_toList]
  | @operation s h =>
    simp only [isOperatorText, Bool.or_eq_true, beq_iff_eq] at h
    rcases h with ((rfl | rfl) | rfl) | rfl <;>
      exact ⟨_, rest, rfl, first_operator rfl rest⟩
  | @sign c h =>
    simp only [isSign, Bool.or_eq_true, beq_iff_eq] at h
    rcases h with ((((((rfl | rfl) | rfl) | rfl) | rfl) | rfl) | rfl) | rfl <;>
      exact ⟨_, rest, rfl, first_sign rfl rest⟩

/-- What is written behind the first of several tokens starts with a blank. -/
theorem spellTokens_cons (q : Quoting) (t : Token) (ts : List Token) :
    ∃ rest, spellTokens q (t :: ts) = t.spelling q ++ rest ∧ AtBlank rest ∧
      Tokens.ofChars rest = Tokens.ofChars (spellTokens q ts) := by
  cases ts with
  | nil => exact ⟨[], by simp [spellTokens], by simp [AtBlank], rfl⟩
  | cons u ts =>
    refine ⟨' ' :: spellTokens q (u :: ts), ?_, by simp [AtBlank], ?_⟩
    · simp [spellTokens, List.intercalate_cons_cons]
    · -- the blank in between is skipped
      rw [Tokens.ofChars]
      rfl

/-- **Lexical tokens with blanks between them are cut apart again just as they were.** -/
theorem ofChars_spellTokens (q : Quoting) (ts : List Token) (h : ∀ t ∈ ts, t.Lexical) :
    Tokens.ofChars (spellTokens q ts) = ⟨ts, none⟩ := by
  induction ts with
  | nil =>
    show Tokens.ofChars [] = _
    rw [Tokens.ofChars]
  | cons t ts ih =>
    have ht : t.Lexical := h t List.mem_cons_self
    obtain ⟨rest, hspell, hblank, hrest⟩ := spellTokens_cons q t ts
    obtain ⟨c, cs, hfront, hfirst⟩ := first_spelling q ht hblank
    rw [hspell, hfront, Tokens.ofChars]
    -- the item at the front is the token itself, neither a blank nor a fault
    split
    · next h' => rw [hfirst] at h'; cases h'
    · next h' =>
      rw [hfirst] at h'
      injection h' with hu hrest'
      subst hu hrest'
      rw [hrest, ih fun u hu => h u (List.mem_cons_of_mem _ hu)]
      rfl
    · next h' => rw [hfirst] at h'; cases h'

end Scrawl.Grammar
