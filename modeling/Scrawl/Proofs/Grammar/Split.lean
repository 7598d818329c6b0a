/-
  Scrawl.Proofs.Grammar.Split — the lexical grammar.

  A text SPLITS into pieces: blanks, comments, operators, signs, strings, numbers and symbols, where
  a number or a symbol ends only where it cannot go on.  Nothing here mentions how a text is cut;
  that cutting finds exactly the split, or the longest part in front of what is no piece, is what
  is shown (`ofText_splits`).
-/

import Scrawl.Proofs.Grammar.Lexeme

namespace Scrawl.Grammar

/-! ## §1. Pieces -/

/-- A piece of a text. -/
inductive Piece where
  /-- A space or a newline. -/
  | blank (c : Char)
  /-- A comment, with what stands between its `#` and its newline. -/
  | comment (body : List Char)
  /-- An operator. -/
  | operator (c : Char)
  /-- A sign that stands for itself. -/
  | sign (c : Char)
  /-- A string, with its quote and what stands between the quotes. -/
  | string (quote : Char) (body : List Char)
  /-- A number. -/
  | number (run : List Char)
  /-- A symbol, with its first character and the others. -/
  | symbol (start : Char) (run : List Char)
  deriving DecidableEq

namespace Piece

/-- The characters of a piece. -/
def chars : Piece → List Char
  | .blank c => [c]
  | .comment body => '#' :: (body ++ ['\n'])
  | .operator c => [c]
  | .sign c => [c]
  | .string quote body => quote :: (body ++ [quote])
  | .number run => run
  | .symbol start run => start :: run

/-- Whether a piece is made of the characters that it can be made of. -/
def WellFormed : Piece → Prop
  | .blank c => c ∈ [' ', '\n']
  | .comment body => '\n' ∉ body
  | .operator c => c ∈ ['+', '-', '*', '/']
  | .sign c => c ∈ ['(', ')', '\x7b', '\x7d', ',', ';', '=', ':']
  | .string quote body => quote ∈ ['\'', '"'] ∧ quote ∉ body
  | .number run => run ≠ [] ∧ ∀ c ∈ run, c = '.' ∨ c.isDigit = true
  | .symbol start run =>
    (start = '_' ∨ start.isAlpha = true) ∧ ∀ c ∈ run, c = '_' ∨ c.isAlphanum = true

/-- Whether a piece cannot go on into what stands behind it. -/
def EndsBefore : Piece → List Char → Prop
  | .number _, rest => ∀ c ∈ rest.head?, ¬(c = '.' ∨ c.isDigit = true)
  | .symbol _ _, rest => ∀ c ∈ rest.head?, ¬(c = '_' ∨ c.isAlphanum = true)
  | _, _ => True

/-- The token of a piece; blanks and comments have none. -/
def token? : Piece → Option Token
  | .blank _ => none
  | .comment _ => none
  | .operator c => some (.run "operation" [c])
  | .sign c => some (.sign c)
  | .string _ body => some (.run "string" body)
  | .number run => some (.run "number" run)
  | .symbol start run => some (.run "symbol" (start :: run))

/-- The tokens of pieces, in order. -/
def tokens (ps : List Piece) : List Token := ps.filterMap token?

end Piece

/-- A text splits into pieces. -/
inductive Splits : List Char → List Piece → Prop
  /-- The empty text. -/
  | nil : Splits [] []
  /-- A piece, and a text behind it that splits. -/
  | cons {p : Piece} {rest : List Char} {ps : List Piece} (hp : p.WellFormed)
      (hend : p.EndsBefore rest) (hrest : Splits rest ps) : Splits (p.chars ++ rest) (p :: ps)

/-- What stands where a piece should, and the words for what is wrong with it. -/
inductive Failing : List Char → String → Prop
  /-- A string without its end. -/
  | string {quote : Char} {body : List Char} (hquote : quote ∈ ['\'', '"']) (h : quote ∉ body) :
      Failing (quote :: body) "Error on string!"
  /-- A comment without its end. -/
  | comment {body : List Char} (h : '\n' ∉ body) : Failing ('#' :: body) "Error on string!"
  /-- A character with which no piece starts. -/
  | unknown {c : Char} {rest : List Char}
      (h : ∀ p : Piece, p.WellFormed → p.chars.head? ≠ some c) :
      Failing (c :: rest) ("Unknown character '" ++ String.singleton c ++ "'")

instance (p : Piece) : Decidable p.WellFormed :=
  match p with
  | .blank c => inferInstanceAs (Decidable (c ∈ _))
  | .comment body => inferInstanceAs (Decidable ('\n' ∉ body))
  | .operator c => inferInstanceAs (Decidable (c ∈ _))
  | .sign c => inferInstanceAs (Decidable (c ∈ _))
  | .string quote body => inferInstanceAs (Decidable (quote ∈ _ ∧ quote ∉ body))
  | .number run =>
    have := List.decidableBAll (fun c : Char => c = '.' ∨ c.isDigit = true) run
    inferInstanceAs (Decidable (run ≠ [] ∧ ∀ c ∈ run, c = '.' ∨ c.isDigit = true))
  | .symbol start run =>
    have := List.decidableBAll (fun c : Char => c = '_' ∨ c.isAlphanum = true) run
    inferInstanceAs (Decidable ((start = '_' ∨ start.isAlpha = true) ∧
      ∀ c ∈ run, c = '_' ∨ c.isAlphanum = true))

instance (p : Piece) (rest : List Char) : Decidable (p.EndsBefore rest) :=
  match p with
  | .number _ =>
    Option.decidableForallMem (p := fun c : Char => ¬(c = '.' ∨ c.isDigit = true)) rest.head?
  | .symbol _ _ =>
    Option.decidableForallMem (p := fun c : Char => ¬(c = '_' ∨ c.isAlphanum = true)) rest.head?
  | .blank _ | .comment _ | .operator _ | .sign _ | .string _ _ => .isTrue trivial

theorem splits_nil_iff (cs : List Char) : Splits cs [] ↔ cs = [] :=
  ⟨fun h => by cases h; rfl, fun h => h ▸ .nil⟩

theorem splits_cons_iff (cs : List Char) (p : Piece) (ps : List Piece) :
    Splits cs (p :: ps) ↔ p.WellFormed ∧ p.chars ++ cs.drop p.chars.length = cs ∧
      p.EndsBefore (cs.drop p.chars.length) ∧ Splits (cs.drop p.chars.length) ps := by
  constructor
  · intro h
    cases h with
    | cons hp hend hrest => simpa using ⟨hp, hend, hrest⟩
  · rintro ⟨hp, htext, hend, hrest⟩
    exact htext ▸ .cons hp hend hrest

instance decidableSplits : (cs : List Char) → (ps : List Piece) → Decidable (Splits cs ps)
  | cs, [] => decidable_of_iff' _ (splits_nil_iff cs)
  | cs, p :: ps =>
    have := decidableSplits (cs.drop p.chars.length) ps
    decidable_of_iff' _ (splits_cons_iff cs p ps)

/-! ## §2. The classes of characters -/

theorem isSpace_iff (c : Char) : isSpace c = true ↔ c ∈ [' ', '\n'] := by
  simp [isSpace]

theorem isOperator_iff (c : Char) : isOperator c = true ↔ c ∈ ['+', '-', '*', '/'] := by
  simp [isOperator, or_assoc]

theorem isSign_iff (c : Char) :
    isSign c = true ↔ c ∈ ['(', ')', '\x7b', '\x7d', ',', ';', '=', ':'] := by
  simp [isSign, or_assoc]

theorem isQuote_iff (c : Char) : isQuote c = true ↔ c ∈ ['\'', '"'] := by
  simp [isQuote]

theorem isNumberChar_iff (c : Char) : isNumberChar c = true ↔ c = '.' ∨ c.isDigit = true := by
  simp only [isNumberChar, Char.isDigit, Bool.or_eq_true, beq_iff_eq, Bool.and_eq_true,
    decide_eq_true_eq, Char.le_def]

theorem isSymbolStart_iff_letter (c : Char) :
    isSymbolStart c = true ↔ c = '_' ∨ c.isAlpha = true := by
  have hupper : c.isUpper = true ↔ 'A' ≤ c ∧ c ≤ 'Z' := decide_eq_true_iff
  have hletter : c.isAlpha = (c.isUpper || ('a' ≤ c && c ≤ 'z')) := rfl
  simp only [isSymbolStart, hletter, hupper, Bool.or_eq_true, beq_iff_eq, Bool.and_eq_true,
    decide_eq_true_eq]
  rw [or_assoc, or_comm (a := 'a' ≤ c ∧ _)]

theorem isSymbolChar_iff (c : Char) : isSymbolChar c = true ↔ c = '_' ∨ c.isAlphanum = true := by
  have hstart := isSymbolStart_iff_letter c
  have hdigit : ('0' ≤ c && c ≤ '9') = c.isDigit := rfl
  rw [Char.isAlphanum, Bool.or_eq_true, ← or_assoc, ← hstart, ← hdigit, ← Bool.or_eq_true]
  rfl

/-- A character of a symbol that starts none is a digit. -/
theorem isSymbolChar_eq_false {c : Char} (hnumber : isNumberChar c = false)
    (hstart : isSymbolStart c = false) : isSymbolChar c = false := by
  rw [← Bool.not_eq_true]
  intro hsymbol
  rw [(isSymbolStart_iff c).2 ⟨hsymbol, hnumber⟩] at hstart
  exact nomatch hstart

/-! ## §3. The piece at the front of a text -/

/-- The item that a piece is in front of a text. -/
def Piece.item (p : Piece) (rest : List Char) : Item :=
  match p.token? with
  | none => .skipped rest
  | some t => .token t rest

/-- What lacks a character runs on over everything but it. -/
theorem run_lacks {q : Char} {cs : List Char} (h : q ∉ cs) : ∀ c ∈ cs, (c != q) = true := by
  intro c hc
  rw [bne_iff_ne]
  rintro rfl
  exact h hc

/-- What stands behind a run up to its closing character. -/
theorem run_closes {q : Char} {body : List Char} (h : q ∉ body) (rest : List Char) :
    (body ++ q :: rest).dropWhile (· != q) = q :: rest := by
  simp [List.dropWhile_append_of_pos (run_lacks h)]

/-- Nothing stands behind a run that reaches no closing character. -/
theorem run_open {q : Char} {cs : List Char} (h : q ∉ cs) : cs.dropWhile (· != q) = [] := by
  have hall : (cs ++ []).dropWhile (· != q) = [].dropWhile (· != q) :=
    List.dropWhile_append_of_pos (run_lacks h)
  rwa [List.append_nil] at hall

/-- A run of a class from the front of a text, and that it ends there. -/
theorem run_exists (p : Char → Bool) (cs : List Char) :
    ∃ run rest, cs = run ++ rest ∧ (∀ c ∈ run, p c = true) ∧ ∀ c ∈ rest.head?, p c = false := by
  refine ⟨cs.takeWhile p, cs.dropWhile p, List.takeWhile_append_dropWhile.symm,
    List.all_eq_true.1 List.all_takeWhile, fun c hc => ?_⟩
  have hhead := List.head?_dropWhile_not p cs
  rw [Option.mem_def.1 hc] at hhead
  exact hhead

/-- A closing character does not occur, or it ends a run without it. -/
theorem run_cases (q : Char) (cs : List Char) :
    q ∉ cs ∨ ∃ body rest, q ∉ body ∧ cs = body ++ q :: rest := by
  by_cases h : q ∈ cs
  · obtain ⟨body, rest, hcs, hbody⟩ := List.eq_append_cons_of_mem h
    exact .inr ⟨body, rest, hbody, hcs⟩
  · exact .inl h

/-- **A well-formed piece that ends before a text is the item at the front of both.** -/
theorem first_piece {p : Piece} (hp : p.WellFormed) {rest : List Char}
    (hend : p.EndsBefore rest) :
    ∃ c cs, p.chars ++ rest = c :: cs ∧ Item.first c cs = p.item rest := by
  cases p with
  | blank c =>
    have hc : isSpace c = true := (isSpace_iff c).2 hp
    exact ⟨c, rest, rfl, by simp [Item.first, hc, Piece.item, Piece.token?]⟩
  | comment body =>
    have hleft := run_closes hp rest
    refine ⟨'#', body ++ '\n' :: rest, by simp [Piece.chars], ?_⟩
    simp only [Item.first, hleft]
    rfl
  | operator c => exact ⟨c, rest, rfl, first_operator ((isOperator_iff c).2 hp) rest⟩
  | sign c => exact ⟨c, rest, rfl, first_sign ((isSign_iff c).2 hp) rest⟩
  | string q body =>
    refine ⟨q, body ++ q :: rest, by simp [Piece.chars], ?_⟩
    exact first_quote ((isQuote_iff q).2 hp.1) hp.2 rest
  | number run =>
    obtain ⟨hne, hrun⟩ := hp
    cases run with
    | nil => exact absurd rfl hne
    | cons c run =>
      have hc : isNumberChar c = true := (isNumberChar_iff c).2 (hrun c List.mem_cons_self)
      have hcs : ∀ d ∈ run, isNumberChar d = true := fun d hd =>
        (isNumberChar_iff d).2 (hrun d (List.mem_cons_of_mem c hd))
      have hrest : ∀ d ∈ rest.head?, isNumberChar d = false := fun d hd => by
        rw [← Bool.not_eq_true, isNumberChar_iff]
        exact hend d hd
      obtain ⟨htaken, hleft⟩ := run_ends hcs hrest
      refine ⟨c, run ++ rest, rfl, ?_⟩
      rw [first_number hc, htaken, hleft]
      rfl
  | symbol c run =>
    obtain ⟨hstart, hrun⟩ := hp
    have hcs : ∀ d ∈ run, isSymbolChar d = true := fun d hd => (isSymbolChar_iff d).2 (hrun d hd)
    have hrest : ∀ d ∈ rest.head?, isSymbolChar d = false := fun d hd => by
      rw [← Bool.not_eq_true, isSymbolChar_iff]
      exact hend d hd
    obtain ⟨htaken, hleft⟩ := run_ends hcs hrest
    refine ⟨c, run ++ rest, rfl, ?_⟩
    rw [first_symbol ((isSymbolStart_iff_letter c).2 hstart), htaken, hleft]
    rfl

/-- A character with which no piece starts is in none of the classes. -/
theorem unknown_plain {c : Char} (h : ∀ p : Piece, p.WellFormed → p.chars.head? ≠ some c) :
    (isSpace c = false ∧ isOperator c = false ∧ isSign c = false ∧ isQuote c = false) ∧
      isNumberChar c = false ∧ isSymbolStart c = false ∧ c ≠ '#' := by
  simp only [← Bool.not_eq_true, isSpace_iff, isOperator_iff, isSign_iff, isQuote_iff,
    isNumberChar_iff, isSymbolStart_iff_letter]
  refine ⟨⟨fun hc => h (.blank c) hc rfl, fun hc => h (.operator c) hc rfl,
    fun hc => h (.sign c) hc rfl, fun hc => h (.string c []) ⟨hc, by simp⟩ rfl⟩,
    fun hc => h (.number [c]) ⟨by simp, by simpa using hc⟩ rfl,
    fun hc => h (.symbol c []) ⟨hc, by simp⟩ rfl, ?_⟩
  rintro rfl
  exact h (.comment []) (by simp [Piece.WellFormed]) rfl

/-- **What is no piece is a fault at the front of a text.** -/
theorem first_failing {c : Char} {cs : List Char} {words : String}
    (h : Failing (c :: cs) words) : ∃ f, Item.first c cs = .fault f ∧ f.message = words := by
  generalize htext : c :: cs = text at h
  cases h with
  | @string q body hquote hopen =>
    obtain ⟨rfl, rfl⟩ := List.cons.inj htext
    refine ⟨.unterminated, ?_, rfl⟩
    have hleft := run_open hopen
    have hc : c = '\'' ∨ c = '"' := by simpa using hquote
    rcases hc with rfl | rfl <;> simp only [Item.first, hleft] <;> rfl
  | @comment body hopen =>
    obtain ⟨rfl, rfl⟩ := List.cons.inj htext
    have hleft := run_open hopen
    exact ⟨.unterminated, by simp only [Item.first, hleft]; rfl, rfl⟩
  | @unknown d rest hunknown =>
    obtain ⟨rfl, rfl⟩ := List.cons.inj htext
    obtain ⟨⟨hspace, hoperator, hsign, hquote⟩, hnumber, hstart, hcomment⟩ :=
      unknown_plain hunknown
    have hsymbol := isSymbolChar_eq_false hnumber hstart
    refine ⟨.unknownCharacter c, ?_, rfl⟩
    simp [Item.first, hspace, hoperator, hsign, hquote, hnumber, hsymbol, hcomment]

/-- Every text that is not empty starts with a piece or with what is none. -/
theorem piece_or_failing (c : Char) (cs : List Char) :
    (∃ p rest, Piece.WellFormed p ∧ p.EndsBefore rest ∧ c :: cs = p.chars ++ rest) ∨
      ∃ words, Failing (c :: cs) words := by
  by_cases hstart : ∃ p : Piece, p.WellFormed ∧ p.chars.head? = some c
  · obtain ⟨p, hp, hc⟩ := hstart
    cases p with
    | blank d =>
      obtain rfl : d = c := by simpa [Piece.chars] using hc
      exact .inl ⟨.blank d, cs, hp, trivial, rfl⟩
    | operator d =>
      obtain rfl : d = c := by simpa [Piece.chars] using hc
      exact .inl ⟨.operator d, cs, hp, trivial, rfl⟩
    | sign d =>
      obtain rfl : d = c := by simpa [Piece.chars] using hc
      exact .inl ⟨.sign d, cs, hp, trivial, rfl⟩
    | comment body =>
      obtain rfl : '#' = c := by simpa [Piece.chars] using hc
      rcases run_cases '\n' cs with hopen | ⟨body, rest, hbody, rfl⟩
      · exact .inr ⟨_, .comment hopen⟩
      · exact .inl ⟨.comment body, rest, hbody, trivial, by simp [Piece.chars]⟩
    | string q body =>
      obtain rfl : q = c := by simpa [Piece.chars] using hc
      rcases run_cases q cs with hopen | ⟨body, rest, hbody, rfl⟩
      · exact .inr ⟨_, .string hp.1 hopen⟩
      · exact .inl ⟨.string q body, rest, ⟨hp.1, hbody⟩, trivial, by simp [Piece.chars]⟩
    | number run =>
      have hclass : isNumberChar c = true :=
        (isNumberChar_iff c).2 (hp.2 c (List.mem_of_mem_head? hc))
      obtain ⟨more, rest, rfl, hmore, hrest⟩ := run_exists isNumberChar cs
      refine .inl ⟨.number (c :: more), rest, ⟨by simp, ?_⟩, ?_, rfl⟩
      · simp only [← isNumberChar_iff]
        exact List.forall_mem_cons.2 ⟨hclass, hmore⟩
      · simp only [Piece.EndsBefore, ← isNumberChar_iff, Bool.not_eq_true]
        exact hrest
    | symbol d run =>
      obtain rfl : d = c := by simpa [Piece.chars] using hc
      obtain ⟨more, rest, rfl, hmore, hrest⟩ := run_exists isSymbolChar cs
      refine .inl ⟨.symbol d more, rest, ⟨hp.1, ?_⟩, ?_, rfl⟩
      · simpa only [← isSymbolChar_iff] using hmore
      · simpa only [Piece.EndsBefore, ← isSymbolChar_iff, Bool.not_eq_true] using hrest
  · right
    exact ⟨_, .unknown fun p hp hc => hstart ⟨p, hp, hc⟩⟩

/-! ## §4. Cutting finds the split -/

theorem ofChars_skipped {c : Char} {cs rest : List Char} (h : Item.first c cs = .skipped rest) :
    Tokens.ofChars (c :: cs) = Tokens.ofChars rest := by
  rw [Tokens.ofChars]
  split <;> simp_all

theorem ofChars_token {c : Char} {cs rest : List Char} {t : Token}
    (h : Item.first c cs = .token t rest) :
    Tokens.ofChars (c :: cs) = (Tokens.ofChars rest).cons t := by
  rw [Tokens.ofChars]
  split <;> simp_all

theorem ofChars_fault {c : Char} {cs : List Char} {f : Fault} (h : Item.first c cs = .fault f) :
    Tokens.ofChars (c :: cs) = ⟨[], some f⟩ := by
  rw [Tokens.ofChars]
  split <;> simp_all

/-- Tokens with others in front. -/
def Tokens.behind (front : List Token) (ts : Tokens) : Tokens :=
  ⟨front ++ ts.items, ts.fault⟩

/-- A piece at the front of a text gives its token, if it has one. -/
theorem ofChars_piece {p : Piece} (hp : p.WellFormed) {rest : List Char}
    (hend : p.EndsBefore rest) :
    Tokens.ofChars (p.chars ++ rest) = (Tokens.ofChars rest).behind (Piece.tokens [p]) := by
  obtain ⟨c, cs, htext, hfirst⟩ := first_piece hp hend
  rw [htext]
  unfold Piece.item at hfirst
  cases ht : p.token? with
  | none =>
    rw [ht] at hfirst
    rw [ofChars_skipped hfirst, Piece.tokens, List.filterMap_cons_none ht]
    rfl
  | some t =>
    rw [ht] at hfirst
    rw [ofChars_token hfirst, Piece.tokens, List.filterMap_cons_some ht]
    rfl

/-- Where a piece ends hangs on the next character alone. -/
theorem Piece.EndsBefore.congr {p : Piece} {rest rest' : List Char} (h : p.EndsBefore rest)
    (hrest : ∀ c ∈ rest'.head?, c ∈ rest.head?) : p.EndsBefore rest' := by
  cases p with
  | number run => exact fun c hc => h c (hrest c hc)
  | symbol start run => exact fun c hc => h c (hrest c hc)
  | _ => trivial

theorem Piece.chars_ne_nil {p : Piece} (hp : p.WellFormed) : p.chars ≠ [] := by
  cases p with
  | number run => exact hp.1
  | _ => simp [Piece.chars]

/-- **A text that splits gives the tokens of its pieces, and then those of what stands behind it,**
    if that does not go on its last piece. -/
theorem ofChars_append_of_splits {front rest : List Char} {ps : List Piece} (h : Splits front ps)
    (hseam : ∀ p ∈ ps.getLast?, p.EndsBefore rest) :
    Tokens.ofChars (front ++ rest) = (Tokens.ofChars rest).behind (Piece.tokens ps) := by
  induction h with
  | nil => rfl
  | @cons p behind ps hp hend hbehind ih =>
    have hp' : p.EndsBefore (behind ++ rest) := by
      cases hbehind with
      | nil => exact hseam p rfl
      | @cons q more qs hq _ _ =>
        refine hend.congr fun c hc => ?_
        cases hchars : q.chars with
        | nil => exact absurd hchars (Piece.chars_ne_nil hq)
        | cons d ds => simpa [hchars] using hc
    have hrest : ∀ q ∈ ps.getLast?, q.EndsBefore rest := by
      intro q hq
      refine hseam q ?_
      cases ps with
      | nil => exact nomatch hq
      | cons q' qs => rwa [List.getLast?_cons_cons]
    rw [List.append_assoc, ofChars_piece hp hp', ih hrest]
    cases ht : p.token? <;> simp [Tokens.behind, Piece.tokens, ht]

/-- A piece does not go on into a character that is neither of a number nor of a symbol. -/
theorem Piece.endsBefore_cons (p : Piece) {c : Char} (hnumber : isNumberChar c = false)
    (hsymbol : isSymbolChar c = false) (rest : List Char) : p.EndsBefore (c :: rest) := by
  cases p with
  | number run =>
    intro d hd
    obtain rfl : c = d := by simpa using hd
    rw [← isNumberChar_iff, hnumber]
    simp
  | symbol start run =>
    intro d hd
    obtain rfl : c = d := by simpa using hd
    rw [← isSymbolChar_iff, hsymbol]
    simp
  | _ => trivial

/-- What is no piece does not go on one that stands in front of it. -/
theorem Failing.endsBefore {rest : List Char} {words : String} (h : Failing rest words)
    (p : Piece) : p.EndsBefore rest := by
  -- the first character is neither of a number nor of a symbol
  cases h with
  | @string q body hquote _ =>
    have hq : q = '\'' ∨ q = '"' := by simpa using hquote
    rcases hq with rfl | rfl <;> exact p.endsBefore_cons rfl rfl body
  | comment _ => exact p.endsBefore_cons rfl rfl _
  | unknown hunknown =>
    obtain ⟨-, hnumber, hstart, -⟩ := unknown_plain hunknown
    exact p.endsBefore_cons hnumber (isSymbolChar_eq_false hnumber hstart) _

/-- What is no piece gives no token but a fault. -/
theorem ofChars_failing {rest : List Char} {words : String} (h : Failing rest words) :
    ∃ f, Tokens.ofChars rest = ⟨[], some f⟩ ∧ f.message = words := by
  cases rest with
  | nil => exact nomatch h
  | cons c cs =>
    obtain ⟨f, hfirst, hwords⟩ := first_failing h
    exact ⟨f, ofChars_fault hfirst, hwords⟩

/-- Every text splits, or a part of it does and no piece stands behind that. -/
theorem splits_or_fails (cs : List Char) :
    (∃ ps, Splits cs ps) ∨
      ∃ front rest ps words, cs = front ++ rest ∧ Splits front ps ∧ Failing rest words := by
  induction hn : cs.length using Nat.strongRecOn generalizing cs with
  | ind n ih =>
    cases cs with
    | nil => exact .inl ⟨[], .nil⟩
    | cons c cs =>
      rcases piece_or_failing c cs with ⟨p, rest, hp, hend, htext⟩ | ⟨words, hfails⟩
      · have hshorter : rest.length < n := by
          have hlength := congrArg List.length htext
          have hpos := List.length_pos_iff.2 (Piece.chars_ne_nil hp)
          rw [List.length_append] at hlength
          omega
        rcases ih _ hshorter rest rfl with ⟨ps, hps⟩ | ⟨front, failing, ps, words, rfl, hps, hfails⟩
        · exact .inl ⟨p :: ps, htext ▸ .cons hp hend hps⟩
        · refine .inr ⟨p.chars ++ front, failing, p :: ps, words, ?_, .cons hp ?_ hps, hfails⟩
          · rw [htext, List.append_assoc]
          · refine hend.congr fun d hd => ?_
            cases front with
            | nil => exact nomatch hd
            | cons d' front => exact hd
      · exact .inr ⟨[], c :: cs, [], words, rfl, .nil, hfails⟩

/-! ## §5. There is one split -/

/-- Well-formed pieces with the same characters and the same token are the same. -/
theorem Piece.eq_of_chars {p q : Piece} (hp : p.WellFormed) (hq : q.WellFormed)
    (hchars : p.chars = q.chars) (htoken : p.token? = q.token?) : p = q := by
  -- the token tells the kinds apart, except for blanks and comments, which start differently
  cases p <;> cases q <;> simp_all [Piece.chars, Piece.token?, Token.run, Token.sign]

/-- Only one piece can stand at the front of a text. -/
theorem Piece.front_unique {p q : Piece} {rest rest' : List Char} (hp : p.WellFormed)
    (hend : p.EndsBefore rest) (hq : q.WellFormed) (hend' : q.EndsBefore rest')
    (htext : p.chars ++ rest = q.chars ++ rest') : p = q ∧ rest = rest' := by
  obtain ⟨c, cs, hpc, hpitem⟩ := first_piece hp hend
  obtain ⟨d, ds, hqd, hqitem⟩ := first_piece hq hend'
  obtain ⟨rfl, rfl⟩ := List.cons.inj (hpc.symm.trans (htext.trans hqd))
  have hitem : p.item rest = q.item rest' := hpitem.symm.trans hqitem
  have hparts : p.token? = q.token? ∧ rest = rest' := by
    unfold Piece.item at hitem
    split at hitem <;> split at hitem <;> simp_all
  obtain ⟨htoken, rfl⟩ := hparts
  exact ⟨Piece.eq_of_chars hp hq (List.append_cancel_right htext) htoken, rfl⟩

theorem Splits.unique {cs : List Char} {ps qs : List Piece} (h : Splits cs ps)
    (h' : Splits cs qs) : ps = qs := by
  induction h generalizing qs with
  | nil =>
    generalize hcs : ([] : List Char) = cs at h'
    cases h' with
    | nil => rfl
    | cons hq _ _ => exact absurd (List.append_eq_nil_iff.1 hcs.symm).1 (Piece.chars_ne_nil hq)
  | @cons p rest ps hp hend _ ih =>
    generalize hcs : p.chars ++ rest = cs at h'
    cases h' with
    | nil => exact absurd (List.append_eq_nil_iff.1 hcs).1 (Piece.chars_ne_nil hp)
    | @cons q rest' qs hq hend' hrest' =>
      obtain ⟨rfl, rfl⟩ := Piece.front_unique hp hend hq hend' hcs
      rw [ih hrest']

/-! ## §6. The lexical grammar -/

/-- A text that splits gives the tokens of its pieces. -/
theorem ofChars_of_splits {cs : List Char} {ps : List Piece} (h : Splits cs ps) :
    Tokens.ofChars cs = ⟨Piece.tokens ps, none⟩ := by
  have hempty : ∀ p ∈ ps.getLast?, p.EndsBefore [] := by
    intro p _
    cases p with
    | number run => exact fun c hc => nomatch hc
    | symbol start run => exact fun c hc => nomatch hc
    | _ => trivial
  have hcut := ofChars_append_of_splits h hempty
  rw [List.append_nil] at hcut
  rw [hcut, Tokens.ofChars, Tokens.behind, List.append_nil]

/-- A part that splits gives the tokens of its pieces also in front of what is no piece. -/
theorem ofChars_of_fails {front rest : List Char} {ps : List Piece} {words : String}
    (h : Splits front ps) (hfails : Failing rest words) :
    ∃ f, Tokens.ofChars (front ++ rest) = ⟨Piece.tokens ps, some f⟩ ∧ f.message = words := by
  obtain ⟨f, hrest, hwords⟩ := ofChars_failing hfails
  refine ⟨f, ?_, hwords⟩
  rw [ofChars_append_of_splits h fun p _ => hfails.endsBefore p, hrest, Tokens.behind,
    List.append_nil]

/-- A text splits and gives the tokens of its pieces, or a part of it does in front of a fault. -/
theorem ofChars_cases (cs : List Char) :
    (∃ ps, Splits cs ps ∧ Tokens.ofChars cs = ⟨Piece.tokens ps, none⟩) ∨
      ∃ front rest ps f, cs = front ++ rest ∧ Splits front ps ∧ Failing rest f.message ∧
        Tokens.ofChars cs = ⟨Piece.tokens ps, some f⟩ := by
  rcases splits_or_fails cs with ⟨ps, hps⟩ | ⟨front, rest, ps, words, rfl, hps, hfails⟩
  · exact .inl ⟨ps, hps, ofChars_of_splits hps⟩
  · obtain ⟨f, hcut, rfl⟩ := ofChars_of_fails hps hfails
    exact .inr ⟨front, rest, ps, f, rfl, hps, hfails, hcut⟩

/-- **Cutting a text up realises the lexical grammar.**  It succeeds just when the text splits into
    pieces, which it does in one way only, and then gives their tokens; it fails just when a part of
    the text splits and no piece stands behind that, with the tokens of the part and the words for
    what stands there. -/
theorem ofText_splits (s : String) :
    (∀ ts, Tokens.ofText s = ⟨ts, none⟩ ↔
      ∃ ps, Splits s.toList ps ∧ ts = Piece.tokens ps) ∧
    (∀ ps qs, Splits s.toList ps → Splits s.toList qs → ps = qs) ∧
    ∀ ts words, (∃ f, Tokens.ofText s = ⟨ts, some f⟩ ∧ f.message = words) ↔
      ∃ front rest ps, s.toList = front ++ rest ∧ Splits front ps ∧ Failing rest words ∧
        ts = Piece.tokens ps := by
  refine ⟨fun ts => ⟨fun h => ?_, ?_⟩, fun ps qs h h' => h.unique h',
    fun ts words => ⟨fun ⟨f, h, hwords⟩ => ?_, ?_⟩⟩
  · obtain ⟨ps, hps, hcut⟩ | ⟨_, _, ps, f, -, -, -, hcut⟩ := ofChars_cases s.toList
    · exact ⟨ps, hps, congrArg Tokens.items (h.symm.trans hcut)⟩
    · exact nomatch congrArg Tokens.fault (h.symm.trans hcut)
  · rintro ⟨ps, hps, rfl⟩
    exact ofChars_of_splits hps
  · obtain ⟨ps, -, hcut⟩ | ⟨front, rest, ps, g, htext, hps, hfails, hcut⟩ :=
      ofChars_cases s.toList
    · exact nomatch congrArg Tokens.fault (h.symm.trans hcut)
    · obtain rfl : f = g := Option.some.inj (congrArg Tokens.fault (h.symm.trans hcut))
      exact ⟨front, rest, ps, htext, hps, hwords ▸ hfails,
        congrArg Tokens.items (h.symm.trans hcut)⟩
  · rintro ⟨front, rest, ps, htext, hps, hfails, rfl⟩
    rw [Tokens.ofText, htext]
    exact ofChars_of_fails hps hfails

/-- Pieces that stand as close together as they can. -/
def crowdedPieces : List Piece :=
  [.symbol 'a' ['1'], .sign '=', .string '"' ['\''], .operator '+', .number ['.', '5'],
    .symbol '_' [], .sign ';', .comment ['#', '"'], .blank ' ']

theorem crowdedPieces_cut :
    Splits "a1=\"'\"+.5_;##\"\n ".toList crowdedPieces ∧
    Tokens.ofText "a1=\"'\"+.5_;##\"\n " = ⟨Piece.tokens crowdedPieces, none⟩ ∧
    (∀ ps, Splits "a1=\"'\"+.5_;##\"\n ".toList ps → ps = crowdedPieces) ∧
    ∃ f, Tokens.ofText "a1=\"'\"+.5_;##\"\n 'b\";" = ⟨Piece.tokens crowdedPieces, some f⟩ ∧
      f.message = "Error on string!" := by
  have h : Splits "a1=\"'\"+.5_;##\"\n ".toList crowdedPieces := by decide +kernel
  refine ⟨h, ((ofText_splits _).1 _).2 ⟨_, h, rfl⟩, fun ps hps => (ofText_splits _).2.1 _ _ hps h,
    ((ofText_splits _).2.2 _ _).2 ⟨_, "'b\";".toList, _, ?_, h, .string ?_ ?_, rfl⟩⟩
  all_goals decide +kernel

end Scrawl.Grammar
