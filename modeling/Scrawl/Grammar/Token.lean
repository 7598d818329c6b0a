/-
  Scrawl.Grammar.Token — from characters to tokens.

  A text is cut into items: blanks and comments, which are dropped, and tokens.  Numbers and symbols
  run as far as they can; strings and comments run to their closing character.  Cutting stops at
  the first item that is none, and the tokens before it stand.
-/

import Scrawl.Fault
import Scrawl.Value.Basic

namespace Scrawl.Grammar

/-! ## §1. Tokens -/

/-- A token: its kind, and a value for the kinds that have one. -/
structure Token where
  /-- The text `number`, `string`, `symbol`, `operation`, or the sign itself; tokens from outside
      may be of any other kind. -/
  kind : Value
  /-- The text of the token; empty for a sign. -/
  value : Value

/-- The token of a sign that stands for itself. -/
def Token.sign (c : Char) : Token := ⟨.text (String.singleton c), .text ""⟩

/-- Tokens in order, with the fault behind them if they were cut off by one. -/
structure Tokens where
  /-- The tokens. -/
  items : List Token
  /-- The fault that cut them off. -/
  fault : Option Fault

/-- Tokens with one more in front. -/
def Tokens.cons (t : Token) (ts : Tokens) : Tokens := { ts with items := t :: ts.items }

/-! ## §2. Characters -/

/-- The characters that are skipped. -/
def isSpace (c : Char) : Bool := c == ' ' || c == '\n'

/-- The operators. -/
def isOperator (c : Char) : Bool := c == '+' || c == '-' || c == '*' || c == '/'

/-- The signs that stand for themselves. -/
def isSign (c : Char) : Bool :=
  c == '(' || c == ')' || c == '\x7b' || c == '\x7d' || c == ',' || c == ';' || c == '=' ||
    c == ':'

/-- The two quotes. -/
def isQuote (c : Char) : Bool := c == '\'' || c == '"'

/-- The characters of a number. -/
def isNumberChar (c : Char) : Bool := c == '.' || ('0' ≤ c && c ≤ '9')

/-- The characters of a symbol. -/
def isSymbolChar (c : Char) : Bool :=
  c == '_' || ('a' ≤ c && c ≤ 'z') || ('A' ≤ c && c ≤ 'Z') || ('0' ≤ c && c ≤ '9')

/-! ## §3. Items -/

/-- What stands at the front of a text. -/
inductive Item where
  /-- A blank or a comment, and the text behind it. -/
  | skipped (rest : List Char)
  /-- A token, and the text behind it. -/
  | token (t : Token) (rest : List Char)
  /-- Nothing that can stand there. -/
  | fault (f : Fault)

/-- A run of characters as the value of a token of the given kind. -/
def Token.run (kind : String) (cs : List Char) : Token := ⟨.text kind, .text (String.ofList cs)⟩

/-- The item that starts with `c` and goes on into `cs`. -/
def Item.first (c : Char) (cs : List Char) : Item :=
  if isSpace c then .skipped cs
  else if isOperator c then .token (.run "operation" [c]) cs
  else if isSign c then .token (.sign c) cs
  else if isQuote c then
    match cs.dropWhile (· != c) with
    | _ :: rest => .token (.run "string" (cs.takeWhile (· != c))) rest
    | [] => .fault .unterminated
  else if isNumberChar c then
    .token (.run "number" (c :: cs.takeWhile isNumberChar)) (cs.dropWhile isNumberChar)
  else if isSymbolChar c then
    .token (.run "symbol" (c :: cs.takeWhile isSymbolChar)) (cs.dropWhile isSymbolChar)
  else if c == '#' then
    match cs.dropWhile (· != '\n') with
    | _ :: rest => .skipped rest
    | [] => .fault .unterminated
  else .fault (.unknownCharacter c)

/-- What is left after an item. -/
def Item.rest : Item → List Char
  | .skipped rest => rest
  | .token _ rest => rest
  | .fault _ => []

/-- Dropping from the front leaves no more than there was. -/
theorem length_dropWhile_le (p : Char → Bool) (cs : List Char) :
    (cs.dropWhile p).length ≤ cs.length := by
  induction cs with
  | nil => simp
  | cons c cs ih =>
    rw [List.dropWhile_cons]
    split
    · exact Nat.le_succ_of_le ih
    · exact Nat.le_refl _

/-- An item takes at least its first character. -/
theorem Item.length_rest_le (c : Char) (cs : List Char) :
    (Item.first c cs).rest.length ≤ cs.length := by
  unfold Item.first
  split
  · exact Nat.le_refl _
  split
  · exact Nat.le_refl _
  split
  · exact Nat.le_refl _
  split
  · split
    · next h =>
      have := length_dropWhile_le (· != c) cs
      rw [h] at this
      exact Nat.le_of_succ_le this
    · exact Nat.zero_le _
  split
  · exact length_dropWhile_le _ cs
  split
  · exact length_dropWhile_le _ cs
  split
  · split
    · next h =>
      have := length_dropWhile_le (· != '\n') cs
      rw [h] at this
      exact Nat.le_of_succ_le this
    · exact Nat.zero_le _
  · exact Nat.zero_le _

/-! ## §4. Texts -/

/-- The tokens of a list of characters. -/
def Tokens.ofChars : List Char → Tokens
  | [] => ⟨[], none⟩
  | c :: cs =>
    match h : Item.first c cs with
    | .skipped rest =>
      have : rest.length ≤ cs.length := by
        have := Item.length_rest_le c cs
        rwa [h] at this
      Tokens.ofChars rest
    | .token t rest =>
      have : rest.length ≤ cs.length := by
        have := Item.length_rest_le c cs
        rwa [h] at this
      (Tokens.ofChars rest).cons t
    | .fault f => ⟨[], some f⟩
termination_by cs => cs.length
decreasing_by all_goals simp_wf; omega

/-- The tokens of a text. -/
def Tokens.ofText (s : String) : Tokens := Tokens.ofChars s.toList

end Scrawl.Grammar
