/-
  Scrawl.Proofs.Grammar.Survey — going over tokens once, without building trees.

  A SURVEY passes the tokens of a program one by one and only remembers what stands directly in front of
  the next one, which brackets are open, and the marks of what has been read: its numbers, strings,
  symbols and operators, and the gaps where an operand is missing.  What a brace finds in front of it
  in its own expression is dropped.  The survey says for every text how reading it ends; that the
  parser ends in just that way is shown in `Scrawl.Proofs.Grammar.Surveyed`.
-/

import Scrawl.Proofs.Grammar.RoundTrip

namespace Scrawl.Grammar

/-! ## §1. Marks -/

/-- What can be read off a tree. -/
inductive Mark where
  /-- A number, a string, a symbol or an operator. -/
  | token (t : Token)
  /-- An operand, a callee or an assigned expression is missing. -/
  | gap

/-- The token that a mark is. -/
def Mark.token? : Mark → Option Token
  | .token t => some t
  | .gap => none

mutual

/-- The marks of a tree, from left to right. -/
def Tree.marks : Tree → List Mark
  | .number text => [.token ⟨.text "number", text⟩]
  | .string text => [.token ⟨.text "string", text⟩]
  | .symbol name => [.token (nameToken name)]
  | .operation op left right =>
    Tree.optionMarks left ++ .token ⟨.text "operation", op⟩ :: Tree.optionMarks right
  | .call callee args => Tree.optionMarks callee ++ Tree.listMarks args
  | .function params body => params.map (fun p => .token (nameToken p)) ++ Tree.listMarks body
  | .assignment name value => .token (nameToken name) :: Tree.optionMarks value

/-- The marks of a tree that may be missing. -/
def Tree.optionMarks : Option Tree → List Mark
  | none => [.gap]
  | some t => t.marks

/-- The marks of several trees. -/
def Tree.listMarks : List Tree → List Mark
  | [] => []
  | t :: rest => t.marks ++ Tree.listMarks rest

end

theorem listMarks_append (trees others : List Tree) :
    Tree.listMarks (trees ++ others) = Tree.listMarks trees ++ Tree.listMarks others := by
  induction trees with
  | nil => rfl
  | cons t trees ih => simp [Tree.listMarks, ih]

theorem listMarks_symbols (names : List Value) :
    Tree.listMarks (names.map .symbol) = names.map fun p => .token (nameToken p) := by
  induction names with
  | nil => rfl
  | cons name names ih => simp [Tree.listMarks, Tree.marks, ih]

/-- The numbers, strings, symbols and operators of trees, from left to right. -/
def readOff (trees : List Tree) : List Token := (Tree.listMarks trees).filterMap Mark.token?

/-- Nothing is missing in a tree. -/
inductive Tree.Complete : Tree → Prop
  /-- A number. -/
  | number (text : Value) : Complete (.number text)
  /-- A string. -/
  | string (text : Value) : Complete (.string text)
  /-- A symbol. -/
  | symbol (name : Value) : Complete (.symbol name)
  /-- An operator between two operands. -/
  | operation {left right : Tree} (op : Value) (hleft : Complete left) (hright : Complete right) :
      Complete (.operation op (some left) (some right))
  /-- A call of something. -/
  | call {callee : Tree} {args : List Tree} (hcallee : Complete callee)
      (hargs : ∀ t ∈ args, Complete t) : Complete (.call (some callee) args)
  /-- A function. -/
  | function {body : List Tree} (params : List Value) (hbody : ∀ t ∈ body, Complete t) :
      Complete (.function params body)
  /-- An assignment of something. -/
  | assignment {value : Tree} (name : Value) (hvalue : Complete value) :
      Complete (.assignment name (some value))

theorem gap_mem_listMarks {trees : List Tree} :
    Mark.gap ∈ Tree.listMarks trees ↔ ∃ t ∈ trees, Mark.gap ∈ t.marks := by
  induction trees with
  | nil => simp [Tree.listMarks]
  | cons t trees ih => simp [Tree.listMarks, ih]

theorem Tree.Complete.gapless {t : Tree} (h : t.Complete) : Mark.gap ∉ t.marks := by
  induction h with
  | number text => simp [Tree.marks]
  | string text => simp [Tree.marks]
  | symbol name => simp [Tree.marks]
  | operation op _ _ ihleft ihright => simp [Tree.marks, Tree.optionMarks, ihleft, ihright]
  | call _ _ ihcallee ihargs =>
    simp only [Tree.marks, Tree.optionMarks, List.mem_append, gap_mem_listMarks, not_or, not_exists,
      not_and]
    exact ⟨ihcallee, ihargs⟩
  | function params _ ihbody =>
    simp only [Tree.marks, List.mem_append, List.mem_map, gap_mem_listMarks, not_or, not_exists,
      not_and]
    exact ⟨fun p _ => Mark.noConfusion, ihbody⟩
  | assignment name _ ih => simp [Tree.marks, Tree.optionMarks, ih]

mutual

theorem Tree.complete_of_gapless : (t : Tree) → Mark.gap ∉ t.marks → t.Complete
  | .number text, _ => .number text
  | .string text, _ => .string text
  | .symbol name, _ => .symbol name
  | .operation op none right, h => absurd (by simp [Tree.marks, Tree.optionMarks]) h
  | .operation op (some left) none, h => absurd (by simp [Tree.marks, Tree.optionMarks]) h
  | .operation op (some left) (some right), h =>
    .operation op (Tree.complete_of_gapless left fun hl => h (by simp [Tree.marks, Tree.optionMarks, hl]))
      (Tree.complete_of_gapless right fun hr => h (by simp [Tree.marks, Tree.optionMarks, hr]))
  | .call none args, h => absurd (by simp [Tree.marks, Tree.optionMarks]) h
  | .call (some callee) args, h =>
    .call (Tree.complete_of_gapless callee fun hc => h (by simp [Tree.marks, Tree.optionMarks, hc]))
      (Tree.complete_of_gapless_list args fun ha => h (by simp [Tree.marks, ha]))
  | .function params body, h =>
    .function params (Tree.complete_of_gapless_list body fun hb => h (by simp [Tree.marks, hb]))
  | .assignment name none, h => absurd (by simp [Tree.marks, Tree.optionMarks]) h
  | .assignment name (some value), h =>
    .assignment name (Tree.complete_of_gapless value fun hv =>
      h (by simp [Tree.marks, Tree.optionMarks, hv]))

theorem Tree.complete_of_gapless_list :
    (trees : List Tree) → Mark.gap ∉ Tree.listMarks trees → ∀ t ∈ trees, t.Complete
  | [], _ => fun _ ht => absurd ht List.not_mem_nil
  | t :: trees, h =>
    List.forall_mem_cons.2
      ⟨Tree.complete_of_gapless t fun ht => h (by simp [Tree.listMarks, ht]),
        Tree.complete_of_gapless_list trees fun hrest => h (by simp [Tree.listMarks, hrest])⟩

end

/-- Nothing is missing in trees exactly if their marks have no gap. -/
theorem complete_iff_gapless (trees : List Tree) :
    (∀ t ∈ trees, t.Complete) ↔ Mark.gap ∉ Tree.listMarks trees := by
  refine ⟨fun h hgap => ?_, Tree.complete_of_gapless_list trees⟩
  obtain ⟨t, ht, hgap⟩ := gap_mem_listMarks.1 hgap
  exact (h t ht).gapless hgap

/-! ## §2. Surveys -/

/-- What stands directly in front of the next token. -/
inductive Front where
  /-- Nothing of an expression. -/
  | start
  /-- An operator or an equals sign: something is due. -/
  | due
  /-- A symbol, which can be assigned to. -/
  | name
  /-- Any other operand. -/
  | operand
  /-- The opening brace of a function. -/
  | head
  /-- The colon of a function. -/
  | colon
  deriving Repr, DecidableEq

/-- Whether nothing of an operand has been read. -/
def Front.isBare : Front → Bool
  | .start | .due | .head => true
  | .name | .operand | .colon => false

/-- What a bracket has been opened for. -/
inductive Bracket where
  /-- The arguments of a call. -/
  | arguments
  /-- The parameters of a function, and whether only symbols have been found among them. -/
  | parameters (plain : Bool)
  /-- The body of a function. -/
  | body
  deriving Repr, DecidableEq

/-- What separates the items in a bracket. -/
def Bracket.separator : Bracket → String
  | .arguments | .parameters _ => ","
  | .body => ";"

/-- What closes a bracket. -/
def Bracket.closing : Bracket → String
  | .arguments | .parameters _ => ")"
  | .body => "\x7d"

/-- The bracket when something other than a symbol has been found directly in it. -/
def Bracket.spoiled : Bracket → Bracket
  | .parameters _ => .parameters false
  | b => b

/-- What has been found out about the tokens passed so far. -/
structure Survey where
  /-- What stands in front of the next token. -/
  front : Front
  /-- The open brackets, innermost first, and how many marks stand in front of the operand that each is
      part of. -/
  opened : List (Bracket × Nat)
  /-- The marks of what has been read and not been dropped. -/
  kept : List Mark
  /-- How many of these stand in front of the operand that is being read. -/
  settled : Nat
  /-- The marks of what has been dropped. -/
  dropped : List Mark
  /-- The marks of the finished statements. -/
  finished : List Mark

namespace Survey

/-- In front of all tokens. -/
def start : Survey :=
  { front := .start, opened := [], kept := [], settled := 0, dropped := [], finished := [] }

/-- Where an expression would end in some open brackets. -/
def stopIn : List (Bracket × Nat) → Stop
  | [] => .statement
  | (b, _) :: _ => .item b.separator b.closing

/-- Notes that something other than a symbol stands directly in the innermost bracket. -/
def spoil : List (Bracket × Nat) → List (Bracket × Nat)
  | [] => []
  | (b, n) :: outer => (b.spoiled, n) :: outer

/-- Marks the gap where an operand is missing in front of an operator or a bracket. -/
def filled (s : Survey) : List Mark := if s.front.isBare then s.kept ++ [.gap] else s.kept

/-- Marks the gap where an operand is missing at the end of an expression. -/
def closed (s : Survey) : List Mark := if s.front = .due then s.kept ++ [.gap] else s.kept

/-- Passes a token that is an operand by itself. -/
def take (s : Survey) (t : Token) : Survey :=
  if t.kind.isText "symbol" then { s with front := .name, kept := s.kept ++ [.token t] }
  else { s with front := .operand, opened := spoil s.opened, kept := s.kept ++ [.token t] }

/-- Passes an operator or an equals sign, in front of which there are given marks. -/
def owe (s : Survey) (marks : List Mark) : Survey :=
  { s with front := .due, opened := spoil s.opened, kept := marks, settled := marks.length }

/-- Passes an opening bracket, in front of which there are given marks. -/
def enter (s : Survey) (b : Bracket) (front : Front) (marks : List Mark) : Survey :=
  { s with front, opened := (b, s.settled) :: spoil s.opened, kept := marks, settled := marks.length }

/-- Drops what has been read of an operand. -/
def drop (s : Survey) : Survey :=
  { s with kept := s.kept.take s.settled, dropped := s.dropped ++ s.kept.drop s.settled }

/-- Goes on behind the end of an expression, to whatever follows in some open brackets. -/
def next (s : Survey) (opened : List (Bracket × Nat)) : Survey :=
  { s with front := .start, opened, kept := s.closed, settled := s.closed.length }

/-- Passes a token that ends an expression: a separator, the end of a statement, or what closes a
    bracket.  A parameter list is only closed if it holds nothing but symbols. -/
def finish (s : Survey) (t : Token) : Option Survey :=
  match s.opened with
  | [] => some { s.next [] with finished := s.closed }
  | (b, n) :: outer =>
    if t.kind.isText b.closing then
      match b with
      | .parameters plain => if plain then some (s.next outer) else none
      | _ => some { s with front := .operand, opened := outer, kept := s.closed, settled := n }
    else some (s.next s.opened)

/-- Passes a token that does not end an expression, if it can stand here. -/
def proceed (s : Survey) (t : Token) : Option Survey :=
  if (leaf? t).isSome then if s.front.isBare then some (s.take t) else none
  else if t.kind.isText "operation" then some (s.owe (s.filled ++ [.token t]))
  else if t.kind.isText "(" then some (s.enter .arguments .start s.filled)
  else if t.kind.isText "\x7b" then some (s.drop.enter .body .head s.drop.kept)
  else if t.kind.isText "=" then if s.front = .name then some (s.owe s.kept) else none
  else none

/-- Passes a token of an expression, if it can stand here. -/
def goOn (s : Survey) (t : Token) : Option Survey :=
  match (stopIn s.opened).endsAt t.kind with
  | .ok true => s.finish t
  | .ok false => s.proceed t
  | .error _ => none

/-- Passes a token, if it can stand here.  A parameter list is announced by a colon. -/
def pass (s : Survey) (t : Token) : Option Survey :=
  match s.front with
  | .colon =>
    if t.kind.isText "(" then some (s.enter (.parameters true) .start s.kept) else none
  | .head => if t.kind.isText ":" then some { s with front := .colon } else s.goOn t
  | _ => s.goOn t

end Survey

/-! ## §3. How reading ends -/

/-- How the reading of tokens ends. -/
inductive Verdict where
  /-- All of them are read. -/
  | accepted
  /-- A syntax error is reported. -/
  | refused
  /-- What is not there is taken for a token or an expression. -/
  | stumbled
  deriving Repr, DecidableEq

namespace Survey

/-- How reading ends where the tokens do.  Directly behind the opening brace or the colon of a
    function a token is looked at that is not there. -/
def verdict (s : Survey) : Verdict :=
  match s.front, s.opened with
  | .start, [] => .accepted
  | .head, _ | .colon, _ => .stumbled
  | _, _ => .refused

/-- Whether a token that cannot stand here is an assignment to what is not there. -/
def trips (s : Survey) (t : Token) : Bool := t.kind.isText "=" && s.front.isBare

/-- Goes over tokens as far as they can be passed.  If a fault stands behind them, it comes to light with
    the last one. -/
def run (ending : Option Fault) : Survey → List Token → Verdict × Survey
  | s, [] => (if ending.isSome then .refused else s.verdict, s)
  | s, t :: rest =>
    match s.pass t with
    | some s' => s'.run ending rest
    | none =>
      (if s.trips t && !(rest.isEmpty && ending.isSome) then .stumbled else .refused, s)

end Survey

end Scrawl.Grammar
