/-
  Scrawl.Grammar.Parser — from tokens to statements.

  An expression is read from the left with what has been read so far at hand, until a token that
  ends it.  Operators take everything to their right as their second operand.  One token is always
  looked at ahead of time, so a fault in the text comes to light when the token before it is
  passed, and the statements completed by then stand.

  The parser is written as one layer over a parser for everything deeper; `expression` stacks as
  many layers as the depth allows.
-/

import Scrawl.Grammar.Token
import Scrawl.Grammar.Tree
import Scrawl.Value.Display

namespace Scrawl.Grammar

/-! ## §1. Looking ahead -/

/-- Where an expression ends. -/
inductive Stop where
  /-- A statement ends at a semicolon, or at a token of the empty kind. -/
  | statement
  /-- An item of a list ends at the separator or at the closing sign. -/
  | item (separator close : String)
  deriving Repr, DecidableEq

/-- Whether a token of a given kind ends an expression.  For a statement the kind is looked for in
    the text of the semicolon, so it has to be a text. -/
def Stop.endsAt (stop : Stop) (kind : Value) : Except Fault Bool :=
  match stop, kind with
  | .statement, .text s => .ok (s == ";" || s == "")
  | .statement, kind => .error (.notPartOfText kind.kind)
  | .item separator close, kind => .ok (kind.isText separator || kind.isText close)

/-- Passes the next token; looking at the one behind it brings the fault that stands there to
    light. -/
def advance (ending : Option Fault) : List Token → Except Fault (List Token)
  | [] => .ok []
  | _ :: rest =>
    match rest, ending with
    | [], some f => .error f
    | rest, _ => .ok rest

/-- The next token, where there must be one. -/
def expect (expected : String) : List Token → Except Fault Token
  | [] => .error (.endOfInput expected)
  | t :: _ => .ok t

/-- The next token, where nobody has checked that there is one. -/
def glance : List Token → Except Fault Token
  | [] => .error (.notIndexable (Value.kind .nil))
  | t :: _ => .ok t

/-! ## §2. Lists of expressions -/

/-- A parser of expressions: the tokens that end one, what has been read so far, and the tokens
    that follow; it gives the expression, if there is one, and the tokens from its end on. -/
abbrev ExpressionParser :=
  Stop → Option Tree → List Token → Except Fault (Option Tree × List Token)

/-- Items up to and including the closing sign, at most `fuel` of them; empty ones are dropped. -/
def items (ending : Option Fault) (inner : ExpressionParser) (separator close : String) :
    (fuel : Nat) → List Token → Except Fault (List Tree × List Token)
  | 0, _ => .error .tooDeep
  | fuel + 1, tokens => do
    let (item, tokens) ← inner (Stop.item separator close) none tokens
    let stop ← glance tokens
    let tokens ← advance ending tokens
    let _ ← expect close tokens
    if stop.kind.isText close then return (item.toList, tokens)
    let (more, tokens) ← items ending inner separator close fuel tokens
    return (item.toList ++ more, tokens)

/-- A list of expressions with its closing sign, which may follow at once. -/
def group (ending : Option Fault) (inner : ExpressionParser) (separator close : String)
    (tokens : List Token) : Except Fault (List Tree × List Token) := do
  let first ← expect close tokens
  if first.kind.isText close then return ([], ← advance ending tokens)
  items ending inner separator close tokens.length tokens

/-- The name that a parameter is. -/
def parameterName : Tree → Except Fault Value
  | .symbol name => .ok name
  | t => .error (.badParameter (t.toValue.plainText ""))

/-- The parameter list of a function: none, or a colon and names in brackets. -/
def parameters (ending : Option Fault) (inner : ExpressionParser) (tokens : List Token) :
    Except Fault (List Value × List Token) := do
  let first ← glance tokens
  if !first.kind.isText ":" then return ([], tokens)
  let tokens ← advance ending tokens
  let second ← glance tokens
  if !second.kind.isText "(" then throw .noParameterList
  let tokens ← advance ending tokens
  let (trees, tokens) ← group ending inner "," ")" tokens
  return (← trees.mapM parameterName, tokens)

/-! ## §3. Expressions -/

/-- The tree of a token that is an expression by itself. -/
def leaf? (t : Token) : Option Tree :=
  match t.kind with
  | .text "number" => some (.number t.value)
  | .text "string" => some (.string t.value)
  | .text "symbol" => some (.symbol t.value)
  | _ => none

/-- The name that an assignment to what has been read so far would set. -/
def targetName : Option Tree → Except Fault Value
  | none => .error (.notIndexable (Value.kind .nil))
  | some (.symbol name) => .ok name
  | some _ => .error .badTarget

/-- Goes on behind a token that has just been passed. -/
def continueWith (ending : Option Fault) (inner : ExpressionParser) (stop : Stop)
    (previous : Option Tree) (t : Token) (tokens : List Token) :
    Except Fault (Option Tree × List Token) := do
  if t.kind.isText "operation" then
    let (right, tokens) ← inner stop none tokens
    inner stop (some (.operation t.value previous right)) tokens
  else if t.kind.isText "(" then
    let (args, tokens) ← group ending inner "," ")" tokens
    inner stop (some (.call previous args)) tokens
  else if t.kind.isText "\x7b" then
    let (params, tokens) ← parameters ending inner tokens
    let (body, tokens) ← group ending inner ";" "\x7d" tokens
    inner stop (some (.function params body)) tokens
  else if t.kind.isText "=" then
    let name ← targetName previous
    let (value, tokens) ← inner stop none tokens
    inner stop (some (.assignment name value)) tokens
  else throw (.unexpectedToken (t.kind.plainText ""))

/-- One layer of the parser: a single token, over a parser for all that comes after it. -/
def expressionLayer (ending : Option Fault) (inner : ExpressionParser) : ExpressionParser :=
  fun stop previous tokens => do
    let t ← expect ";" tokens
    if ← stop.endsAt t.kind then return (previous, tokens)
    let tokens ← advance ending tokens
    match previous, leaf? t with
    | none, some leaf => inner stop (some leaf) tokens
    | _, _ => continueWith ending inner stop previous t tokens

/-- The parser that goes at most `depth` layers deep. -/
def expression (ending : Option Fault) : (depth : Nat) → ExpressionParser
  | 0, _, _, _ => .error .tooDeep
  | depth + 1, stop, previous, tokens =>
    expressionLayer ending (expression ending depth) stop previous tokens

/-! ## §4. Programs -/

/-- The statements of a program, with the fault behind them if they were cut off by one. -/
structure Program where
  /-- The statements. -/
  statements : List Tree
  /-- The fault that cut them off. -/
  fault : Option Fault

/-- Statements up to the end of the tokens, at most `fuel` of them; empty ones are dropped. -/
def Program.ofList (ending : Option Fault) (depth : Nat) : (fuel : Nat) → List Token → Program
  | 0, _ => ⟨[], none⟩
  | _, [] => ⟨[], none⟩
  | fuel + 1, tokens =>
    match expression ending depth Stop.statement none tokens with
    | .error f => ⟨[], some f⟩
    | .ok (statement, tokens) =>
      match advance ending tokens with
      | .error f => ⟨statement.toList, some f⟩
      | .ok tokens =>
        let rest := Program.ofList ending depth fuel tokens
        ⟨statement.toList ++ rest.statements, rest.fault⟩

/-- The program that tokens make up. -/
def Program.ofTokens (depth : Nat) (ts : Tokens) : Program :=
  match ts.items with
  | [] => ⟨[], ts.fault⟩
  | items => Program.ofList ts.fault depth items.length items

/-- The program that a text makes up. -/
def Program.ofText (depth : Nat) (s : String) : Program :=
  Program.ofTokens depth (Tokens.ofText s)

/-- The nodes of a program's statements. -/
def Program.nodes (p : Program) : List Value :=
  Tree.listToValues p.statements

end Scrawl.Grammar
