/-
  Scrawl.Proofs.Eval.Literals — numbers and strings as they are written in programs.

  A number token is any run of digits and points, and nobody looks at it again before it is evaluated.
  Then it is a number exactly if there is a digit and no second point (`eval_numeral`); strings always
  give themselves.  So whatever text is read, its literals fail in these two ways only
  (`literals_fail_in_two_ways`).
-/

import Scrawl.Proofs.Decimal.Numerals
import Scrawl.Proofs.Eval.Again
import Scrawl.Proofs.Eval.Chains
import Scrawl.Proofs.Grammar.Termination

namespace Scrawl

open Scrawl.Decimal (hasDigit points numeralValue readFloat?_numeral)
open Scrawl.Grammar (Token Tokens Tree Program Operand isNumberText)

/-! ## §1. Parts of trees -/

namespace Grammar

/-- A tree is a part of another one, or is that one. -/
inductive Tree.Part (u : Tree) : Tree → Prop
  /-- All of it. -/
  | whole : Part u u
  /-- Part of a left operand. -/
  | left {op : Value} {left : Tree} {right : Option Tree} (h : Part u left) :
      Part u (.operation op (some left) right)
  /-- Part of a right operand. -/
  | right {op : Value} {left : Option Tree} {right : Tree} (h : Part u right) :
      Part u (.operation op left (some right))
  /-- Part of a callee. -/
  | callee {callee : Tree} {args : List Tree} (h : Part u callee) : Part u (.call (some callee) args)
  /-- Part of an argument. -/
  | argument {callee : Option Tree} {args : List Tree} {t : Tree} (ht : t ∈ args) (h : Part u t) :
      Part u (.call callee args)
  /-- Part of a statement in the body of a function. -/
  | body {params : List Value} {body : List Tree} {t : Tree} (ht : t ∈ body) (h : Part u t) :
      Part u (.function params body)
  /-- Part of what is assigned. -/
  | assigned {name : Value} {value : Tree} (h : Part u value) : Part u (.assignment name (some value))

/-- The parts of a grammatical tree are grammatical. -/
theorem Tree.Grammatical.part {grade : Grade} {t u : Tree} (h : t.Grammatical grade) (hpart : u.Part t) :
    ∃ grade, u.Grammatical grade := by
  induction h with
  | number h => cases hpart; exact ⟨_, .number h⟩
  | string h => cases hpart; exact ⟨_, .string h⟩
  | symbol h => cases hpart; exact ⟨_, .symbol h⟩
  | function hparams hbody ih =>
    cases hpart with
    | whole => exact ⟨_, .function hparams hbody⟩
    | body ht hpart => exact ih _ ht hpart
  | call hcallee hargs ihcallee ihargs =>
    cases hpart with
    | whole => exact ⟨_, .call hcallee hargs⟩
    | callee hpart => exact ihcallee _ rfl hpart
    | argument ht hpart => exact ihargs _ ht hpart
  | operand _ ih => exact ih hpart
  | operation hop hleft hright ihleft ihright =>
    cases hpart with
    | whole => exact ⟨_, .operation hop hleft hright⟩
    | left hpart => exact ihleft _ rfl hpart
    | right hpart => exact ihright _ rfl hpart
  | assignment hname hvalue ih =>
    cases hpart with
    | whole => exact ⟨_, .assignment hname hvalue⟩
    | assigned hpart => exact ih _ rfl hpart

theorem Tree.Grammatical.number_text {grade : Grade} {v : Value}
    (h : (Tree.number v).Grammatical grade) : ∃ s, v = .text s ∧ isNumberText s = true := by
  cases h with
  | number h => exact ⟨_, rfl, h⟩
  | operand h => cases h with
    | number h => exact ⟨_, rfl, h⟩

theorem Tree.Grammatical.string_text {grade : Grade} {v : Value}
    (h : (Tree.string v).Grammatical grade) : ∃ s, v = .text s := by
  cases h with
  | string => exact ⟨_, rfl⟩
  | operand h => cases h with
    | string => exact ⟨_, rfl⟩

/-! ## §2. Number tokens -/

/-- The token of a number. -/
def numberToken (text : Value) : Token := ⟨.text "number", text⟩

/-- A run of digits and points is cut up into one number. -/
theorem cuts_numeral {s : String} (h : isNumberText s = true) : Cuts s [numberToken (.text s)] := by
  have hcut := ofChars_spellTokens .sparing [numberToken (.text s)] (by simpa using .number h)
  have hne : ¬ s.toList.isEmpty = true := by
    simpa using (Bool.and_eq_true_iff.1 h).1
  have hspelling : spellTokens .sparing [numberToken (.text s)] = s.toList := by
    show (if s.toList.isEmpty = true then _ else s.toList) ++ [] = s.toList
    rw [if_neg hne, List.append_nil]
  unfold Cuts Tokens.ofText
  rw [← hcut, hspelling]

/-- **The number tokens of texts are the runs of digits and points.** -/
theorem mem_ofText_number {v : Value} :
    (∃ text, numberToken v ∈ (Tokens.ofText text).items) ↔
      ∃ s, v = .text s ∧ isNumberText s = true := by
  constructor
  · rintro ⟨text, hmem⟩
    exact (leaf_grammatical (ofChars_lexical text.toList _ hmem) rfl).number_text
  · rintro ⟨s, rfl, hs⟩
    refine ⟨s, ?_⟩
    rw [cuts_numeral hs]
    exact List.mem_singleton_self _

end Grammar

/-! ## §3. Evaluating literals -/

/-- What comes of a number in digits and points, and when. -/
structure NumeralOutcome (s : String) (w : World) (r : EStateM.Result Fault World Datum) : Prop where
  /-- It succeeds if there is a digit and no second point. -/
  succeeds : (∃ d w', r = .ok d w') ↔ hasDigit s = true ∧ points s ≤ 1
  /-- Then it gives the number that is written. -/
  value : ∀ d w', r = .ok d w' → d = .plain (.number (.float (numeralValue s))) ∧ w' = w
  /-- It fails in two ways: there is no digit, or there is a second point. -/
  fails : (∃ f w', r = .error f w') ↔ hasDigit s = false ∨ 2 ≤ points s
  /-- Then the text is reported not to be a number. -/
  fault : ∀ f w', r = .error f w' → f = .badFloat s ∧ w' = w

theorem NumeralOutcome.of_ok {s : String} {w : World} (h : hasDigit s = true ∧ points s ≤ 1) :
    NumeralOutcome s w (.ok (.plain (.number (.float (numeralValue s)))) w) where
  succeeds := ⟨fun _ => h, fun _ => ⟨_, _, rfl⟩⟩
  value d w' hr := by
    cases hr
    exact ⟨rfl, rfl⟩
  fails := by
    constructor
    · rintro ⟨f, w', hr⟩
      cases hr
    · rintro (hnone | hmany)
      · rw [h.1] at hnone
        cases hnone
      · omega
  fault f w' hr := by cases hr

theorem NumeralOutcome.of_error {s : String} {w : World} (h : ¬ (hasDigit s = true ∧ points s ≤ 1)) :
    NumeralOutcome s w (.error (.badFloat s) w) where
  succeeds := by
    constructor
    · rintro ⟨d, w', hr⟩
      cases hr
    · intro hnumeral
      exact absurd hnumeral h
  value d w' hr := by cases hr
  fails := by
    refine ⟨fun _ => ?_, fun _ => ⟨_, _, rfl⟩⟩
    cases hdigit : hasDigit s with
    | false => exact .inl rfl
    | true => exact .inr (Nat.lt_of_not_le fun hpoints => h ⟨hdigit, hpoints⟩)
  fault f w' hr := by
    cases hr
    exact ⟨rfl, rfl⟩

section Evaluating

variable (rules : Rules) (depth : Nat) {room : Room} (hroom : room.holds 1 = true) (e : ScopeId) (w : World)
include hroom

/-- **A run of digits and points is evaluated to a number exactly if it has a digit and no second point.** -/
theorem eval_numeral {s : String} (hs : isNumberText s = true) :
    NumeralOutcome s w (eval rules (depth + 1) room e (Tree.number (.text s)).toValue w) := by
  have heval : eval rules (depth + 1) room e (Tree.number (.text s)).toValue
      = (do let x ← (Value.text s).toFloat
            return .plain (.number (.float x)) : Run Datum) :=
    eval_number hroom (.text s)
  rw [heval, Value.toFloat_text, readFloat?_numeral hs]
  by_cases h : hasDigit s = true ∧ points s ≤ 1
  · rw [if_pos h]
    exact .of_ok h
  · rw [if_neg h]
    exact .of_error h

/-- A string gives itself. -/
theorem eval_quoted (s : String) :
    eval rules (depth + 1) room e (Tree.string (.text s)).toValue w = .ok (.plain (.string s)) w := by
  have heval : eval rules (depth + 1) room e (Tree.string (.text s)).toValue
      = pure (.plain (.string s)) :=
    eval_string hroom s
  rw [heval]
  rfl

end Evaluating

/-! ## §4. Literals in programs -/

section Programs

variable {s : String} (hs : isNumberText s = true)

/-- A number as an operand. -/
def numeralOperand : Operand := .ofLeaf (Grammar.cuts_numeral hs) rfl

include hs

/-- With a semicolon behind it, it is not too deep to be read. -/
theorem numeral_within_reach : (Program.ofText grammarDepth (s ++ ";")).fault ≠ some .tooDeep := by
  have hcuts := (Grammar.cuts_numeral hs).sign (c := ';') rfl Grammar.cuts_empty
  rw [String.append_empty] at hcuts
  have htokens : Program.ofText grammarDepth (s ++ ";")
      = Program.ofTokens grammarDepth ⟨[Grammar.numberToken (.text s), .sign ';'], none⟩ :=
    congrArg (Program.ofTokens grammarDepth) hcuts
  rw [htokens]
  intro hdeep
  cases Grammar.ofTokens_within (show 2 < grammarDepth by decide) hdeep

/-- It is the only statement then. -/
theorem ofText_numeral : Program.ofText grammarDepth (s ++ ";") = ⟨[.number (.text s)], none⟩ :=
  (numeralOperand hs).phrase.ofText_statement (numeral_within_reach hs)

end Programs

/-- With room enough, a text of one statement is run by evaluating that. -/
theorem asStatement_of_holds {room : Room} (hroom : room.holds (2 + readingLevels) = true)
    (statement : Room → Run Datum) : asStatement room statement = statement (room.below 2) := by
  unfold asStatement
  rw [Room.descend_of_holds (Room.holds_of_le hroom (Nat.le_add_right _ _))]
  show (liftM ((room.below 2).descend readingLevels) >>= fun _ => statement (room.below 2)) = _
  rw [Room.descend_of_holds (Room.holds_below hroom (Nat.le_refl _))]
  rfl

/-- **Literals fail in two ways only.**  The number tokens that texts are cut into are the runs of digits
    and points.  Evaluated anywhere, each succeeds if and only if there is a digit and at most one point,
    and is otherwise reported to be no number; nothing else changes.  Whatever text is read, the numbers
    in its statements are such runs, and the strings in them always succeed.  And each such run, with a
    semicolon behind it, is a program that is read without a fault and ends as the run does. -/
theorem literals_fail_in_two_ways :
    -- tokens
    (∀ v, (∃ text, Grammar.numberToken v ∈ (Tokens.ofText text).items) ↔
      ∃ s, v = .text s ∧ isNumberText s = true) ∧
    -- evaluation
    (∀ s, isNumberText s = true → ∀ rules depth room e w, room.holds 1 = true →
      NumeralOutcome s w (eval rules (depth + 1) room e (Tree.number (.text s)).toValue w)) ∧
    -- any program
    (∀ text depth, ∀ statement ∈ (Program.ofText depth text).statements,
      (∀ v, (Tree.number v).Part statement → ∃ s, v = .text s ∧ isNumberText s = true ∧
        ∀ rules depth room e w, room.holds 1 = true →
          NumeralOutcome s w (eval rules (depth + 1) room e (Tree.number v).toValue w)) ∧
      ∀ v, (Tree.string v).Part statement → ∃ s, v = .text s ∧
        ∀ rules depth room e w, room.holds 1 = true →
          eval rules (depth + 1) room e (Tree.string v).toValue w = .ok (.plain (.string s)) w) ∧
    -- the program that is just the number
    ∀ s, isNumberText s = true →
      Program.ofText grammarDepth (s ++ ";") = ⟨[.number (.text s)], none⟩ ∧
      ∀ rules depth room e w, room.holds (2 + readingLevels) = true →
        NumeralOutcome s w (runText (eval rules (depth + 1)) room e (s ++ ";") w) := by
  refine ⟨fun v => Grammar.mem_ofText_number, fun s hs rules depth room e w hroom => ?_,
    fun text depth statement hstatement => ⟨fun v hpart => ?_, fun v hpart => ?_⟩,
    fun s hs => ⟨ofText_numeral hs, fun rules depth room e w hroom => ?_⟩⟩
  · exact eval_numeral rules depth hroom e w hs
  · obtain ⟨grade, hv⟩ := (Grammar.ofText_grammatical depth text statement hstatement).part hpart
    obtain ⟨s, rfl, hs⟩ := hv.number_text
    exact ⟨s, rfl, hs, fun rules depth room e w hroom => eval_numeral rules depth hroom e w hs⟩
  · obtain ⟨grade, hv⟩ := (Grammar.ofText_grammatical depth text statement hstatement).part hpart
    obtain ⟨s, rfl⟩ := hv.string_text
    exact ⟨s, rfl, fun rules depth room e w hroom => eval_quoted rules depth hroom e w s⟩
  · have hrun : runText (eval rules (depth + 1)) room e (s ++ ";")
        = asStatement room fun room => eval rules (depth + 1) room e (Tree.number (.text s)).toValue :=
      runText_phrase _ room e (numeralOperand hs).phrase rfl (numeral_within_reach hs)
    rw [hrun, asStatement_of_holds hroom]
    exact eval_numeral rules depth (Room.holds_below hroom (by decide)) e w hs

/-- A point by itself and two points fail, and a point in front of a digit does not. -/
theorem points_evaluated :
    (∃ f w, eval .standard 1 .unlimited 0 (Tree.number (.text ".")).toValue default = .error f w) ∧
      (∃ f w, runText (eval .standard 1) .unlimited 0 ("1.2." ++ ";") default = .error f w) ∧
      ∃ d w, runText (eval .standard 1) .unlimited 0 (".5" ++ ";") default = .ok d w := by
  obtain ⟨-, heval, -, hrun⟩ := literals_fail_in_two_ways
  refine ⟨(heval "." rfl .standard 0 .unlimited 0 default rfl).fails.2 (.inl rfl), ?_, ?_⟩
  · exact ((hrun "1.2." rfl).2 .standard 0 .unlimited 0 default rfl).fails.2 (.inr (by decide))
  · exact ((hrun ".5" rfl).2 .standard 0 .unlimited 0 default rfl).succeeds.2 ⟨rfl, by decide⟩

end Scrawl
