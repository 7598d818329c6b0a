/-
  Scrawl.Proofs.Grammar.Comments — comments.

  A comment can stand wherever a token can start.  Together with the newline behind it it is a piece
  of its own, and so is that newline alone, so with or without the comment the tokens are the same.  At the
  end of a text there is no newline: the comment is then taken for a string without its end.
-/

import Scrawl.Proofs.Grammar.Split

namespace Scrawl.Grammar

/-! ## §1. Pieces without a token -/

/-- A piece without a token is skipped. -/
theorem ofChars_tokenless {p : Piece} (hp : p.WellFormed) (htoken : p.token? = none)
    {rest : List Char} (hend : p.EndsBefore rest) :
    Tokens.ofChars (p.chars ++ rest) = Tokens.ofChars rest := by
  have hnone : Piece.tokens [p] = [] := List.filterMap_cons_none htoken
  rw [ofChars_piece hp hend, hnone]
  rfl

/-- A comment and the newline behind it give the tokens of what follows them. -/
theorem ofChars_comment {comment : List Char} (h : '\n' ∉ comment) (after : List Char) :
    Tokens.ofChars ('#' :: (comment ++ '\n' :: after)) = Tokens.ofChars after := by
  have hskipped : Tokens.ofChars ((Piece.comment comment).chars ++ after) = Tokens.ofChars after :=
    ofChars_tokenless (p := .comment comment) h rfl trivial
  simpa [Piece.chars] using hskipped

/-- A newline gives the tokens of what follows it. -/
theorem ofChars_newline (after : List Char) :
    Tokens.ofChars ('\n' :: after) = Tokens.ofChars after :=
  ofChars_tokenless (p := .blank '\n') (by simp [Piece.WellFormed]) rfl trivial

/-! ## §2. Behind a text -/

/-- Behind a text without a fault, what starts with a character of no number and no symbol is cut
    up as if it stood alone. -/
theorem ofChars_append_plain {front : List Char} (hfront : (Tokens.ofChars front).fault = none)
    {c : Char} (hnumber : isNumberChar c = false) (hsymbol : isSymbolChar c = false)
    (rest : List Char) :
    Tokens.ofChars (front ++ c :: rest)
      = (Tokens.ofChars (c :: rest)).behind (Tokens.ofChars front).items := by
  obtain ⟨ps, hps, htokens⟩ | ⟨_, _, _, f, -, -, -, htokens⟩ := ofChars_cases front
  · rw [htokens, ofChars_append_of_splits hps fun p _ => p.endsBefore_cons hnumber hsymbol rest]
  · rw [htokens] at hfront
    exact nomatch hfront

/-- **Comments at the end of a line are ignored, and at the end of a text they are faults.**  Behind any
    text that is cut up without a fault, a comment in front of a newline changes nothing, whatever
    follows.  A comment that nothing follows leaves the tokens in front of it, but as a string
    without its end. -/
theorem comment_ignored_in_line {before comment : String}
    (hbefore : (Tokens.ofText before).fault = none) (hcomment : '\n' ∉ comment.toList) :
    (∀ after : String, Tokens.ofText (before ++ "#" ++ comment ++ "\n" ++ after)
      = Tokens.ofText (before ++ "\n" ++ after)) ∧
    Tokens.ofText (before ++ "#" ++ comment)
      = ⟨(Tokens.ofText before).items, some .unterminated⟩ := by
  have hplain : isNumberChar '#' = false ∧ isSymbolChar '#' = false := ⟨rfl, rfl⟩
  have hnewline : isNumberChar '\n' = false ∧ isSymbolChar '\n' = false := ⟨rfl, rfl⟩
  constructor
  · intro after
    have hwith : (before ++ "#" ++ comment ++ "\n" ++ after).toList
        = before.toList ++ '#' :: (comment.toList ++ '\n' :: after.toList) := by simp
    have hwithout : (before ++ "\n" ++ after).toList = before.toList ++ '\n' :: after.toList := by
      simp
    rw [Tokens.ofText, hwith, ofChars_append_plain hbefore hplain.1 hplain.2,
      ofChars_comment hcomment, Tokens.ofText, hwithout,
      ofChars_append_plain hbefore hnewline.1 hnewline.2, ofChars_newline]
  · have hwith : (before ++ "#" ++ comment).toList = before.toList ++ '#' :: comment.toList := by
      simp
    have hopen : Tokens.ofChars ('#' :: comment.toList) = ⟨[], some .unterminated⟩ := by
      refine ofChars_fault ?_
      simp only [Item.first, run_open hcomment]
      rfl
    rw [Tokens.ofText, hwith, ofChars_append_plain hbefore hplain.1 hplain.2, hopen, Tokens.behind,
      List.append_nil]
    rfl

/-- A comment full of quotes behind a number, in front of a string without its end. -/
theorem comment_behind_number :
    (Tokens.ofText "x = 1").fault = none ∧ '\n' ∉ "'#\" @".toList ∧
      Tokens.ofText ("x = 1" ++ "#" ++ "'#\" @" ++ "\n" ++ ".5; 'y")
        = Tokens.ofText ("x = 1" ++ "\n" ++ ".5; 'y") ∧
      Tokens.ofText ("x = 1" ++ "#" ++ "'#\" @")
        = ⟨(Tokens.ofText "x = 1").items, some .unterminated⟩ := by
  have hbefore : (Tokens.ofText "x = 1").fault = none := by decide +kernel
  have hcomment : '\n' ∉ "'#\" @".toList := by decide +kernel
  have hignored := comment_ignored_in_line hbefore hcomment
  exact ⟨hbefore, hcomment, hignored.1 ".5; 'y", hignored.2⟩

/-- **A comment at the end of a text is not ignored.** -/
theorem last_comment_not_ignored :
    (Tokens.ofText "x;").fault = none ∧ '\n' ∉ "c".toList ∧
      Tokens.ofText ("x;" ++ "#" ++ "c") ≠ Tokens.ofText "x;" := by
  have hbefore : (Tokens.ofText "x;").fault = none := by decide +kernel
  have hwith : (Tokens.ofText ("x;" ++ "#" ++ "c")).fault = some .unterminated := by decide +kernel
  refine ⟨hbefore, by decide +kernel, fun hsame => ?_⟩
  rw [hsame, hbefore] at hwith
  exact nomatch hwith

end Scrawl.Grammar
