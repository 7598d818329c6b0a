/-
  Scrawl.Proofs.Decimal.Numerals — which runs of digits and points are numbers.

  Of all that a number can be written with, a run of digits and points has only the digits and the points:
  no blanks, no sign, no underscores, no exponent and no words.  So what is left of reading it is to
  look for a second point and for a digit (`readFloat?_numeral`).
-/

import Scrawl.Decimal.Reading
import Scrawl.Proofs.Grammar.Lexeme

namespace Scrawl.Decimal

open Scrawl.Grammar (isNumberChar isNumberText run_ends)
open Scrawl.Text (plainChar plain strip isBlank)

/-! ## §1. Numerals -/

/-- Whether there is a digit in a text. -/
def hasDigit (s : String) : Bool := s.toList.any isDigit

/-- The number of points in a text. -/
def points (s : String) : Nat := s.toList.count '.'

/-- The number that digits with a point among them, or without one, stand for: that of all the digits,
    divided by ten once for each character behind the point. -/
def numeralValue (s : String) : Float :=
  ofDecimal false (s.toList.filter isDigit) (-((s.toList.dropWhile (· != '.')).tail.length : Int))

/-! ## §2. Characters of numerals -/

section Characters

variable {c : Char}

/-- Digits and points are next to each other, but for the slash. -/
theorem numberChar_range (h : isNumberChar c = true) : 46 ≤ c.toNat ∧ c.toNat ≤ 57 := by
  simp only [isNumberChar, Bool.or_eq_true, beq_iff_eq, Bool.and_eq_true, decide_eq_true_eq] at h
  rcases h with rfl | ⟨hlow, hhigh⟩
  · decide
  · have hlow' : 48 ≤ c.toNat := hlow
    have hhigh' : c.toNat ≤ 57 := hhigh
    omega

theorem digit_or_point (h : isNumberChar c = true) : isDigit c = true ∨ c = '.' := by
  unfold isNumberChar at h
  rw [Bool.or_eq_true, beq_iff_eq] at h
  exact h.symm

theorem ne_of_numberChar (h : isNumberChar c = true) {d : Char} (hd : isNumberChar d = false) :
    c ≠ d := by
  rintro rfl
  rw [h] at hd
  cases hd

theorem ne_point_of_digit (h : isDigit c = true) : c ≠ '.' := by
  rintro rfl
  cases h

theorem plainChar_numberChar (h : isNumberChar c = true) : plainChar c = c := by
  have hrange := numberChar_range h
  unfold plainChar
  rw [if_pos (by omega)]

theorem not_isBlank_numberChar (h : isNumberChar c = true) : isBlank c = false := by
  have hrange := numberChar_range h
  have hspace : c ≠ ' ' := ne_of_numberChar h rfl
  simp only [isBlank, Bool.or_eq_false_iff, beq_eq_false_iff_ne, Bool.and_eq_false_iff,
    decide_eq_false_iff_not]
  exact ⟨hspace, by omega⟩

theorem toLower_numberChar (h : isNumberChar c = true) : c.toLower = c := by
  have hrange := numberChar_range h
  refine dif_neg fun hcapital => ?_
  have hlow : 65 ≤ c.toNat := hcapital.1
  omega

end Characters

/-! ## §3. What a numeral lacks -/

section Lacking

variable {cs : List Char} (h : ∀ c ∈ cs, isNumberChar c = true)
include h

theorem strip_numeral : strip cs = cs := by
  have hdrop : ∀ l : List Char, (∀ c ∈ l, isNumberChar c = true) → l.dropWhile isBlank = l := by
    intro l hl
    cases l with
    | nil => rfl
    | cons c l =>
      exact List.dropWhile_cons_of_neg
        (by rw [not_isBlank_numberChar (hl c List.mem_cons_self)]; exact Bool.false_ne_true)
  unfold strip
  rw [hdrop cs h, hdrop cs.reverse fun c hc => h c (List.mem_reverse.1 hc), List.reverse_reverse]

theorem joinGroups?_numeral (afterDigit : Bool) : joinGroups? afterDigit cs = some cs := by
  induction cs generalizing afterDigit with
  | nil => rfl
  | cons c cs ih =>
    have hc : ¬(c == '_') = true := fun heq =>
      ne_of_numberChar (h c List.mem_cons_self) rfl (eq_of_beq heq)
    rw [joinGroups?, if_neg hc, ih fun d hd => h d (List.mem_cons_of_mem c hd)]
    rfl

theorem splitSign_numeral : splitSign cs = (false, cs) := by
  unfold splitSign
  split
  · exact absurd rfl (ne_of_numberChar (h '-' List.mem_cons_self) rfl)
  · exact absurd rfl (ne_of_numberChar (h '+' List.mem_cons_self) rfl)
  · rfl

theorem word?_numeral (negative : Bool) : word? negative cs = none := by
  have hlower : cs.map Char.toLower = cs :=
    (List.map_congr_left fun c hc => toLower_numberChar (h c hc)).trans cs.map_id
  have hword : ∀ word : String, word.toList.all isNumberChar = false → String.ofList cs ≠ word := by
    rintro word hletters rfl
    rw [String.toList_ofList, List.all_eq_true.2 h] at hletters
    cases hletters
  unfold word?
  rw [hlower]
  simp [hword "inf" (by decide), hword "infinity" (by decide), hword "nan" (by decide)]

end Lacking

/-! ## §4. Digits around points -/

section Digits

variable {digits : List Char} (h : ∀ c ∈ digits, isDigit c = true)
include h

theorem run_of_digits : digits.takeWhile isDigit = digits ∧ digits.dropWhile isDigit = [] := by
  have hrun : (digits ++ []).takeWhile isDigit = digits ∧ (digits ++ []).dropWhile isDigit = [] :=
    run_ends h (by simp)
  rwa [List.append_nil] at hrun

/-- A run of digits ends at a point. -/
theorem run_before_point (rest : List Char) :
    (digits ++ '.' :: rest).takeWhile isDigit = digits ∧
      (digits ++ '.' :: rest).dropWhile isDigit = '.' :: rest := by
  refine run_ends h fun c hc => ?_
  obtain rfl : '.' = c := Option.some.inj hc
  rfl

theorem count_point_digits : digits.count '.' = 0 :=
  List.count_eq_zero.2 fun hmem => ne_point_of_digit (h _ hmem) rfl

theorem any_digits : digits.any isDigit = !digits.isEmpty := by
  cases digits with
  | nil => rfl
  | cons c digits => simp [h c List.mem_cons_self]

/-- The first point comes directly behind digits. -/
theorem dropWhile_digits (rest : List Char) (hrest : ∀ c ∈ rest.head?, c = '.') :
    (digits ++ rest).dropWhile (· != '.') = rest := by
  have hdigits : ∀ c ∈ digits, (c != '.') = true := fun c hc => bne_iff_ne.2 (ne_point_of_digit (h c hc))
  exact (run_ends hdigits fun c hc => bne_eq_false_iff_eq.2 (hrest c hc)).2

end Digits

section Points

variable {whole places more : List Char} (negative : Bool)

theorem decimal?_whole (h : ∀ c ∈ whole, isDigit c = true) (hne : whole ≠ []) :
    decimal? negative whole = some (ofDecimal negative whole 0) := by
  obtain ⟨htake, hdrop⟩ := run_of_digits h
  unfold decimal?
  simp [htake, hdrop, hne, exponent?]

variable (h : ∀ c ∈ whole, isDigit c = true) (h' : ∀ c ∈ places, isDigit c = true)
include h h'

theorem decimal?_point :
    decimal? negative (whole ++ '.' :: places)
      = if (whole ++ places).isEmpty then none
        else some (ofDecimal negative (whole ++ places) (-(places.length : Int))) := by
  obtain ⟨htake, hdrop⟩ := run_before_point h places
  obtain ⟨htake', hdrop'⟩ := run_of_digits h'
  unfold decimal?
  simp only [htake, hdrop, htake', hdrop', exponent?, Option.map_some, Int.zero_sub]

/-- Behind a second point there is no exponent. -/
theorem decimal?_points : decimal? negative (whole ++ '.' :: (places ++ '.' :: more)) = none := by
  obtain ⟨htake, hdrop⟩ := run_before_point h (places ++ '.' :: more)
  obtain ⟨htake', hdrop'⟩ := run_before_point h' more
  have hexponent : exponent? ('.' :: more) = none := rfl
  unfold decimal?
  simp only [htake, hdrop, htake', hdrop', hexponent, Option.map_none, ite_self]

end Points

/-- Up to its first point a numeral consists of digits. -/
theorem point_cases {cs : List Char} (h : ∀ c ∈ cs, isNumberChar c = true) :
    (∀ c ∈ cs, isDigit c = true) ∨
      ∃ whole rest, cs = whole ++ '.' :: rest ∧ ∀ c ∈ whole, isDigit c = true := by
  induction cs with
  | nil => exact .inl fun c hc => absurd hc List.not_mem_nil
  | cons c cs ih =>
    rcases digit_or_point (h c List.mem_cons_self) with hc | rfl
    · rcases ih fun d hd => h d (List.mem_cons_of_mem c hd) with hdigits | ⟨whole, rest, rfl, hwhole⟩
      · exact .inl (List.forall_mem_cons.2 ⟨hc, hdigits⟩)
      · exact .inr ⟨c :: whole, rest, rfl, List.forall_mem_cons.2 ⟨hc, hwhole⟩⟩
    · exact .inr ⟨[], cs, rfl, fun d hd => absurd hd List.not_mem_nil⟩

/-- What is left of reading a numeral is its digits and points. -/
theorem readFloat?_eq_decimal? {s : String} (h : ∀ c ∈ s.toList, isNumberChar c = true) :
    readFloat? s = decimal? false s.toList := by
  have hplain : plain s = s.toList := by
    unfold plain
    rw [(List.map_congr_left fun c hc => plainChar_numberChar (h c hc)).trans s.toList.map_id,
      strip_numeral h]
  unfold readFloat?
  rw [hplain, joinGroups?_numeral h]
  show (word? (splitSign s.toList).1 (splitSign s.toList).2).or
    (decimal? (splitSign s.toList).1 (splitSign s.toList).2) = _
  rw [splitSign_numeral h, word?_numeral h]
  rfl

/-- **A run of digits and points is a number exactly if there is a digit and no second point.** -/
theorem readFloat?_numeral {s : String} (hs : isNumberText s = true) :
    readFloat? s = if hasDigit s = true ∧ points s ≤ 1 then some (numeralValue s) else none := by
  obtain ⟨hne, hall⟩ := Bool.and_eq_true_iff.1 hs
  have hchars := List.all_eq_true.1 hall
  rw [readFloat?_eq_decimal? hchars]
  unfold hasDigit points numeralValue
  generalize s.toList = cs at hne hchars
  rcases point_cases hchars with hdigits | ⟨whole, rest, rfl, hwhole⟩
  · -- digits only
    have hbehind := dropWhile_digits hdigits [] (by simp)
    rw [List.append_nil] at hbehind
    have hsome : cs.any isDigit = true := (any_digits hdigits).trans hne
    have hpoints : cs.count '.' ≤ 1 := by rw [count_point_digits hdigits]; exact Nat.zero_le 1
    rw [if_pos ⟨hsome, hpoints⟩, decimal?_whole false hdigits (by simpa using hne),
      List.filter_eq_self.2 hdigits, hbehind]
    rfl
  have hrest : ∀ c ∈ rest, isNumberChar c = true := fun c hc => hchars c (by simp [hc])
  rcases point_cases hrest with hplaces | ⟨places, more, rfl, hplaces⟩
  · -- digits, a point and digits
    have hfilter : (whole ++ '.' :: rest).filter isDigit = whole ++ rest := by
      rw [List.filter_append, List.filter_cons_of_neg (by decide), List.filter_eq_self.2 hwhole,
        List.filter_eq_self.2 hplaces]
    have hany : (whole ++ '.' :: rest).any isDigit = !(whole ++ rest).isEmpty := by
      rw [List.any_append, List.any_cons, any_digits hwhole, any_digits hplaces]
      cases whole <;> rfl
    have hpoints : (whole ++ '.' :: rest).count '.' ≤ 1 := by
      have hone : (whole ++ '.' :: rest).count '.' = 1 := by
        simp [count_point_digits hwhole, count_point_digits hplaces]
      omega
    rw [decimal?_point false hwhole hplaces, hfilter, hany, dropWhile_digits hwhole _ (by simp),
      List.tail_cons]
    simp only [hpoints, and_true]
    cases (whole ++ rest).isEmpty <;> rfl
  · -- a second point
    have hpoints : ¬ (whole ++ '.' :: (places ++ '.' :: more)).count '.' ≤ 1 := by
      simp only [List.count_append, List.count_cons_self]
      omega
    rw [decimal?_points false hwhole hplaces, if_neg fun h => hpoints h.2]

end Scrawl.Decimal
