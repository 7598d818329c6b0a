/-
  Scrawl.Proofs.Decimal.Rounding — which whole numbers are too large for a floating point number.

  The largest finite number is `2 ^ 1024 - 2 ^ 971`.  A whole number is rounded down to it as long as it
  lies less than half a step, `2 ^ 970`, above it (`ofInt?_eq_none`).
-/

import Mathlib.Tactic.Ring
import Scrawl.Decimal.Binary64

namespace Scrawl.Decimal

/-! ## §1. Rounding a quotient -/

theorem div_le_roundDiv (num den : Nat) : num / den ≤ roundDiv num den := by
  unfold roundDiv
  dsimp only
  split <;> omega

theorem roundDiv_le (num den : Nat) : roundDiv num den ≤ num / den + 1 := by
  unfold roundDiv
  dsimp only
  split <;> omega

/-- A quotient is rounded to less than an even number as long as it is less than that by more than a
    half. -/
theorem roundDiv_lt_iff {num den bound : Nat} (hden : 0 < den) (heven : bound % 2 = 0) :
    roundDiv num den < bound ↔ 2 * num + den < 2 * (bound * den) := by
  have hdiv : num / den * den + num % den = num := Nat.div_add_mod' num den
  have hrest : num % den < den := Nat.mod_lt num hden
  have hlow := div_le_roundDiv num den
  have hhigh := roundDiv_le num den
  rcases Nat.lt_trichotomy (num / den + 1) bound with hlt | heq | hgt
  · have hmul : (num / den + 1 + 1) * den ≤ bound * den := Nat.mul_le_mul_right den hlt
    rw [Nat.add_mul, Nat.add_mul, Nat.one_mul] at hmul
    omega
  · -- just below the even number the whole part is odd, so a half is rounded up
    subst heq
    rw [Nat.add_mul, Nat.one_mul]
    have hodd : (num / den % 2 == 0) = false := by
      rw [beq_eq_false_iff_ne]
      omega
    unfold roundDiv
    simp only [hodd, Bool.and_false, Bool.or_false, decide_eq_true_eq]
    split <;> omega
  · have hmul : bound * den ≤ num / den * den := Nat.mul_le_mul_right den (Nat.lt_succ_iff.1 hgt)
    omega

section Bits

variable {n l fine step : Nat}

/-- A number below a power of two is rounded to `2 ^ 53` at most, if its 53 leading bits are kept. -/
theorem roundDiv_le_of_lt (hn : n < 2 ^ (l + 1)) (hstep : l + 1 + fine = step + 53) :
    roundDiv (n * 2 ^ fine) (2 ^ step) ≤ 2 ^ 53 := by
  have hnum : n * 2 ^ fine < 2 ^ step * 2 ^ 53 := by
    rw [← Nat.pow_add, ← hstep, Nat.pow_add 2 (l + 1) fine]
    exact Nat.mul_lt_mul_of_pos_right hn (Nat.two_pow_pos fine)
  have hbits := Nat.div_lt_of_lt_mul hnum
  exact Nat.le_trans (roundDiv_le _ _) hbits

/-- A number from a power of two on is rounded to `2 ^ 52` at least. -/
theorem le_roundDiv_of_le (hn : 2 ^ l ≤ n) (hstep : l + fine = 52 + step) :
    2 ^ 52 ≤ roundDiv (n * 2 ^ fine) (2 ^ step) := by
  have hnum : 2 ^ 52 * 2 ^ step ≤ n * 2 ^ fine := by
    rw [← Nat.pow_add, ← hstep, Nat.pow_add]
    exact Nat.mul_le_mul_right _ hn
  have hbits := (Nat.le_div_iff_mul_le (Nat.two_pow_pos step)).2 hnum
  exact Nat.le_trans hbits (div_le_roundDiv _ _)

/-- It is rounded up to `2 ^ 53` when it comes within half a step of that. -/
theorem roundDiv_lt_pow_iff {half top : Nat} (hstep : step = half + (fine + 1))
    (htop : top = half + 54) :
    roundDiv (n * 2 ^ fine) (2 ^ step) < 2 ^ 53 ↔ n + 2 ^ half < 2 ^ top := by
  have hscaled : 2 * (n * 2 ^ fine) + 2 ^ step = (n + 2 ^ half) * 2 ^ (fine + 1) := by
    rw [hstep, Nat.pow_add 2 half, Nat.pow_succ]
    ring
  have hbound : 2 * (2 ^ 53 * 2 ^ step) = 2 ^ top * 2 ^ (fine + 1) := by
    rw [hstep, htop]
    ring
  rw [roundDiv_lt_iff (Nat.two_pow_pos step) (by decide), hscaled, hbound]
  exact Nat.mul_lt_mul_right (Nat.two_pow_pos _)

end Bits

/-! ## §2. Whole numbers -/

theorem placesAbove_one {n : Nat} (h : n ≠ 0) : placesAbove n 1 = n.log2 + 1022 := by
  have hlog : 2 ^ n.log2 ≤ n := Nat.log2_self_le h
  have hshort : ¬ n * Nat.pow 2 (Nat.log2 1) < 1 * Nat.pow 2 n.log2 := by
    show ¬ n * 2 ^ 0 < 1 * 2 ^ n.log2
    omega
  unfold placesAbove
  dsimp only
  rw [if_neg hshort]
  rfl

/-- Whether a whole number is below infinity depends on the 53 bits to which it is rounded. -/
theorem nearestCode_lt_iff {n : Nat} (h : n ≠ 0) :
    nearestCode n 1 < infinityCode ↔
      (n.log2 + 1022) * 2 ^ 52 + roundDiv (n * 2 ^ 1074) (2 ^ (n.log2 + 1022)) < 2047 * 2 ^ 52 := by
  have hpow : ∀ k, Nat.pow 2 k = 2 ^ k := fun _ => rfl
  unfold nearestCode
  rw [if_neg h, placesAbove_one h]
  dsimp only
  rw [Nat.one_mul, min_lt_iff, or_iff_right (lt_irrefl _)]
  unfold infinityCode
  rw [hpow 52, hpow 1074, hpow (n.log2 + 1022)]

theorem add_two_pow_lt {n half k top : Nat} (hn : n < 2 ^ k) (hhalf : half ≤ k) (htop : top = k + 1) :
    n + 2 ^ half < 2 ^ top := by
  have hle : 2 ^ half ≤ 2 ^ k := Nat.pow_le_pow_right Nat.two_pos hhalf
  rw [htop, Nat.pow_succ, Nat.mul_two]
  exact Nat.add_lt_add_of_lt_of_le hn hle

/-- The bound lies between the last two powers of two. -/
theorem nearestCode_lt_infinity_iff (n : Nat) :
    nearestCode n 1 < infinityCode ↔ n + 2 ^ 970 < 2 ^ 1024 := by
  by_cases hzero : n = 0
  · have hsmall : ∀ k, n < 2 ^ k := fun k => hzero ▸ Nat.two_pow_pos k
    have hcode : nearestCode n 1 < infinityCode := by
      rw [hzero]
      decide
    exact iff_of_true hcode (add_two_pow_lt (hsmall 1023) (by decide) rfl)
  rw [nearestCode_lt_iff hzero]
  have hlow : 2 ^ n.log2 ≤ n := Nat.log2_self_le hzero
  have hhigh : n < 2 ^ (n.log2 + 1) := Nat.lt_log2_self
  generalize n.log2 = l at hlow hhigh
  rcases Nat.lt_trichotomy l 1023 with hlt | rfl | hgt
  · have hrounded := roundDiv_le_of_lt hhigh (show l + 1 + 1074 = l + 1022 + 53 by omega)
    have hcode : (l + 1022) * 2 ^ 52 + roundDiv (n * 2 ^ 1074) (2 ^ (l + 1022)) < 2047 * 2 ^ 52 := by
      generalize roundDiv (n * 2 ^ 1074) (2 ^ (l + 1022)) = bits at hrounded
      omega
    have hsmall : ∀ k, l < k → n < 2 ^ k := fun k hk =>
      Nat.lt_of_lt_of_le hhigh (Nat.pow_le_pow_right Nat.two_pos hk)
    exact iff_of_true hcode (add_two_pow_lt (hsmall 1023 hlt) (by decide) rfl)
  · have hrounded : roundDiv (n * 2 ^ 1074) (2 ^ (1023 + 1022)) < 2 ^ 53 ↔ n + 2 ^ 970 < 2 ^ 1024 :=
      roundDiv_lt_pow_iff rfl rfl
    refine Iff.trans ?_ hrounded
    generalize roundDiv (n * 2 ^ 1074) (2 ^ (1023 + 1022)) = bits
    omega
  · have hrounded := le_roundDiv_of_le hlow (show l + 1074 = 52 + (l + 1022) by omega)
    have hcode : ¬ (l + 1022) * 2 ^ 52 + roundDiv (n * 2 ^ 1074) (2 ^ (l + 1022)) < 2047 * 2 ^ 52 := by
      generalize roundDiv (n * 2 ^ 1074) (2 ^ (l + 1022)) = bits at hrounded
      omega
    have hlarge : ∀ k, k ≤ l → 2 ^ k ≤ n := fun k hk =>
      Nat.le_trans (Nat.pow_le_pow_right Nat.two_pos hk) hlow
    exact iff_of_false hcode (Nat.not_lt.2 (Nat.le_add_right_of_le (hlarge 1024 hgt)))

/-- **A whole number is too large for a floating point number** exactly if it lies half a step above the
    largest finite one, or more. -/
theorem ofInt?_eq_none {i : Int} : ofInt? i = none ↔ 2 ^ 1024 ≤ i.natAbs + 2 ^ 970 := by
  rw [← Nat.not_lt, ← nearestCode_lt_infinity_iff]
  unfold ofInt?
  dsimp only
  split <;> simp [*]

end Scrawl.Decimal
