import Mathlib.Algebra.Order.Ring.Int
import Mathlib.Tactic.Linarith
import Mathlib.Tactic.Ring

/-!
# Quotients rounded to an integer

A quotient of integers rounded down, up, or to the nearest with halves up, and a number scaled by a
ratio of at least one and back.
-/

namespace Rounding

/-- To the nearest integer, halves towards positive infinity, for a positive denominator. -/
def halfUp (numerator denominator : Int) : Int :=
  (numerator * 2 + denominator) / (denominator * 2)

def ceilDiv (numerator denominator : Int) : Int := -(-numerator / denominator)

section Quotient

variable {n d k : Int}

lemma le_halfUp_iff (positive : 0 < d) : k ≤ halfUp n d ↔ k * d * 2 ≤ n * 2 + d := by
  rw [halfUp, Int.le_ediv_iff_mul_le (by omega), mul_assoc]

lemma halfUp_lt_iff (positive : 0 < d) : halfUp n d < k ↔ n * 2 + d < k * d * 2 := by
  rw [halfUp, Int.ediv_lt_iff_lt_mul (by omega), mul_assoc]

lemma halfUp_eq_iff (positive : 0 < d) :
    halfUp n d = k ↔ k * d * 2 ≤ n * 2 + d ∧ n * 2 < k * d * 2 + d := by
  have above : halfUp n d < k + 1 ↔ n * 2 < k * d * 2 + d := by
    rw [halfUp_lt_iff positive, show (k + 1) * d * 2 = k * d * 2 + d + d by ring]
    omega
  rw [← le_halfUp_iff positive, ← above]
  omega

lemma ceilDiv_le_iff (positive : 0 < d) : ceilDiv n d ≤ k ↔ n ≤ k * d := by
  rw [ceilDiv, neg_le, Int.le_ediv_iff_mul_le positive, neg_mul, neg_le_neg_iff]

lemma lt_ceilDiv_iff (positive : 0 < d) : k < ceilDiv n d ↔ k * d < n := by
  rw [← not_le, ceilDiv_le_iff positive, not_le]

lemma div_mul_add_mod (n d : Int) : n / d * d + n % d = n := by
  rw [mul_comm]
  exact Int.mul_ediv_add_emod n d

/-- A quotient rounded up, times its denominator. -/
theorem ceilDiv_mul (n d : Int) : ceilDiv n d * d = n + -n % d := by
  have parts := div_mul_add_mod (-n) d
  rw [ceilDiv, neg_mul]
  omega

lemma halfUp_mul_self (positive : 0 < d) (k : Int) : halfUp (k * d) d = k :=
  (halfUp_eq_iff positive).mpr ⟨by omega, by omega⟩

lemma halfUp_nonneg (positive : 0 < d) (nonneg : 0 ≤ n) : 0 ≤ halfUp n d := by
  rw [le_halfUp_iff positive]
  omega

lemma ceilDiv_nonneg (positive : 0 < d) (nonneg : 0 ≤ n) : 0 ≤ ceilDiv n d := by
  have above := (@lt_ceilDiv_iff n d (-1) positive).mpr (by omega)
  omega

end Quotient

/-! ## A ratio of at least one -/

section Ratio

variable {num den : Int} (denPos : 0 < den) (atLeastOne : den ≤ num)

include denPos atLeastOne

/-- Scaled up to the nearest and back to the nearest. -/
theorem halfUp_halfUp (x : Int) : halfUp (halfUp (x * num) den * den) num = x := by
  by_cases one : den = num
  · rw [one, halfUp_mul_self (by omega), halfUp_mul_self (by omega)]
  obtain ⟨low, high⟩ := (@halfUp_eq_iff (x * num) den _ denPos).mp rfl
  rw [halfUp_eq_iff (by omega)]
  omega

/-- A number within the scaled-down length stays within the length when it is scaled up. -/
theorem halfUp_lt_of_lt {x w : Int} (within : x < halfUp (w * den) num) :
    halfUp (x * num) den < w := by
  by_cases one : den = num
  · rw [one, halfUp_mul_self (by omega)] at within ⊢
    exact within
  have room := (le_halfUp_iff (by omega)).mp (Int.add_one_le_of_lt within)
  rw [show (x + 1) * num * 2 = x * num * 2 + num * 2 by ring] at room
  rw [halfUp_lt_iff denPos]
  omega

/-- The same for a box's open end that is not the last one. -/
theorem div_le_of_lt {x w : Int} (within : x < halfUp (w * den) num) : x * num / den ≤ w := by
  have room := (le_halfUp_iff (by omega)).mp (Int.add_one_le_of_lt within)
  rw [show (x + 1) * num * 2 = x * num * 2 + num * 2 by ring] at room
  refine Int.ediv_le_of_le_mul denPos ?_
  omega

lemma halfUp_le_self {x : Int} (nonneg : 0 ≤ x) : halfUp (x * den) num ≤ x := by
  have less : x * den ≤ x * num := mul_le_mul_of_nonneg_left atLeastOne nonneg
  rw [← Int.lt_add_one_iff, halfUp_lt_iff (by omega),
    show (x + 1) * num * 2 = x * num * 2 + num * 2 by ring]
  omega

lemma self_le_halfUp {x : Int} (nonpos : x ≤ 0) : x ≤ halfUp (x * den) num := by
  have less : x * num ≤ x * den := mul_le_mul_of_nonpos_left atLeastOne nonpos
  rw [le_halfUp_iff (by omega)]
  omega

/-- Rounded down and back to the nearest: the part cut off must be at most half of one. -/
theorem halfUp_div_iff (x : Int) :
    halfUp (x * num / den * den) num = x ↔ x * num % den * 2 ≤ num := by
  have parts := div_mul_add_mod (x * num) den
  have rest := Int.emod_nonneg (x * num) (show den ≠ 0 by omega)
  rw [halfUp_eq_iff (by omega)]
  omega

/-- Rounded up and back to the nearest: the part added must be less than half of one. -/
theorem halfUp_ceilDiv_iff (x : Int) :
    halfUp (ceilDiv (x * num) den * den) num = x ↔ -(x * num) % den * 2 < num := by
  have rest := Int.emod_nonneg (-(x * num)) (show den ≠ 0 by omega)
  rw [ceilDiv_mul, halfUp_eq_iff (by omega)]
  omega

end Ratio

end Rounding
