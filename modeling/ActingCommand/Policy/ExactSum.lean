import Mathlib

/-!
# Exact sums of ratios

Ratios of 128-bit numbers, reduced while they are multiplied and added up, and compared without a
product: equal integer parts compare the reciprocals of their remainders the other way round, as
the continued fractions of the two ratios do.
-/

namespace Policy

open List Option Nat

/-! ## Comparing ratios -/

/-- `a/b` against `c/d`; a zero denominator has no answer. -/
def compareRatios (a b c d : Nat) : Option Ordering :=
  if _zero : b = 0 ∨ d = 0 then none
  else if a / b ≠ c / d then some (compare (a / b) (c / d))
  else
    if a % b = 0 ∧ c % d = 0 then some .eq
    else if a % b = 0 then some .lt
    else if c % d = 0 then some .gt
    else compareRatios d (c % d) b (a % b)
termination_by b + d
decreasing_by
  have first := mod_lt a (pos_of_ne_zero (not_or.mp _zero).1)
  have second := mod_lt c (pos_of_ne_zero (not_or.mp _zero).2)
  omega

/-- The integer parts decide, and level ones leave the remainders to. -/
theorem compare_mul_eq {a b c d : Nat} (level : a / b = c / d) :
    compare (a * d) (c * b) = compare (a % b * d) (c % d * b) := by
  have left : a * d = a % b * d + a / b * b * d := by
    rw [← add_mul, mul_comm (a / b), mod_add_div]
  have right : c * b = c % d * b + a / b * b * d := by
    rw [level, mul_right_comm (c / d), ← add_mul, mul_comm (c / d), mod_add_div]
  rw [left, right]
  rcases lt_trichotomy (a % b * d) (c % d * b) with h | h | h
  · rw [compare_lt_iff_lt.mpr h, compare_lt_iff_lt.mpr (by omega)]
  · simp [h]
  · rw [compare_gt_iff_gt.mpr h, compare_gt_iff_gt.mpr (by omega)]

lemma lt_of_div_lt {a b c d : Nat} (positive : 0 < b) (below : a / b < c / d) : a * d < c * b := by
  have first : a < (a / b + 1) * b := by
    rw [Nat.mul_comm]
    exact Nat.lt_mul_div_succ a positive
  have denominator : 0 < d := by
    rcases Nat.eq_zero_or_pos d with rfl | h
    · simp at below
    · exact h
  calc a * d < (a / b + 1) * b * d := Nat.mul_lt_mul_of_pos_right first denominator
    _ ≤ c / d * b * d := Nat.mul_le_mul_right _ (Nat.mul_le_mul_right _ below)
    _ = c / d * d * b := by ring
    _ ≤ c * b := Nat.mul_le_mul_right _ (Nat.div_mul_le_self c d)

/-- Positive denominators are compared exactly. -/
theorem compareRatios_eq {a b c d : Nat} (left : 0 < b) (right : 0 < d) :
    compareRatios a b c d = some (compare (a * d) (c * b)) := by
  fun_induction compareRatios a b c d with
  | case1 a b c d zero => omega
  | case2 a b c d zero apart =>
    rcases lt_or_gt_of_ne apart with h | h
    · rw [compare_lt_iff_lt.mpr h, compare_lt_iff_lt.mpr (lt_of_div_lt left h)]
    · rw [compare_gt_iff_gt.mpr h, compare_gt_iff_gt.mpr (lt_of_div_lt right h)]
  | case3 a b c d zero level both =>
    rw [compare_mul_eq (not_not.mp level), both.1, both.2, zero_mul, zero_mul]
    rfl
  | case4 a b c d zero level both first =>
    have second : 0 < c % d := pos_of_ne_zero fun h => both ⟨first, h⟩
    rw [compare_mul_eq (not_not.mp level), first, zero_mul,
      compare_lt_iff_lt.mpr (mul_pos second left)]
  | case5 a b c d zero level both first second =>
    rw [compare_mul_eq (not_not.mp level), second, zero_mul,
      compare_gt_iff_gt.mpr (mul_pos (pos_of_ne_zero first) right)]
  | case6 a b c d zero level both first second ih =>
    rw [ih (pos_of_ne_zero second) (pos_of_ne_zero first),
      compare_mul_eq (not_not.mp level), mul_comm d, mul_comm b]

/-! ## Ratios -/

def u128Max : Nat := 340282366920938463463374607431768211455

/-- A product of ratios so far. -/
structure Ratio where
  numerator : Nat
  denominator : Nat
  positive : 0 < denominator

namespace Ratio

def one : Ratio := ⟨1, 1, one_pos⟩

variable (r : Ratio) (factor : Nat)

def value : ℚ := r.numerator / r.denominator

def dividedBy : Option Ratio :=
  if h : 0 < factor ∧ r.denominator * factor ≤ u128Max then
    some ⟨r.numerator, r.denominator * factor, mul_pos r.positive h.1⟩
  else none

/-- Reduced by what the factor and the denominator share. -/
def times : Option Ratio :=
  let common := Nat.gcd factor r.denominator
  if r.numerator * (factor / common) ≤ u128Max then
    some ⟨r.numerator * (factor / common), r.denominator / common,
      Nat.div_pos (Nat.gcd_le_right _ r.positive) (Nat.gcd_pos_of_pos_right _ r.positive)⟩
  else none

lemma dividedBy_value {r s : Ratio} {factor : Nat} (answer : r.dividedBy factor = some s) :
    s.value = r.value / factor := by
  unfold dividedBy at answer
  split at answer
  · cases answer
    simp [value, cast_mul, div_div]
  · cases answer

lemma times_value {r s : Ratio} {factor : Nat} (answer : r.times factor = some s) :
    s.value = r.value * factor := by
  simp only [times] at answer
  split at answer
  · cases answer
    have common : (Nat.gcd factor r.denominator : ℚ) ≠ 0 :=
      Nat.cast_ne_zero.mpr (Nat.gcd_pos_of_pos_right _ r.positive).ne'
    have own : (r.denominator : ℚ) ≠ 0 := Nat.cast_ne_zero.mpr r.positive.ne'
    simp only [value]
    rw [Nat.cast_mul, Nat.cast_div (Nat.gcd_dvd_left _ _) common,
      Nat.cast_div (Nat.gcd_dvd_right _ _) common]
    field_simp
  · cases answer

end Ratio

/-- The product of the numerators over that of the denominators; nothing on overflow or a zero
denominator. -/
def ratio (numerators denominators : List Nat) : Option Ratio := do
  let bottom ← denominators.foldlM Ratio.dividedBy Ratio.one
  numerators.foldlM Ratio.times bottom

lemma foldlM_dividedBy {denominators : List Nat} {r s : Ratio}
    (answer : denominators.foldlM Ratio.dividedBy r = some s) :
    s.value = r.value / (denominators.prod : ℕ) := by
  induction denominators generalizing r with
  | nil => cases answer; simp
  | cons factor rest ih =>
    rw [foldlM_cons, bind_eq_bind, bind_eq_some_iff] at answer
    obtain ⟨next, first, later⟩ := answer
    rw [ih later, Ratio.dividedBy_value first, prod_cons, cast_mul, div_div]

lemma foldlM_times {numerators : List Nat} {r s : Ratio}
    (answer : numerators.foldlM Ratio.times r = some s) :
    s.value = r.value * (numerators.prod : ℕ) := by
  induction numerators generalizing r with
  | nil => cases answer; simp
  | cons factor rest ih =>
    rw [foldlM_cons, bind_eq_bind, bind_eq_some_iff] at answer
    obtain ⟨next, first, later⟩ := answer
    rw [ih later, Ratio.times_value first, prod_cons, cast_mul, mul_assoc]

lemma ratio_value {numerators denominators : List Nat} {r : Ratio}
    (answer : ratio numerators denominators = some r) :
    r.value = (numerators.prod : ℕ) / (denominators.prod : ℕ) := by
  rw [ratio, bind_eq_bind, bind_eq_some_iff] at answer
  obtain ⟨bottom, divided, times⟩ := answer
  rw [foldlM_times times, foldlM_dividedBy divided]
  simp [Ratio.value, Ratio.one, mul_comm, ← div_eq_mul_inv]

/-! ## Sums -/

def fitsI128 (value : Int) : Prop := -2 ^ 127 ≤ value ∧ value < 2 ^ 127

instance (value : Int) : Decidable (fitsI128 value) :=
  inferInstanceAs (Decidable (_ ∧ _))

structure ExactSum where
  numerator : Int
  denominator : Nat
  positive : 0 < denominator

namespace ExactSum

def new : ExactSum := ⟨0, 1, one_pos⟩

variable (sum : ExactSum)

def value : ℚ := sum.numerator / sum.denominator

/-- Over the common denominator, then reduced; nothing on overflow. -/
def add (term : Ratio) (negative : Bool) : Option ExactSum :=
  let numerator : Int := if negative then -term.numerator else term.numerator
  let common := Nat.gcd sum.denominator term.denominator
  let left := sum.numerator * (term.denominator / common : ℕ)
  let right := numerator * (sum.denominator / common : ℕ)
  let product := sum.denominator * (term.denominator / common)
  let reduce := Nat.gcd (left + right).natAbs product
  if fitsI128 term.numerator ∧ fitsI128 term.denominator ∧ fitsI128 left ∧ fitsI128 right ∧
      fitsI128 (left + right) ∧ fitsI128 product then
    some ⟨(left + right) / reduce, product / reduce, by
      have inner : 0 < product := Nat.mul_pos sum.positive
        (Nat.div_pos (Nat.gcd_le_right _ term.positive) (Nat.gcd_pos_of_pos_left _ sum.positive))
      exact Nat.div_pos (Nat.gcd_le_right _ inner) (Nat.gcd_pos_of_pos_right _ inner)⟩
  else none

def floor : Int := sum.numerator / sum.denominator

def ceil : Int := -(-sum.numerator / sum.denominator)

/-- `|sum| ≤ bound`, for a bound that is not negative. -/
def within (bound : ExactSum) : Option Bool :=
  if bound.numerator < 0 then none
  else (compareRatios sum.numerator.natAbs sum.denominator bound.numerator.natAbs
    bound.denominator).map fun order => decide (order ≠ .gt)

theorem reduced {numerator : Int} {denominator : Nat} :
    ((numerator / (Nat.gcd numerator.natAbs denominator : ℕ) : ℤ) : ℚ) /
      ((denominator / Nat.gcd numerator.natAbs denominator : ℕ) : ℚ) = numerator / denominator := by
  rcases Nat.eq_zero_or_pos (Nat.gcd numerator.natAbs denominator) with zero | positive
  · obtain ⟨top, bottom⟩ := Nat.gcd_eq_zero_iff.mp zero
    simp [bottom]
  have common : (Nat.gcd numerator.natAbs denominator : ℚ) ≠ 0 :=
    Nat.cast_ne_zero.mpr positive.ne'
  have top : ((Nat.gcd numerator.natAbs denominator : ℕ) : ℤ) ∣ numerator :=
    Int.natCast_dvd.mpr (Nat.gcd_dvd_left _ _)
  rw [Int.cast_div top (by exact_mod_cast common), Nat.cast_div (Nat.gcd_dvd_right _ _) common,
    Int.cast_natCast, div_div_div_cancel_right₀ common]

lemma add_value {sum next : ExactSum} {term : Ratio} {negative : Bool}
    (answer : sum.add term negative = some next) :
    next.value = sum.value + (if negative then -term.value else term.value) := by
  have signed : (if negative then -term.value else term.value) =
      ((if negative then -term.numerator else term.numerator : ℤ) : ℚ) / term.denominator := by
    cases negative <;> simp [Ratio.value, neg_div]
  rw [signed]
  simp only [add] at answer
  obtain rfl := some.inj (ite_none_right_eq_some.mp answer).2
  have own : (sum.denominator : ℚ) ≠ 0 := Nat.cast_ne_zero.mpr sum.positive.ne'
  have other : (term.denominator : ℚ) ≠ 0 := Nat.cast_ne_zero.mpr term.positive.ne'
  have common : (Nat.gcd sum.denominator term.denominator : ℚ) ≠ 0 :=
    Nat.cast_ne_zero.mpr (Nat.gcd_pos_of_pos_left _ sum.positive).ne'
  simp only [value]
  rw [reduced]
  generalize (if negative then -(term.numerator : ℤ) else term.numerator) = numerator
  rw [Int.cast_add, Int.cast_mul, Int.cast_mul, Int.cast_natCast, Int.cast_natCast, Nat.cast_mul,
    Nat.cast_div (Nat.gcd_dvd_left _ _) common, Nat.cast_div (Nat.gcd_dvd_right _ _) common]
  field_simp

lemma floor_value : sum.floor = ⌊sum.value⌋ := by
  rw [floor, value, Rat.floor_intCast_div_natCast]

lemma abs_value : |sum.value| = (sum.numerator.natAbs : ℚ) / sum.denominator := by
  rw [value, abs_div, abs_cast, cast_natAbs, Int.cast_abs]

/-- The band is read exactly. -/
theorem within_eq {sum bound : ExactSum} (valid : 0 ≤ bound.value) :
    sum.within bound = some (decide (|sum.value| ≤ bound.value)) := by
  have above : 0 ≤ bound.numerator := by
    have denominator : (0 : ℚ) < bound.denominator := cast_pos.mpr bound.positive
    rw [value, le_div_iff₀ denominator, zero_mul] at valid
    exact_mod_cast valid
  rw [within, if_neg (not_lt.mpr above), compareRatios_eq sum.positive bound.positive,
    map_some, some.injEq, decide_eq_decide, ← abs_of_nonneg valid, abs_value,
    abs_value, div_le_div_iff₀ (cast_pos.mpr sum.positive) (cast_pos.mpr bound.positive)]
  norm_cast
  simp [compare_gt_iff_gt, not_lt]

end ExactSum

end Policy
