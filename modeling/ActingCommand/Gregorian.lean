import Mathlib

/-!
# The proleptic Gregorian calendar

Every fourth year is a leap year, but of the years that end a century only every fourth. A date's
day number counts the days from 1970-01-01; dates go by year, month and day, as their day numbers
do.
-/

namespace Gregorian

structure Date where
  year : Int
  month : Int
  day : Int
deriving DecidableEq

variable (year : Int) (leap : Bool)

def isLeap : Bool := year % 4 = 0 ∧ (year % 100 = 0 → year % 400 = 0)

def monthLength (month : Int) : Int :=
  if month = 2 then if leap then 29 else 28
  else if month ∈ [4, 6, 9, 11] then 30 else 31

/-- The days of a year before its month. -/
def monthStart (month : Int) : Int :=
  ((List.range (month - 1).toNat).map fun (earlier : Nat) => monthLength leap (earlier + 1)).sum

/-- The days from 1970-01-01 to a year's first day, with one more for each leap year between. -/
def yearStart : Int :=
  365 * (year - 1970) + ((year - 1) / 4 - (year - 1) / 100 + (year - 1) / 400 - 477)

lemma yearStart_succ :
    yearStart (year + 1) = yearStart year + if isLeap year then 366 else 365 := by
  simp only [yearStart, isLeap, decide_eq_true_eq]
  split <;> omega

namespace Date

def Valid (date : Date) : Prop :=
  1 ≤ date.month ∧ date.month ≤ 12 ∧ 1 ≤ date.day ∧
    date.day ≤ monthLength (isLeap date.year) date.month

/-- The days from 1970-01-01 to the date. -/
def dayNumber (date : Date) : Int :=
  yearStart date.year + monthStart (isLeap date.year) date.month + (date.day - 1)

/-- The order of dates by year, month and day. -/
def Before (left right : Date) : Prop :=
  left.year < right.year ∨ left.year = right.year ∧ (left.month < right.month ∨
    left.month = right.month ∧ left.day < right.day)

end Date

lemma yearStart_mono {left right : Int} (sooner : left ≤ right) :
    yearStart left ≤ yearStart right := by
  simp only [yearStart]
  omega

/-- A month ends before the next ones start. -/
lemma monthStart_mono {month later : Int} (first : 1 ≤ month) (sooner : month < later)
    (last : later ≤ 13) :
    monthStart leap month + monthLength leap month ≤ monthStart leap later := by
  have table : ∀ leap, ∀ month later : Fin 13, month < later →
      monthStart leap (month + 1) + monthLength leap (month + 1) ≤ monthStart leap (later + 1) := by
    decide
  obtain ⟨m, rfl⟩ : ∃ m : Nat, month = m + 1 := ⟨(month - 1).toNat, by omega⟩
  obtain ⟨l, rfl⟩ : ∃ l : Nat, later = l + 1 := ⟨(later - 1).toNat, by omega⟩
  exact table leap ⟨m, by omega⟩ ⟨l, by omega⟩ (Fin.mk_lt_mk.mpr (by omega))

lemma monthStart_year : monthStart leap 13 = if leap then 366 else 365 := by
  cases leap <;> rfl

lemma monthStart_nonneg {month : Int} (first : 1 ≤ month) (last : month ≤ 12) :
    0 ≤ monthStart leap month := by
  rcases first.eq_or_lt with rfl | later
  · rfl
  · have mono := monthStart_mono leap (Int.le_refl 1) later (by omega)
    exact le_trans (by cases leap <;> decide) mono

lemma dayNumber_lt_of_before {left right : Date} (good : left.Valid) (valid : right.Valid)
    (sooner : left.Before right) : left.dayNumber < right.dayNumber := by
  obtain ⟨low, high, first, last⟩ := good
  obtain ⟨low', high', first', -⟩ := valid
  unfold Date.dayNumber
  rcases sooner with year | ⟨year, month | ⟨month, day⟩⟩
  · have ends := monthStart_mono (isLeap left.year) low (by omega) (Int.le_refl 13)
    have starts := monthStart_nonneg (isLeap right.year) low' high'
    have years := yearStart_mono (Int.add_one_le_of_lt year)
    rw [yearStart_succ] at years
    rw [monthStart_year] at ends
    omega
  · have ends := monthStart_mono (isLeap left.year) low month (by omega)
    rw [← year]
    omega
  · rw [year, month]
    omega

/-- Dates go as their day numbers do. -/
theorem before_iff_dayNumber_lt {left right : Date} (good : left.Valid) (valid : right.Valid) :
    left.Before right ↔ left.dayNumber < right.dayNumber := by
  refine ⟨dayNumber_lt_of_before good valid, fun sooner => ?_⟩
  by_contra notBefore
  have order : right.Before left ∨ right = left := by
    cases left
    cases right
    simp only [Date.Before, Date.mk.injEq] at *
    omega
  rcases order with order | rfl
  · exact (dayNumber_lt_of_before valid good order).asymm sooner
  · exact sooner.false

end Gregorian
