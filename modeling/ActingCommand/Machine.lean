import Mathlib

/-!
# Machine numbers and identifiers

Unsigned 64-bit quantities are natural numbers below `2 ^ 64`; an addition that
leaves the range has no value. A signed 64-bit quantity is an integer, and a conversion
that leaves its range has no value. An identifier is its sixteen bytes read as one
big-endian number, so that the order of two identifiers is the order of their bytes.
-/

namespace Machine

open Std

def u64Max : Nat := 2 ^ 64 - 1

def u32Max : Nat := 2 ^ 32 - 1

def checkedAdd (a b : Nat) : Option Nat := if a + b ≤ u64Max then some (a + b) else none

lemma checkedAdd_eq_some_iff {a b c : Nat} : checkedAdd a b = some c ↔ a + b = c ∧ c ≤ u64Max := by
  unfold checkedAdd
  by_cases h : a + b ≤ u64Max
  · simp only [h, if_true, Option.some.injEq]
    constructor
    · rintro rfl
      exact ⟨rfl, h⟩
    · exact fun both => both.1
  · simp only [h, if_false, reduceCtorEq, false_iff]
    rintro ⟨rfl, bound⟩
    exact h bound

def saturatingAdd (a b : Nat) : Nat := min (a + b) u64Max

def i64Min : Int := -2 ^ 63

def i64Max : Int := 2 ^ 63 - 1

/-- `i64::try_from`. -/
def toI64 (value : Int) : Option Int :=
  if i64Min ≤ value ∧ value ≤ i64Max then some value else none

lemma toI64_eq_some_iff {value narrowed : Int} :
    toI64 value = some narrowed ↔ value = narrowed ∧ i64Min ≤ value ∧ value ≤ i64Max := by
  unfold toI64
  by_cases fits : i64Min ≤ value ∧ value ≤ i64Max
  · simp [fits]
  · simp [fits]

/-- Identifiers of different kinds never mix; `tag` keeps them apart. -/
structure TypedId (tag : String) where
  bytes : Nat
deriving DecidableEq

namespace TypedId

variable {tag : String}

instance : Ord (TypedId tag) := ⟨fun a b => compare a.bytes b.bytes⟩

lemma compare_def (a b : TypedId tag) : compare a b = compare a.bytes b.bytes := rfl

instance : OrientedOrd (TypedId tag) where
  eq_swap {a b} := by
    rw [compare_def, compare_def]
    exact OrientedCmp.eq_swap

instance : TransOrd (TypedId tag) where
  isLE_trans {a b c} hab hbc := by
    rw [compare_def] at *
    exact TransCmp.isLE_trans hab hbc

instance : LawfulEqOrd (TypedId tag) where
  compare_self {a} := by
    rw [compare_def]
    exact ReflCmp.compare_self
  eq_of_compare {a b} h := by
    rw [compare_def] at h
    have same : a.bytes = b.bytes := LawfulEqCmp.eq_of_compare h
    cases a
    cases b
    exact congrArg _ same

end TypedId

end Machine
