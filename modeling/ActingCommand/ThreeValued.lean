import Mathlib

/-!
# Three-valued truth and sets of truth values

A statement holds, fails or is undecided for a reason. A conjunction fails as soon as a member
fails, and is otherwise undecided for the first reason a member gives; a disjunction is its
dual. A `Possible` is a set of truth values.
-/

namespace ThreeValued

open List

universe u

inductive Truth (ρ : Type u)
  | holds
  | fails
  | unknown (reason : ρ)
deriving DecidableEq

variable {ρ : Type u}

namespace Truth

def ofBool (value : Bool) : Truth ρ := if value then holds else fails

def negate : Truth ρ → Truth ρ
  | holds => fails
  | fails => holds
  | unknown reason => unknown reason

/-- The conjunction of the members still to come, after those met so far left `undecided`. -/
def conjFrom : Option ρ → List (Truth ρ) → Truth ρ
  | none, [] => holds
  | some reason, [] => unknown reason
  | _, fails :: _ => fails
  | undecided, holds :: rest => conjFrom undecided rest
  | undecided, unknown reason :: rest => conjFrom (undecided.or (some reason)) rest

def disjFrom : Option ρ → List (Truth ρ) → Truth ρ
  | none, [] => fails
  | some reason, [] => unknown reason
  | _, holds :: _ => holds
  | undecided, fails :: rest => disjFrom undecided rest
  | undecided, unknown reason :: rest => disjFrom (undecided.or (some reason)) rest

def conj (members : List (Truth ρ)) : Truth ρ := conjFrom none members

def disj (members : List (Truth ρ)) : Truth ρ := disjFrom none members

lemma negate_negate (value : Truth ρ) : value.negate.negate = value := by
  cases value <;> rfl

/-- Every fact about a disjunction is one about the conjunction of the negations. -/
theorem negate_disjFrom (undecided : Option ρ) (members : List (Truth ρ)) :
    (disjFrom undecided members).negate = conjFrom undecided (members.map negate) := by
  induction members generalizing undecided with
  | nil => cases undecided <;> rfl
  | cons member rest ih =>
    cases member with
    | holds => cases undecided <;> rfl
    | fails =>
      simp only [disjFrom, map_cons, negate, conjFrom]
      exact ih undecided
    | unknown reason =>
      simp only [disjFrom, map_cons, negate, conjFrom]
      exact ih (undecided.or (some reason))

lemma conjFrom_holds {undecided : Option ρ} {members : List (Truth ρ)}
    (value : conjFrom undecided members = holds) :
    undecided = none ∧ ∀ member ∈ members, member = holds := by
  induction members generalizing undecided with
  | nil =>
    cases undecided with
    | none => simp
    | some reason => simp [conjFrom] at value
  | cons member rest ih =>
    cases member with
    | holds =>
      simp only [conjFrom] at value
      obtain ⟨decided, all⟩ := ih value
      exact ⟨decided, by simpa using all⟩
    | fails => simp [conjFrom] at value
    | unknown reason =>
      simp only [conjFrom] at value
      obtain ⟨decided, -⟩ := ih value
      cases undecided <;> simp at decided

lemma conjFrom_fails {undecided : Option ρ} {members : List (Truth ρ)}
    (value : conjFrom undecided members = fails) : fails ∈ members := by
  induction members generalizing undecided with
  | nil => cases undecided <;> simp [conjFrom] at value
  | cons member rest ih =>
    cases member with
    | holds | unknown => exact mem_cons_of_mem _ (ih (by simpa only [conjFrom] using value))
    | fails => exact mem_cons_self

lemma conjFrom_unknown {undecided : Option ρ} {members : List (Truth ρ)} {reason : ρ}
    (value : conjFrom undecided members = unknown reason) :
    (∀ member ∈ members, member ≠ fails) ∧
      (undecided = some reason ∨ unknown reason ∈ members) := by
  induction members generalizing undecided with
  | nil =>
    cases undecided with
    | none => simp [conjFrom] at value
    | some first => simpa [conjFrom] using value
  | cons member rest ih =>
    cases member with
    | holds =>
      obtain ⟨apart, source⟩ := ih (by simpa only [conjFrom] using value)
      simpa using ⟨apart, source⟩
    | fails => simp [conjFrom] at value
    | unknown first =>
      obtain ⟨apart, source⟩ := ih (by simpa only [conjFrom] using value)
      refine ⟨by simpa using apart, ?_⟩
      cases undecided with
      | none => simpa [eq_comm] using source
      | some earlier => simpa [or_assoc] using source.imp_right Or.inr

theorem conj_eq_holds_iff {members : List (Truth ρ)} :
    conj members = holds ↔ ∀ member ∈ members, member = holds := by
  refine ⟨fun value => (conjFrom_holds value).2, fun each => ?_⟩
  cases value : conj members with
  | holds => rfl
  | fails => exact (each _ (conjFrom_fails value)).symm ▸ rfl
  | unknown reason =>
    have source := (conjFrom_unknown value).2.resolve_left (by simp)
    exact (each _ source).symm ▸ rfl

/-- A conjunction fails when one member does, whatever the others are. -/
theorem conj_eq_fails_iff {members : List (Truth ρ)} : conj members = fails ↔ fails ∈ members := by
  refine ⟨conjFrom_fails, fun failing => ?_⟩
  cases value : conj members with
  | holds => exact ((conjFrom_holds value).2 _ failing).symm ▸ rfl
  | fails => rfl
  | unknown reason => exact ((conjFrom_unknown value).1 _ failing rfl).elim

end Truth

/-- Which truth values a statement can take. -/
structure Possible where
  truth : Bool
  falsity : Bool
  unknown : Bool
deriving DecidableEq

namespace Possible

def undecided : Possible := ⟨false, false, true⟩

variable (value : Bool) (possible : Possible)

def exact : Possible := ⟨value, !value, false⟩

def Admits : Truth ρ → Prop
  | .holds => possible.truth = true
  | .fails => possible.falsity = true
  | .unknown _ => possible.unknown = true

def negate : Possible :=
  ⟨possible.falsity, possible.truth, possible.unknown⟩

def all (members : List Possible) : Possible where
  truth := members.all (·.truth)
  falsity := members.any (·.falsity)
  unknown := members.all (fun member => member.truth || member.unknown) &&
    members.any (·.unknown)

def any (members : List Possible) : Possible where
  truth := members.any (·.truth)
  falsity := members.all (·.falsity)
  unknown := members.all (fun member => member.falsity || member.unknown) &&
    members.any (·.unknown)

lemma admits_undecided (reason : ρ) : undecided.Admits (Truth.unknown reason) := rfl

lemma admits_exact : (exact value).Admits (Truth.ofBool value : Truth ρ) := by
  cases value <;> rfl

lemma admits_negate {possible : Possible} {value : Truth ρ} :
    possible.negate.Admits value.negate ↔ possible.Admits value := by
  cases value <;> rfl

lemma negate_any (members : List Possible) : (any members).negate = all (members.map negate) := by
  simp [any, all, negate, all_map, any_map, Function.comp_def]

section Family

variable {ι : Type u} {of : List ι} {members : ι → Possible} {values : ι → Truth ρ}

/-- The conjunction of values, each in its own set. -/
theorem admits_all (each : ∀ i ∈ of, (members i).Admits (values i)) :
    (all (of.map members)).Admits (Truth.conj (of.map values)) := by
  cases result : Truth.conj (of.map values) with
  | holds =>
    have every := forall_mem_map.mp (Truth.conjFrom_holds result).2
    refine all_eq_true.mpr (forall_mem_map.mpr fun i listed => ?_)
    have admitted := each i listed
    rw [every i listed] at admitted
    exact admitted
  | fails =>
    obtain ⟨i, listed, failed⟩ := mem_map.mp (Truth.conjFrom_fails result)
    have admitted := each i listed
    rw [failed] at admitted
    exact any_eq_true.mpr ⟨members i, mem_map_of_mem listed, admitted⟩
  | unknown reason =>
    obtain ⟨apart, first | found⟩ := Truth.conjFrom_unknown result
    · simp at first
    refine Bool.and_eq_true_iff.mpr ⟨?_, ?_⟩
    · refine all_eq_true.mpr (forall_mem_map.mpr fun i listed => ?_)
      have admitted := each i listed
      rw [Bool.or_eq_true]
      cases value : values i with
      | holds => exact Or.inl (by rwa [value] at admitted)
      | fails => exact absurd value (forall_mem_map.mp apart i listed)
      | unknown other => exact Or.inr (by rwa [value] at admitted)
    · obtain ⟨i, listed, undecided⟩ := mem_map.mp found
      have admitted := each i listed
      rw [undecided] at admitted
      exact any_eq_true.mpr ⟨members i, mem_map_of_mem listed, admitted⟩

lemma admits_any (each : ∀ i ∈ of, (members i).Admits (values i)) :
    (any (of.map members)).Admits (Truth.disj (of.map values)) := by
  rw [← admits_negate, negate_any, Truth.disj, Truth.negate_disjFrom, map_map, map_map]
  exact admits_all fun i listed => admits_negate.mpr (each i listed)

end Family

end Possible

end ThreeValued
