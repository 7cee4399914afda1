import Mathlib

/-!
# Watermark tiers

The tier of an amount depends on the amounts before it: a tier is reached at its activation line
and kept until an amount falls to its release line.
-/

namespace ArtifactStore

inductive WatermarkTier
  | below | tier1 | tier2 | tier3
deriving DecidableEq

inductive WatermarkConfigError
  | linesNotDistinct | releaseNotBelowActivation | gapTooSmall

structure WatermarkLines where
  tier1 : Nat
  tier2 : Nat
  tier3 : Nat
  tier1Release : Nat
  tier2Release : Nat
  tier3Release : Nat

namespace WatermarkTier

def rank : WatermarkTier → Nat
  | below => 0
  | tier1 => 1
  | tier2 => 2
  | tier3 => 3

def lower : WatermarkTier → WatermarkTier
  | below | tier1 => below
  | tier2 => tier1
  | tier3 => tier2

def higher : WatermarkTier → Option WatermarkTier
  | below => some tier1
  | tier1 => some tier2
  | tier2 => some tier3
  | tier3 => none

end WatermarkTier

namespace WatermarkLines

open WatermarkTier

variable (lines : WatermarkLines)

def validate (minGap : Nat) : Except WatermarkConfigError Unit :=
  if ¬ (lines.tier1 < lines.tier2 ∧ lines.tier2 < lines.tier3) then .error .linesNotDistinct
  else if lines.tier1 ≤ lines.tier1Release ∨ lines.tier2 ≤ lines.tier2Release ∨
      lines.tier3 ≤ lines.tier3Release then .error .releaseNotBelowActivation
  else if lines.tier3 - lines.tier2 < minGap then .error .gapTooSmall
  else .ok ()

def activation : WatermarkTier → Nat
  | .below => 0
  | .tier1 => lines.tier1
  | .tier2 => lines.tier2
  | .tier3 => lines.tier3

def release : WatermarkTier → Nat
  | .below => 0
  | .tier1 => lines.tier1Release
  | .tier2 => lines.tier2Release
  | .tier3 => lines.tier3Release

variable (used : Nat)

/-- The first loop of `tier`: down from a tier whose release line the amount does not exceed. -/
def fall (tier : WatermarkTier) : WatermarkTier :=
  if tier ≠ .below ∧ used ≤ lines.release tier then fall tier.lower else tier
termination_by tier.rank
decreasing_by cases tier <;> simp_all [lower, rank]

/-- Its second loop: up to a tier whose activation line the amount reaches. -/
def climb (tier : WatermarkTier) : WatermarkTier :=
  match _above : tier.higher with
  | some next => if used < lines.activation next then tier else climb next
  | none => tier
termination_by 3 - tier.rank
decreasing_by cases tier <;> cases _above <;> decide

def tier (previous : WatermarkTier) : WatermarkTier := lines.climb used (lines.fall used previous)

/-- The tier after a history of amounts, the newest first. -/
def tierAfter : List Nat → WatermarkTier
  | [] => .below
  | used :: earlier => lines.tier used (tierAfter earlier)

variable {lines used} {k tier : WatermarkTier}

lemma le_fall_iff (ordered : lines.tier1Release ≤ lines.tier2Release ∧
    lines.tier2Release ≤ lines.tier3Release) (real : k ≠ .below) :
    k.rank ≤ (lines.fall used tier).rank ↔ k.rank ≤ tier.rank ∧ lines.release k < used := by
  fun_induction lines.fall used tier with
  | case1 tier falls ih =>
    rw [ih]
    cases tier <;> cases k <;> simp_all [lower, rank, release]
  | case2 tier stays =>
    cases tier <;> cases k <;> simp_all [rank, release]
    all_goals omega

lemma le_climb_iff (distinct : lines.tier1 < lines.tier2 ∧ lines.tier2 < lines.tier3) :
    k.rank ≤ (lines.climb used tier).rank ↔ k.rank ≤ tier.rank ∨ lines.activation k ≤ used := by
  fun_induction lines.climb used tier with
  | case1 tier next above short =>
    cases tier <;> cases above <;> cases k <;> simp_all [rank, activation] <;> omega
  | case2 tier next above reached ih =>
    rw [ih]
    cases tier <;> cases above <;> cases k <;> simp_all [rank, activation]
  | case3 tier top =>
    cases tier <;> cases top
    cases k <;> simp [rank]

/-- A tier holds exactly when an amount reached its activation line and all later ones stayed above
its release line. -/
theorem tier_follows_history {minGap : Nat} (valid : lines.validate minGap = .ok ())
    (ordered : lines.tier1Release ≤ lines.tier2Release ∧ lines.tier2Release ≤ lines.tier3Release)
    (real : k ≠ .below) (amounts : List Nat) :
    k.rank ≤ (lines.tierAfter amounts).rank ↔ ∃ later used earlier,
      amounts = later ++ used :: earlier ∧ lines.activation k ≤ used ∧
        ∀ amount ∈ later, lines.release k < amount := by
  have distinct : lines.tier1 < lines.tier2 ∧ lines.tier2 < lines.tier3 := by
    by_contra equal
    simp [validate, equal] at valid
  induction amounts with
  | nil =>
    refine iff_of_false ?_ (by simp)
    cases k <;> simp_all [tierAfter, rank]
  | cons used earlier ih =>
    simp only [tierAfter, WatermarkLines.tier, le_climb_iff distinct, le_fall_iff ordered real, ih]
    constructor
    · rintro (⟨⟨later, first, before, rfl, reached, above⟩, stays⟩ | reached)
      · exact ⟨used :: later, first, before, rfl, reached, List.forall_mem_cons.mpr ⟨stays, above⟩⟩
      · exact ⟨[], used, earlier, rfl, reached, by simp⟩
    · rintro ⟨later, first, before, whole, reached, above⟩
      cases later with
      | nil =>
        obtain ⟨rfl, -⟩ := List.cons.inj whole
        exact .inr reached
      | cons amount later =>
        obtain ⟨rfl, rfl⟩ := List.cons.inj whole
        obtain ⟨stays, above⟩ := List.forall_mem_cons.mp above
        exact .inl ⟨⟨later, first, before, rfl, reached, above⟩, stays⟩

/-- Seven reached tier 2, which five keeps. -/
theorem tier_follows_history_held :
    WatermarkTier.tier2.rank ≤ (tierAfter ⟨3, 6, 9, 2, 4, 8⟩ [5, 7, 1]).rank :=
  (@tier_follows_history ⟨3, 6, 9, 2, 4, 8⟩ .tier2 1 rfl (by decide) (by decide) _).mpr
    ⟨[5], 7, [1], rfl, by decide, by decide⟩

end WatermarkLines

end ArtifactStore
