import ActingCommand.Machine
import ActingCommand.SortKeys

/-!
# The allocation order of a round

A round takes its candidates by promotion and score, and in a catalog with judged tasks by tier:
maintenance before business, in each the unjudged ones by score and then the judged ones by their
net benefit per expected millisecond, and last those the benefit gate released inside their
rounding error. Ties go by how close a candidate is to losing its eligibility, and the hash and the
ids leave none.
-/

namespace Policy

open Machine SortKeys Std List

inductive Measure
  | bounded
  | unbounded
  | unknown
deriving DecidableEq

structure TieKey where
  measure : Measure
  chances : Option Nat
  timeLeftMs : Option Nat
  runsLeft : Option Nat
  conditions : Nat
  declared : Nat

def TieKey.order : TieKey → TieKey → Ordering :=
  let bound (value : Option Nat) : Nat := value.getD u64Max
  lexKeys [compareOn fun key => decide (key.measure ≠ .bounded), compareOn (bound ·.chances),
    compareOn (bound ·.timeLeftMs), compareOn (bound ·.runsLeft), greaterFirst (·.conditions),
    compareOn (·.declared)]

/-- A known positive net benefit, in milli and floored, and the duration it is divided by. -/
structure KnownBenefit where
  benefitMilli : Int
  expectedDurationMs : Nat
  positive : 0 < expectedDurationMs

/-- The higher benefit per millisecond goes first, compared by cross products. -/
def KnownBenefit.order (left right : KnownBenefit) : Ordering :=
  compare (right.benefitMilli.natAbs * left.expectedDurationMs)
    (left.benefitMilli.natAbs * right.expectedDurationMs)

/-- What the allocation order reads of a candidate. One released inside its rounding error is a
judged business task without a known benefit. -/
structure PlacementCandidate where
  workIndex : Nat
  taskId : String
  instanceId : String
  totalScore : Int
  promoted : Bool
  affinity : Bool
  business : Bool
  benefit : Option KnownBenefit
  zeroTier : Bool
  tie : TieKey
  tieBreaker : Nat
  released : zeroTier = true → business = true ∧ benefit = none

variable (tiers : Bool) (left right : PlacementCandidate)

/-- Judged candidates by their benefit, released ones level and the others by score. -/
def valueOrder : Ordering :=
  match left.benefit, right.benefit with
  | some a, some b => a.order b
  | _, _ =>
    if left.zeroTier ∧ right.zeroTier then .eq else greaterFirst (·.totalScore) left right

def allocationOrder : PlacementCandidate → PlacementCandidate → Ordering :=
  lexKeys ([greaterFirst fun candidate => candidate.promoted && !candidate.zeroTier] ++
    (if tiers then [compareOn (·.business), compareOn (·.zeroTier),
      compareOn (·.benefit.isSome), valueOrder]
    else [greaterFirst (·.totalScore)]) ++
    [greaterFirst (·.affinity), onKey TieKey.order (·.tie),
      compareOn (·.tieBreaker), compareOn (·.taskId), compareOn (·.instanceId)])

/-! ## The order is total -/

instance TieKey.order_trans : TransCmp TieKey.order := by
  refine lexKeys_trans ?_
  simp only [forall_mem_cons, not_mem_nil, false_imp_iff, implies_true, and_true]
  exact ⟨inferInstance, inferInstance, inferInstance, inferInstance, inferInstance, inferInstance⟩

instance KnownBenefit.order_trans : TransCmp KnownBenefit.order where
  eq_swap {a b} := by
    rw [order, order]
    exact OrientedCmp.eq_swap
  isLE_trans {a b c} ab bc := by
    simp only [order, Nat.isLE_compare] at ab bc ⊢
    refine Nat.le_of_mul_le_mul_right ?_ b.positive
    calc c.benefitMilli.natAbs * a.expectedDurationMs * b.expectedDurationMs
        = c.benefitMilli.natAbs * b.expectedDurationMs * a.expectedDurationMs := by ring
      _ ≤ b.benefitMilli.natAbs * c.expectedDurationMs * a.expectedDurationMs :=
        Nat.mul_le_mul_right _ bc
      _ = b.benefitMilli.natAbs * a.expectedDurationMs * c.expectedDurationMs := by ring
      _ ≤ a.benefitMilli.natAbs * b.expectedDurationMs * c.expectedDurationMs :=
        Nat.mul_le_mul_right _ ab
      _ = a.benefitMilli.natAbs * c.expectedDurationMs * b.expectedDurationMs := by ring

/-- The part of a tier a candidate is in, with what orders it there. -/
inductive TierPart
  | scored (totalScore : Int)
  | judged (benefit : KnownBenefit)
  | released

namespace TierPart

def order : TierPart → TierPart → Ordering
  | scored a, scored b => compare b a
  | judged a, judged b => a.order b
  | scored _, _ | judged _, released => .lt
  | released, released => .eq
  | _, _ => .gt

instance order_trans : TransCmp order where
  eq_swap {a b} := by
    cases a <;> cases b <;> simp [order, Ordering.swap]
    · exact OrientedCmp.eq_swap
    · exact OrientedCmp.eq_swap
  isLE_trans {a b c} ab bc := by
    cases a <;> cases b <;> cases c <;> simp_all only [order, Ordering.isLE_lt, Ordering.isLE_gt,
      Bool.false_eq_true]
    · exact TransCmp.isLE_trans bc ab
    · exact TransCmp.isLE_trans ab bc

end TierPart

def PlacementCandidate.tierPart (candidate : PlacementCandidate) : TierPart :=
  match candidate.benefit with
  | some benefit => .judged benefit
  | none => if candidate.zeroTier then .released else .scored candidate.totalScore

/-- The value of a candidate is compared only within its part of the tier. -/
theorem lexKeys_tierPart :
    lexKeys [compareOn (·.zeroTier), compareOn (·.benefit.isSome), valueOrder] left right =
      left.tierPart.order right.tierPart := by
  have first := left.released
  have second := right.released
  unfold PlacementCandidate.tierPart
  cases a : left.zeroTier <;> cases b : right.zeroTier <;> cases c : left.benefit <;>
    cases d : right.benefit <;>
    simp_all [lexKeys, compareOn, valueOrder, TierPart.order, greaterFirst] <;> rfl

lemma allocationOrder_tiers : allocationOrder true =
    lexKeys [greaterFirst fun candidate => candidate.promoted && !candidate.zeroTier,
      compareOn (·.business), onKey TierPart.order (·.tierPart),
      greaterFirst (·.affinity), onKey TieKey.order (·.tie),
      compareOn (·.tieBreaker), compareOn (·.taskId), compareOn (·.instanceId)] := by
  funext left right
  have part : lexKeys [compareOn (·.zeroTier), compareOn (·.benefit.isSome), valueOrder]
      left right = onKey TierPart.order (·.tierPart) left right := lexKeys_tierPart left right
  simp [allocationOrder, cons_append, nil_append, lexKeys, ← part, Ordering.then_eq,
    Ordering.then_assoc]

instance allocationOrder_trans (tiers : Bool) : TransCmp (allocationOrder tiers) := by
  cases tiers with
  | false =>
    refine lexKeys_trans ?_
    simp only [Bool.false_eq_true, if_false, cons_append, nil_append,
      forall_mem_cons, not_mem_nil, false_imp_iff, implies_true, and_true]
    exact ⟨inferInstance, inferInstance, inferInstance, inferInstance, inferInstance, inferInstance,
      inferInstance⟩
  | true =>
    rw [allocationOrder_tiers]
    refine lexKeys_trans ?_
    simp only [forall_mem_cons, not_mem_nil, false_imp_iff, implies_true, and_true]
    exact ⟨inferInstance, inferInstance, inferInstance, inferInstance, inferInstance, inferInstance,
      inferInstance, inferInstance⟩

/-- Only the pair of task and instance keeps two candidates level. -/
theorem ids_of_level {tiers : Bool} {a b} (level : allocationOrder tiers a b = .eq) :
    a.taskId = b.taskId ∧ a.instanceId = b.instanceId := by
  have each := lexKeys_eq_eq_iff.mp level
  have tasks := each (compareOn (·.taskId)) (by simp)
  have instances := each (compareOn (·.instanceId)) (by simp)
  exact ⟨LawfulEqCmp.eq_of_compare tasks, LawfulEqCmp.eq_of_compare instances⟩

/-- A released candidate goes after every other one. -/
theorem released_last {released other} (zero : released.zeroTier = true)
    (above : other.zeroTier = false) : allocationOrder true other released = .lt := by
  have business := (released.released zero).1
  simp only [allocationOrder, if_true, cons_append, nil_append, lexKeys, greaterFirst,
    compareOn, zero, above, business, Bool.not_true, Bool.and_false]
  cases other.promoted <;> cases other.business <;> rfl

/-- The order in which a round places its candidates. -/
def sortCandidates (candidates : List PlacementCandidate) : List PlacementCandidate :=
  candidates.insertionSort fun a b => (allocationOrder tiers a b).isLE = true

/-- Among candidates with a pair of task and instance of their own, the allocation order is a
strict total order, so the round's order is theirs alone; released ones go last. -/
theorem allocationOrder_total (tiers : Bool) :
    (∀ a, allocationOrder tiers a a ≠ .lt) ∧
    (∀ a b c, allocationOrder tiers a b = .lt → allocationOrder tiers b c = .lt →
      allocationOrder tiers a c = .lt) ∧
    (∀ a b : PlacementCandidate, (a.taskId, a.instanceId) ≠ (b.taskId, b.instanceId) →
      allocationOrder tiers a b = .lt ∨ allocationOrder tiers b a = .lt) ∧
    (∀ candidates others : List PlacementCandidate, candidates.Perm others →
      (candidates.map fun candidate => (candidate.taskId, candidate.instanceId)).Nodup →
      sortCandidates tiers candidates = sortCandidates tiers others) ∧
    ∀ released other : PlacementCandidate, released.zeroTier = true → other.zeroTier = false →
      allocationOrder true other released = .lt := by
  refine ⟨fun a => ?_, fun a b c ab bc => TransCmp.lt_trans ab bc, fun a b apart => ?_, ?_,
    fun released other => released_last⟩
  · rw [@ReflCmp.compare_self _ (allocationOrder tiers) _ a]
    decide
  · cases order : allocationOrder tiers a b with
    | lt => exact Or.inl rfl
    | eq => exact absurd (Prod.ext_iff.mpr (ids_of_level order)) apart
    | gt => exact Or.inr (OrientedCmp.lt_of_gt order)
  · intro candidates others same apart
    refine insertionSort_eq_of_perm same fun a ha b hb level => ?_
    exact inj_on_of_nodup_map apart ha hb (Prod.ext_iff.mpr (ids_of_level level))

/-- A maintenance task and a business task released inside its rounding error. -/
def cleanup : PlacementCandidate :=
  ⟨0, "cleanup", "alpha", 0, false, false, false, none, false,
    ⟨.unknown, none, none, none, 0, 0⟩, 0, fun zero => Bool.noConfusion zero⟩

def craft : PlacementCandidate :=
  ⟨1, "craft", "alpha", 9, true, true, true, none, true,
    ⟨.unknown, none, none, none, 0, 1⟩, 0, fun _ => ⟨rfl, rfl⟩⟩

theorem craft_after_cleanup : sortCandidates true [craft, cleanup] =
    sortCandidates true [cleanup, craft] ∧ allocationOrder true cleanup craft = .lt := by
  have total := allocationOrder_total true
  exact ⟨total.2.2.2.1 _ _ (List.Perm.swap _ _ _) (by decide), total.2.2.2.2 craft cleanup rfl rfl⟩

end Policy
