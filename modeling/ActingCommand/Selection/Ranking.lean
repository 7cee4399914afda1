import ActingCommand.SortKeys
import ActingCommand.Selection.Evaluator

/-!
# The ranking

The survivors of one evaluation are ranked by one total preorder on the scored
candidates: the score, the declared keys with unknown values last, the identifier. A
document that ends its keys with the identifier never leaves the cut ambiguous.
-/

namespace Selection

open Std SortKeys List ScalarValue

/-! ## Scalar values -/

instance : OrientedCmp ScalarValue.cmp where
  eq_swap {a b} := by
    cases a <;> cases b <;> simp only [ScalarValue.cmp, Ordering.swap] <;>
      exact OrientedCmp.eq_swap

instance : TransCmp ScalarValue.cmp where
  isLE_trans {a b c} ab bc := by
    cases a <;> cases b <;> cases c <;>
      simp only [ScalarValue.cmp, Ordering.isLE_lt, Ordering.isLE_gt, reduceCtorEq] at ab bc ⊢ <;>
      exact TransCmp.isLE_trans ab bc

/-! ## Scored candidates -/

abbrev Scored := Candidate × Int

/-- The order of two known values in a direction. -/
def SortDirection.cmp : SortDirection → ScalarValue → ScalarValue → Ordering
  | highestFirst, a, b => ScalarValue.cmp b a
  | lowestFirst, a, b => ScalarValue.cmp a b

def TieBreakKey.direction : TieBreakKey → SortDirection
  | candidateId direction | value _ direction => direction

section Order

variable (policy : SelectionPolicy) (resolver : Resolver)

def rankedOf (entry : Scored) : Ranked :=
  ⟨entry.1.candidateId, entry.2, policy.tieBreak.map (tieBreakValue entry.1 resolver)⟩

def keyOrder (key : TieBreakKey) (left right : Scored) : Ordering :=
  compareKey (tieBreakValue left.1 resolver key) (tieBreakValue right.1 resolver key)

def scoreOrder (left right : Scored) : Ordering := compare right.2 left.2

def idOrder (left right : Scored) : Ordering := compare left.1.candidateId right.1.candidateId

/-- Higher scores first, then the declared keys, then the identifier. -/
def rankOrder : Scored → Scored → Ordering :=
  lexKeys (scoreOrder :: policy.tieBreak.map (keyOrder resolver) ++ [idOrder])

end Order

variable {policy : SelectionPolicy} {resolver : Resolver}

section

variable (left right : Except UnknownReason ScalarValue)

lemma compareKey_highestFirst : compareKey (left, .highestFirst) (right, .highestFirst) =
      unknownLast (fun a b => cmp b a) left right := by
  cases left <;> cases right <;> rfl

lemma compareKey_lowestFirst : compareKey (left, .lowestFirst) (right, .lowestFirst) =
      unknownLast cmp left right := by
  cases left <;> cases right <;> rfl

end

instance : TransCmp scoreOrder :=
  inferInstanceAs (TransCmp fun left right : Scored => compareOn Prod.snd right left)

instance : TransCmp idOrder :=
  inferInstanceAs (TransCmp (compareOn fun entry : Scored => entry.1.candidateId))

/-- A key orders the candidates by its value, in its direction, unknown values last. -/
theorem keyOrder_eq (key : TieBreakKey) (left right : Scored) :
    keyOrder resolver key left right =
      unknownLast key.direction.cmp (tieBreakValue left.1 resolver key).1
        (tieBreakValue right.1 resolver key).1 := by
  have declared (entry : Scored) : tieBreakValue entry.1 resolver key =
      ((tieBreakValue entry.1 resolver key).1, key.direction) := by
    cases key <;> rfl
  rw [keyOrder, declared left, declared right]
  cases key.direction with
  | highestFirst => exact compareKey_highestFirst _ _
  | lowestFirst => exact compareKey_lowestFirst _ _

instance (direction : SortDirection) : TransCmp direction.cmp := by
  cases direction with
  | highestFirst => exact inferInstanceAs (TransCmp fun a b => ScalarValue.cmp b a)
  | lowestFirst => exact inferInstanceAs (TransCmp ScalarValue.cmp)

instance (key : TieBreakKey) : TransCmp (keyOrder resolver key) where
  eq_swap {left right} := by
    rw [keyOrder_eq, keyOrder_eq]
    exact OrientedCmp.eq_swap
  isLE_trans {left middle right} := by
    rw [keyOrder_eq, keyOrder_eq, keyOrder_eq]
    exact TransCmp.isLE_trans

instance : TransCmp (rankOrder policy resolver) := by
  refine lexKeys_trans fun cmp listed => ?_
  simp only [cons_append, mem_cons, mem_append, List.mem_map, not_mem_nil, or_false] at listed
  rcases listed with rfl | ⟨key, -, rfl⟩ | rfl
  · infer_instance
  · infer_instance
  · infer_instance

lemma compareKeyLists_eq (keys : List TieBreakKey) (left right : Scored) :
    compareKeyLists (keys.map (tieBreakValue left.1 resolver))
        (keys.map (tieBreakValue right.1 resolver)) =
      lexKeys (keys.map (keyOrder resolver)) left right := by
  induction keys with
  | nil => rfl
  | cons key rest ih => simp [map_cons, compareKeyLists, lexKeys, ih, keyOrder]

lemma compareRanked_rankedOf (left right : Scored) :
    compareRanked (rankedOf policy resolver left) (rankedOf policy resolver right) =
      rankOrder policy resolver left right := by
  simp only [compareRanked, rankedOf, compareKeys, compareKeyLists_eq, rankOrder,
    cons_append, lexKeys, lexKeys_append, Ordering.then_eq]
  rfl

lemma sortRanked_rankedOf (entries : List Scored) :
    sortRanked (entries.map (rankedOf policy resolver)) =
      (entries.insertionSort fun left right =>
        (rankOrder policy resolver left right).isLE = true).map (rankedOf policy resolver) := by
  refine (map_insertionSort _ _ _ _ fun left _ right _ => ?_).symm
  rw [compareRanked_rankedOf]

variable {left right : Scored}

/-- Two candidates that the ranking does not separate have one identifier. -/
theorem candidateId_of_rankOrder (same : rankOrder policy resolver left right = .eq) :
    left.1.candidateId = right.1.candidateId := by
  have last := lexKeys_eq_eq_iff.mp same idOrder (by simp)
  exact LawfulEqCmp.eq_of_compare last

/-- A document with the identifier among its keys ties no two candidates. -/
theorem candidateId_of_tied {direction}
    (declared : TieBreakKey.candidateId direction ∈ policy.tieBreak)
    (same : tied (rankedOf policy resolver left) (rankedOf policy resolver right) = true) :
    left.1.candidateId = right.1.candidateId := by
  simp only [tied, compareKeys, rankedOf, compareKeyLists_eq, Bool.and_eq_true,
    decide_eq_true_eq] at same
  have key := lexKeys_eq_eq_iff.mp same.2 (keyOrder resolver (.candidateId direction))
    (List.mem_map_of_mem declared)
  cases direction with
  | highestFirst =>
    have ids : compare right.1.candidateId left.1.candidateId = .eq := key
    exact (LawfulEqCmp.eq_of_compare ids).symm
  | lowestFirst =>
    have ids : compare left.1.candidateId right.1.candidateId = .eq := key
    exact LawfulEqCmp.eq_of_compare ids

lemma rankOrder_of_score (higher : right.2 < left.2) :
    rankOrder policy resolver left right = .lt := by
  have first : scoreOrder left right = .lt := Int.compare_eq_lt.mpr higher
  rw [rankOrder, cons_append, lexKeys, first]
  rfl

lemma score_le_of_rankOrder (before : rankOrder policy resolver left right = .lt) :
    right.2 ≤ left.2 := by
  by_contra lower
  have first : scoreOrder left right = .gt := Int.compare_eq_gt.mpr (by omega)
  rw [rankOrder, cons_append, lexKeys, first] at before
  cases before

/-- Equal scores under a document whose first key is the identifier, lowest first. -/
theorem rankOrder_of_id (same : left.2 = right.2)
    (firstKey : policy.tieBreak.head? = some (.candidateId .lowestFirst))
    (lower : compare left.1.candidateId right.1.candidateId = .lt) :
    rankOrder policy resolver left right = .lt := by
  have score : scoreOrder left right = .eq := by
    rw [scoreOrder, same]
    exact ReflCmp.compare_self
  obtain ⟨rest, keys⟩ := head?_eq_some_iff.mp firstKey
  have id : keyOrder resolver (.candidateId .lowestFirst) left right = .lt := lower
  rw [rankOrder, keys, map_cons, cons_append, cons_append, lexKeys, score, lexKeys, id]
  rfl

/-- Other identifiers in the same order leave two scored candidates in the same order. -/
theorem rankOrder_renamed {left right otherLeft otherRight} {a b : Int}
    (sameLeft : otherLeft.fields = left.fields) (sameRight : otherRight.fields = right.fields)
    (ids : compare otherLeft.candidateId otherRight.candidateId =
      compare left.candidateId right.candidateId) :
    rankOrder policy resolver (otherLeft, a) (otherRight, b) =
      rankOrder policy resolver (left, a) (right, b) := by
  have swapped : compare otherRight.candidateId otherLeft.candidateId =
      compare right.candidateId left.candidateId := by
    calc
      compare otherRight.candidateId otherLeft.candidateId
        = (compare otherLeft.candidateId otherRight.candidateId).swap := OrientedCmp.eq_swap
      _ = (compare left.candidateId right.candidateId).swap := by rw [ids]
      _ = compare right.candidateId left.candidateId := OrientedCmp.eq_swap.symm
  have each (key : TieBreakKey) : keyOrder resolver key (otherLeft, a) (otherRight, b) =
      keyOrder resolver key (left, a) (right, b) := by
    obtain ⟨leftId, leftFields⟩ := left
    obtain ⟨rightId, rightFields⟩ := right
    obtain ⟨otherLeftId, otherLeftFields⟩ := otherLeft
    obtain ⟨otherRightId, otherRightFields⟩ := otherRight
    obtain rfl : otherLeftFields = leftFields := sameLeft
    obtain rfl : otherRightFields = rightFields := sameRight
    cases key with
    | value value direction => rfl
    | candidateId direction =>
      cases direction with
      | highestFirst => exact swapped
      | lowestFirst => exact ids
  have keys : lexKeys (policy.tieBreak.map (keyOrder resolver)) (otherLeft, a) (otherRight, b) =
      lexKeys (policy.tieBreak.map (keyOrder resolver)) (left, a) (right, b) := by
    induction policy.tieBreak with
    | nil => rfl
    | cons key rest ih => simp [map_cons, lexKeys, each, ih]
  simp [rankOrder, cons_append, lexKeys, lexKeys_append, keys, idOrder, ids, scoreOrder]

/-! ## The candidate that ranks first -/

variable (policy resolver) in
/-- The entry ranks strictly before every other candidate. -/
def Leads (entries : List Scored)
    (top : Scored) : Prop :=
  top ∈ entries ∧ ∀ other ∈ entries, other.1.candidateId ≠ top.1.candidateId →
    rankOrder policy resolver top other = .lt

variable {entries : List Scored}

lemma leads_of_sorted {rest} {first : Scored}
    (sorted : entries.insertionSort (fun left right =>
      (rankOrder policy resolver left right).isLE = true) = first :: rest) :
    Leads policy resolver entries first := by
  obtain ⟨inside, below⟩ := head_isLE sorted
  refine ⟨inside, fun other listed apart => ?_⟩
  rcases Ordering.isLE_iff_eq_lt_or_eq_eq.mp (below other listed) with before | same
  · exact before
  · exact absurd (candidateId_of_rankOrder same).symm apart

lemma exists_leads {entry : Scored} (inside : entry ∈ entries) :
    ∃ top, Leads policy resolver entries top := by
  cases sorted : entries.insertionSort
      (fun left right => (rankOrder policy resolver left right).isLE = true) with
  | nil =>
    have same := perm_insertionSort
      (fun left right => (rankOrder policy resolver left right).isLE = true) entries
    rw [sorted] at same
    exact absurd (same.symm.subset inside) not_mem_nil
  | cons first rest => exact ⟨first, leads_of_sorted sorted⟩

lemma Leads.unique {top other : Scored} (leads : Leads policy resolver entries top)
    (also : Leads policy resolver entries other) : top.1.candidateId = other.1.candidateId := by
  by_contra apart
  have before := leads.2 other also.1 fun same => apart same.symm
  have after := also.2 top leads.1 apart
  rw [@OrientedCmp.eq_swap _ (rankOrder policy resolver), before] at after
  cases after

lemma requestedCount_one {selection} {surviving : Nat} (one : selection.requiredCount = 1)
    (some : 0 < surviving) : requestedCount selection surviving = 1 := by
  unfold requestedCount
  cases selection.mode with
  | exactlyOne => rfl
  | topK => exact one
  | noneAllowed =>
    simp only [one]
    omega

/-- A document that requires one candidate and has the identifier among its keys chooses the
candidate that ranks first. -/
theorem decideSurvivors_leads {header reasons verdicts entries} {top : Scored} {direction}
    (one : policy.selection.requiredCount = 1)
    (declared : TieBreakKey.candidateId direction ∈ policy.tieBreak)
    (distinct : (entries.map fun entry => entry.1.candidateId).Nodup)
    (leads : Leads policy resolver entries top) :
    (decideSurvivors policy header reasons verdicts
        (entries.map (rankedOf policy resolver))).outcome = .selected 1 ∧
      (decideSurvivors policy header reasons verdicts
        (entries.map (rankedOf policy resolver))).selected = [top.1.candidateId] := by
  have same := perm_insertionSort
    (fun left right => (rankOrder policy resolver left right).isLE = true) entries
  cases sorted : entries.insertionSort
    (fun left right => (rankOrder policy resolver left right).isLE = true) with
  | nil =>
    rw [sorted] at same
    exact absurd (same.symm.subset leads.1) (not_mem_nil)
  | cons first rest =>
    rw [sorted] at same
    have chosen := (leads_of_sorted sorted).unique leads
    have survivors : sortRanked (entries.map (rankedOf policy resolver)) =
        rankedOf policy resolver first :: rest.map (rankedOf policy resolver) := by
      rw [sortRanked_rankedOf, sorted, map_cons]
    have count : requestedCount policy.selection
        (sortRanked (entries.map (rankedOf policy resolver))).length = 1 :=
      requestedCount_one one (by simp [survivors])
    -- The first two survivors are different candidates, so the identifier separates them.
    have separated : cutTie (rankedOf policy resolver first :: rest.map (rankedOf policy resolver))
        1 = none := by
      cases rest with
      | nil => rfl
      | cons next others =>
        have apart : first.1.candidateId ≠ next.1.candidateId := by
          have nodup := (same.map fun entry : Scored => entry.1.candidateId).nodup_iff.mpr distinct
          simp only [map_cons, nodup_cons, mem_cons, not_or] at nodup
          exact nodup.1.1
        have untied : tied (rankedOf policy resolver first) (rankedOf policy resolver next) ≠
            true := fun both => apart (candidateId_of_tied declared both)
        simp [cutTie, untied]
    have outcome : outcomeOf (rankedOf policy resolver first ::
        rest.map (rankedOf policy resolver)) 1 = .selected 1 := by
      simp [outcomeOf, separated]
    simp only [decideSurvivors, finish, count]
    rw [survivors, outcome]
    exact ⟨rfl, by simp [selectedOf, rankedOf, chosen]⟩

end Selection
