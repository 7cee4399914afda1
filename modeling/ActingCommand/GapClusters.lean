import Mathlib

/-!
# Clusters along a line

Items in ascending order of an integer key are split into clusters: a new one starts where two
neighbours lie further apart than a gap. Adjacent clusters whose medians lie close are then
merged, the first two that do, until none is left. Split and merge look at nothing but the keys,
so two runs over items with the same keys go alike.
-/

namespace GapClusters

open List Option

variable {α β : Type*}

/-- Adds one item to the last cluster when it lies within the gap of its last member. -/
def push (key : α → Int) (gap : Int) (clusters : List (List α)) (item : α) : List (List α) :=
  match clusters.getLast? with
  | some cluster =>
    match cluster.getLast? with
    | some last =>
      if key item - key last ≤ gap then clusters.dropLast ++ [cluster ++ [item]]
      else clusters ++ [[item]]
    | none => clusters ++ [[item]]
  | none => clusters ++ [[item]]

/-- The clusters of items in ascending order. -/
def split (key : α → Int) (gap : Int) (items : List α) : List (List α) :=
  items.foldl (push key gap) []

/-- The key of the lower median of a cluster in ascending order. -/
def median (key : α → Int) (cluster : List α) : Int :=
  (cluster[(cluster.length - 1) / 2]?).elim 0 key

/-- Merges the first two adjacent clusters whose medians lie within the bound. -/
def mergeFirst (key : α → Int) (bound : Int) : List (List α) → Option (List (List α))
  | left :: right :: rest =>
    if |median key right - median key left| ≤ bound then some ((left ++ right) :: rest)
    else (mergeFirst key bound (right :: rest)).map (left :: ·)
  | _ => none

/-- At most `fuel` merges, until no two adjacent clusters merge. -/
def mergeAll (key : α → Int) (bound : Int) : Nat → List (List α) → List (List α)
  | 0, clusters => clusters
  | fuel + 1, clusters =>
    match mergeFirst key bound clusters with
    | some merged => mergeAll key bound fuel merged
    | none => clusters

/-- A merge makes at most one cluster out of two, so as many merges as clusters suffice. -/
def merge (key : α → Int) (bound : Int) (clusters : List (List α)) : List (List α) :=
  mergeAll key bound clusters.length clusters

variable {items : List α} {clusters : List (List α)}

/-! ## One push -/

section Push

variable {key : α → Int} {gap : Int}

lemma push_concat (done : List (List α)) (cluster : List α) (last item : α) :
    push key gap (done ++ [cluster ++ [last]]) item =
      if key item - key last ≤ gap then done ++ [cluster ++ [last] ++ [item]]
      else done ++ [cluster ++ [last]] ++ [[item]] := by
  simp [push]

/-- What the clusters of a sorted list keep while they are built: they hold the items in order,
none is empty, and every cluster lies below the next ones. -/
structure Built (key : α → Int) (items : List α) (clusters : List (List α)) : Prop where
  flatten : clusters.flatten = items
  nonempty : ∀ cluster ∈ clusters, cluster ≠ []
  apart : clusters.Pairwise fun low high => ∀ x ∈ low, ∀ y ∈ high, key x < key y

/-- A list of clusters is empty, or its last cluster has a last item. -/
theorem Built.cases (built : Built key items clusters) :
    clusters = [] ∨ ∃ done cluster last, clusters = done ++ [cluster ++ [last]] := by
  rcases eq_nil_or_concat' clusters with rfl | ⟨done, cluster, rfl⟩
  · exact .inl rfl
  rcases eq_nil_or_concat' cluster with rfl | ⟨init, last, rfl⟩
  · exact absurd rfl (built.nonempty [] (by simp))
  · exact .inr ⟨done, init, last, rfl⟩

lemma Built.push {item : α} (built : Built key items clusters) (spread : 0 ≤ gap)
    (ordered : (items ++ [item]).Pairwise fun x y => key x ≤ key y) :
    Built key (items ++ [item]) (push key gap clusters item) := by
  have above : ∀ x ∈ items, key x ≤ key item := fun x listed =>
    (pairwise_append.mp ordered).2.2 x listed item (by simp)
  rcases built.cases with rfl | ⟨done, cluster, last, rfl⟩
  · have empty : items = [] := built.flatten.symm
    subst empty
    exact ⟨rfl, by simp [push], by simp [push]⟩
  have flat := built.flatten
  have separate := pairwise_append.mp built.apart
  rw [push_concat]
  split
  · -- the item joins the last cluster, which lies above the ones before it
    refine ⟨by simp [← flat], ?_, ?_⟩
    · intro other listed
      rcases mem_append.mp listed with early | late
      · exact built.nonempty other (mem_append_left _ early)
      · rw [mem_singleton.mp late]
        simp
    refine pairwise_append.mpr ⟨separate.1, pairwise_singleton _ _, ?_⟩
    intro low early high late x inLow y inHigh
    rw [mem_singleton.mp late] at inHigh
    rcases mem_append.mp inHigh with held | new
    · exact separate.2.2 low early (cluster ++ [last]) (by simp) x inLow y held
    obtain rfl := mem_singleton.mp new
    have below := separate.2.2 low early (cluster ++ [last]) (by simp) x inLow last (by simp)
    have upTo := above last (by simp [← flat])
    omega
  -- the item starts a cluster, above the last item and so above every one
  rename_i far
  refine ⟨by simp [← flat], ?_, ?_⟩
  · intro other listed
    rcases mem_append.mp listed with early | late
    · exact built.nonempty other early
    · rw [mem_singleton.mp late]
      simp
  refine pairwise_append.mpr ⟨built.apart, pairwise_singleton _ _, ?_⟩
  intro low early high late x inLow y inHigh
  rw [mem_singleton.mp late, mem_singleton] at inHigh
  subst inHigh
  have listed : x ∈ items := flat ▸ mem_flatten_of_mem early inLow
  have upTo : key x ≤ key last := by
    have sorted := (pairwise_append.mp ordered).1
    rw [← flat, flatten_append, flatten_singleton, ← append_assoc] at sorted
    rw [← flat, flatten_append, flatten_singleton, ← append_assoc] at listed
    rcases mem_append.mp listed with before | same
    · exact (pairwise_append.mp sorted).2.2 x before last (by simp)
    · rw [mem_singleton.mp same]
  omega

theorem built_split (spread : 0 ≤ gap) (ordered : items.Pairwise fun x y => key x ≤ key y) :
    Built key items (split key gap items) := by
  induction items using reverseRecOn with
  | nil => exact ⟨rfl, by simp [split], by simp [split]⟩
  | append_singleton items item ih =>
    have built := ih (pairwise_append.mp ordered).1
    rw [split, foldl_append]
    exact built.push spread ordered

end Push

/-! ## The split by keys -/

section Keys

variable {key : α → Int} {gap : Int}

lemma push_map (clusters : List (List α)) (item : α) :
    push id gap (clusters.map (map key)) (key item) =
      (push key gap clusters item).map (map key) := by
  simp only [push, getLast?_map]
  cases clusters.getLast? with
  | none => simp
  | some cluster =>
    simp only [map_some, getLast?_map]
    cases cluster.getLast? with
    | none => simp
    | some last =>
      simp only [map_some, id]
      split
      · simp
      · simp

/-- The keys of the clusters are the clusters of the keys. -/
theorem map_split (items : List α) :
    (split key gap items).map (map key) = split id gap (items.map key) := by
  induction items using reverseRecOn with
  | nil => rfl
  | append_singleton items item ih =>
    rw [split, foldl_append, map_append, split, foldl_append]
    simp only [foldl_cons, foldl_nil, map_cons, map_nil]
    rw [← push_map]
    exact congrArg (push id gap · (key item)) ih

/-- Each of several lists that lie apart is the filter of their concatenation by its keys. -/
theorem eq_filter_of_apart
    (apart : clusters.Pairwise fun low high => ∀ x ∈ low, ∀ y ∈ high, key x < key y)
    {cluster : List α} (listed : cluster ∈ clusters) :
    cluster = clusters.flatten.filter fun item => decide (key item ∈ cluster.map key) := by
  induction clusters with
  | nil => cases listed
  | cons head rest ih =>
    obtain ⟨above, apart⟩ := pairwise_cons.mp apart
    rw [flatten_cons, filter_append]
    rcases mem_cons.mp listed with rfl | later
    · have own : cluster.filter (fun item => decide (key item ∈ cluster.map key)) = cluster :=
        filter_eq_self.mpr fun item held => decide_eq_true (mem_map_of_mem held)
      have none : rest.flatten.filter (fun item => decide (key item ∈ cluster.map key)) = [] := by
        refine filter_eq_nil_iff.mpr fun item held => ?_
        obtain ⟨other, inRest, inOther⟩ := mem_flatten.mp held
        simp only [decide_eq_true_eq]
        intro shared
        obtain ⟨same, inCluster, equal⟩ := mem_map.mp shared
        have := above other inRest same inCluster item inOther
        omega
      rw [own, none, append_nil]
    · have none : head.filter (fun item => decide (key item ∈ cluster.map key)) = [] := by
        refine filter_eq_nil_iff.mpr fun item held => ?_
        simp only [decide_eq_true_eq]
        intro shared
        obtain ⟨same, inCluster, equal⟩ := mem_map.mp shared
        have := above cluster later item held same inCluster
        omega
      rw [none, nil_append]
      exact ih apart later

/-- The split is a filter of the items by the clusters of their keys. -/
theorem split_eq_filter (spread : 0 ≤ gap) (ordered : items.Pairwise fun x y => key x ≤ key y) :
    split key gap items = (split id gap (items.map key)).map fun keys =>
      items.filter fun item => decide (key item ∈ keys) := by
  have built := built_split spread ordered
  rw [← map_split, List.map_map]
  refine (map_id'' (fun cluster => rfl) _).symm.trans (map_congr_left fun cluster listed => ?_)
  have own := eq_filter_of_apart built.apart listed
  rwa [built.flatten] at own

end Keys

/-! ## Merges -/

section Merges

variable {key : α → Int} {bound : Int}

/-- A merge appends two adjacent clusters and leaves the others. -/
theorem mergeFirst_cases {merged : List (List α)}
    (done : mergeFirst key bound clusters = some merged) :
    ∃ before left right after, clusters = before ++ left :: right :: after ∧
      merged = before ++ (left ++ right) :: after := by
  induction clusters generalizing merged with
  | nil => cases done
  | cons left rest ih =>
    cases rest with
    | nil => cases done
    | cons right rest =>
      rw [mergeFirst] at done
      split at done
      · exact ⟨[], left, right, rest, rfl, (some.inj done).symm⟩
      obtain ⟨later, found, rfl⟩ := map_eq_some_iff.mp done
      obtain ⟨before, first, second, after, shape, rfl⟩ := ih found
      exact ⟨left :: before, first, second, after, by rw [shape]; rfl, rfl⟩

/-- Whatever every merge keeps, all merges keep. -/
theorem mergeAll_invariant {P : List (List α) → Prop} {fuel : Nat}
    (kept : ∀ before left right after, P (before ++ left :: right :: after) →
      P (before ++ (left ++ right) :: after))
    (holds : P clusters) : P (mergeAll key bound fuel clusters) := by
  induction fuel generalizing clusters with
  | zero => exact holds
  | succ fuel ih =>
    rw [mergeAll]
    split
    · rename_i merged done
      obtain ⟨before, left, right, after, rfl, rfl⟩ := mergeFirst_cases done
      exact ih (kept before left right after holds)
    · exact holds

lemma flatten_merge (clusters : List (List α)) :
    (merge key bound clusters).flatten = clusters.flatten := by
  refine mergeAll_invariant (P := fun held => held.flatten = clusters.flatten) ?_ rfl
  intro before left right after same
  rw [← same]
  simp

lemma merge_nonempty (nonempty : ∀ cluster ∈ clusters, cluster ≠ []) :
    ∀ cluster ∈ merge key bound clusters, cluster ≠ [] := by
  refine mergeAll_invariant (P := fun held => ∀ cluster ∈ held, cluster ≠ []) ?_ nonempty
  intro before left right after full cluster listed
  rcases mem_append.mp listed with early | late
  · exact full cluster (mem_append_left _ early)
  rcases mem_cons.mp late with rfl | late
  · intro empty
    exact full left (by simp) (append_eq_nil_iff.mp empty).1
  · exact full cluster (by simp [late])

end Merges

/-! ## Two runs over the same keys -/

section Simulation

variable {keyA : α → Int} {keyB : β → Int} {bound : Int} {S : List α → List β → Prop}

lemma median_congr {left : List α} {right : List β} (same : left.map keyA = right.map keyB) :
    median keyA left = median keyB right := by
  have length : left.length = right.length := by
    simpa using congrArg length same
  have entry := congrArg (·[(left.length - 1) / 2]?) same
  simp only [getElem?_map] at entry
  rw [median, median, ← length]
  cases inLeft : left[(left.length - 1) / 2]? with
  | none =>
    cases inRight : right[(left.length - 1) / 2]? with
    | none => rfl
    | some other => simp [inLeft, inRight] at entry
  | some item =>
    cases inRight : right[(left.length - 1) / 2]? with
    | none => simp [inLeft, inRight] at entry
    | some other => simpa [inLeft, inRight] using entry

lemma rel_map_cons {left : List α} {right : List β} {lefts : Option (List (List α))}
    {rights : Option (List (List β))} (head : S left right)
    (related : Option.Rel (Forall₂ S) lefts rights) :
    Option.Rel (Forall₂ S) (lefts.map (left :: ·)) (rights.map (right :: ·)) := by
  cases related with
  | none => exact .none
  | some tail => exact .some (.cons head tail)

variable {lefts : List (List α)} {rights : List (List β)}

section

variable (keys : ∀ left right, S left right → left.map keyA = right.map keyB)
  (joined : ∀ left right left' right', S left right → S left' right' →
    S (left ++ left') (right ++ right'))
  (related : Forall₂ S lefts rights)

include keys joined related

/-- Two runs take the same first merge. -/
theorem mergeFirst_related :
    Option.Rel (Forall₂ S) (mergeFirst keyA bound lefts) (mergeFirst keyB bound rights) := by
  induction related with
  | nil => exact .none
  | cons head tail ih =>
    cases tail with
    | nil => exact .none
    | cons next tail =>
      rw [mergeFirst, mergeFirst, median_congr (keys _ _ head), median_congr (keys _ _ next)]
      split
      · exact .some (.cons (joined _ _ _ _ head next) tail)
      · exact rel_map_cons head ih

lemma mergeAll_related {fuel : Nat} :
    Forall₂ S (mergeAll keyA bound fuel lefts) (mergeAll keyB bound fuel rights) := by
  induction fuel generalizing lefts rights with
  | zero => exact related
  | succ fuel ih =>
    have step : Option.Rel (Forall₂ S) (mergeFirst keyA bound lefts)
        (mergeFirst keyB bound rights) :=
      mergeFirst_related keys joined related
    rw [mergeAll, mergeAll]
    cases merged : mergeFirst keyA bound lefts with
    | none =>
      rw [merged] at step
      cases other : mergeFirst keyB bound rights with
      | none => exact related
      | some later => rw [other] at step; cases step
    | some first =>
      rw [merged] at step
      cases other : mergeFirst keyB bound rights with
      | none => rw [other] at step; cases step
      | some later =>
        rw [other] at step
        cases step with
        | some both => exact ih both

lemma merge_related : Forall₂ S (merge keyA bound lefts) (merge keyB bound rights) := by
  rw [merge, merge, related.length_eq]
  exact mergeAll_related keys joined related

end

end Simulation

end GapClusters
