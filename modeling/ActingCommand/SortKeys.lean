import Mathlib

/-!
# Orders by keys

A comparison that puts unknown values last, and a comparison by a list of keys, the earlier ones
first. Both are total preorders when their parts are. A cut of a sorted list separates its two
parts unless the elements on either side of it are level.
-/

namespace SortKeys

open Std List TransCmp OrientedCmp

variable {ε α : Type*} {cmp : α → α → Ordering}

/-- Known values first, in their own order; unknown ones last and never apart. -/
def unknownLast (cmp : α → α → Ordering) : Except ε α → Except ε α → Ordering
  | .ok a, .ok b => cmp a b
  | .ok _, .error _ => .lt
  | .error _, .ok _ => .gt
  | .error _, .error _ => .eq

instance [OrientedCmp cmp] : OrientedCmp (@unknownLast ε α cmp) where
  eq_swap {a b} := by
    cases a <;> cases b <;> simp [unknownLast, Ordering.swap]
    exact eq_swap

instance [TransCmp cmp] : TransCmp (@unknownLast ε α cmp) where
  isLE_trans {a b c} ab bc := by
    cases a <;> cases b <;> cases c <;> simp_all [unknownLast]
    exact isLE_trans ab bc

/-- The first of the comparisons that tells the two apart. -/
def lexKeys : List (α → α → Ordering) → α → α → Ordering
  | [], _, _ => .eq
  | cmp :: cmps, a, b => (cmp a b).then (lexKeys cmps a b)

lemma lexKeys_append (cmps others : List (α → α → Ordering)) (a b : α) :
    lexKeys (cmps ++ others) a b = (lexKeys cmps a b).then (lexKeys others a b) := by
  induction cmps with
  | nil => rfl
  | cons cmp rest ih => simp [cons_append, lexKeys, ih, Ordering.then_assoc]

lemma lexKeys_eq_eq_iff {cmps : List (α → α → Ordering)} {a b : α} :
    lexKeys cmps a b = .eq ↔ ∀ cmp ∈ cmps, cmp a b = .eq := by
  induction cmps with
  | nil => simp [lexKeys]
  | cons cmp rest ih => simp [lexKeys, Ordering.then_eq_eq, ih]

lemma lexKeys_trans {cmps : List (α → α → Ordering)} (each : ∀ cmp ∈ cmps, TransCmp cmp) :
    TransCmp (lexKeys cmps) := by
  induction cmps with
  | nil => exact { eq_swap := rfl, isLE_trans := fun _ _ => rfl }
  | cons cmp rest ih =>
    have first := each cmp mem_cons_self
    have later := ih fun other listed => each other (mem_cons_of_mem _ listed)
    exact inferInstanceAs (TransCmp (compareLex cmp (lexKeys rest)))

def onKey {β : Type*} (cmp : β → β → Ordering) (key : α → β) (a b : α) : Ordering :=
  cmp (key a) (key b)

instance onKey_trans {β : Type*} {cmp : β → β → Ordering} [TransCmp cmp] (key : α → β) :
    TransCmp (onKey cmp key) where
  eq_swap {a b} := @eq_swap _ cmp _ (key a) (key b)
  isLE_trans ab bc := @isLE_trans _ cmp _ _ _ _ ab bc

def greaterFirst {β : Type*} [Ord β] (key : α → β) (a b : α) : Ordering :=
  compare (key b) (key a)

instance greaterFirst_trans {β : Type*} [Ord β] [TransOrd β] (key : α → β) :
    TransCmp (greaterFirst key) where
  eq_swap {a b} := @eq_swap β compare _ (key b) (key a)
  isLE_trans ab bc := @isLE_trans β compare _ _ _ _ bc ab

instance isTrans_isLE [TransCmp cmp] : IsTrans α fun a b => (cmp a b).isLE = true :=
  ⟨fun _ _ _ ab bc => isLE_trans ab bc⟩

instance total_isLE [OrientedCmp cmp] : Std.Total fun a b => (cmp a b).isLE = true where
  total a b := by
    rw [@eq_swap _ cmp _ b a]
    cases cmp a b <;> simp

/-- The first element of a sorted list is below every element of the list. -/
theorem head_isLE [TransCmp cmp] {l rest : List α} {first : α}
    (sorted : l.insertionSort (fun a b => (cmp a b).isLE = true) = first :: rest) :
    first ∈ l ∧ ∀ other ∈ l, (cmp first other).isLE = true := by
  have ordered := pairwise_insertionSort (fun a b => (cmp a b).isLE = true) l
  have same := perm_insertionSort (fun a b => (cmp a b).isLE = true) l
  rw [sorted] at ordered same
  refine ⟨same.subset mem_cons_self, fun other listed => ?_⟩
  rcases mem_cons.mp (same.symm.subset listed) with rfl | later
  · exact ReflCmp.isLE_rfl
  · exact rel_of_pairwise_cons ordered later

/-- What is never level with anything else is sorted in one way. -/
theorem insertionSort_eq_of_perm [TransCmp cmp] {l other : List α} (same : l.Perm other)
    (apart : ∀ a ∈ l, ∀ b ∈ l, cmp a b = .eq → a = b) :
    l.insertionSort (fun a b => (cmp a b).isLE = true) =
      other.insertionSort fun a b => (cmp a b).isLE = true := by
  have sorted := pairwise_insertionSort fun a b => (cmp a b).isLE = true
  have perm := perm_insertionSort fun a b => (cmp a b).isLE = true
  refine (((perm l).trans same).trans (perm other).symm).eq_of_pairwise ?_ (sorted l) (sorted other)
  intro a b left right ab ba
  have left := (perm l).mem_iff.mp left
  have right := same.mem_iff.mpr ((perm other).mem_iff.mp right)
  exact apart a left b right (isLE_antisymm ab ba)

/-! ## Cutting a sorted list -/

/-- More than `n` elements are level with one of the elements or before it, and fewer than
`n` are before it: what is level with it lies on both sides of a cut behind the first `n`. -/
def Straddles (cmp : α → α → Ordering) (l : List α) (n : Nat) : Prop :=
  ∃ a ∈ l, l.countP (fun b => cmp b a = .lt) < n ∧ n < l.countP fun b => (cmp b a).isLE

lemma straddles_perm {l other : List α} {n : Nat} (same : l.Perm other) :
    Straddles cmp l n ↔ Straddles cmp other n := by
  simp [Straddles, same.mem_iff, same.countP_eq]

lemma Straddles.bounds {l : List α} {n : Nat} (straddles : Straddles cmp l n) :
    0 < n ∧ n < l.length := by
  obtain ⟨a, -, fewer, more⟩ := straddles
  exact ⟨Nat.zero_lt_of_lt fewer, Nat.lt_of_lt_of_le more countP_le_length⟩

/-- The two parts of a sorted list, with the neighbours of the cut between them. -/
structure Cut (cmp : α → α → Ordering) (front back : List α) (last next : α) : Prop where
  last_mem : last ∈ front
  before : ∀ a ∈ front, (cmp a last).isLE = true
  next_mem : next ∈ back
  behind : ∀ b ∈ back, (cmp next b).isLE = true
  across : (cmp last next).isLE = true

lemma cut_of_pairwise [ReflCmp cmp] {l : List α} {n : Nat} {last next : α}
    (sorted : l.Pairwise fun a b => (cmp a b).isLE = true) (positive : 0 < n)
    (lastAt : l[n - 1]? = some last) (nextAt : l[n]? = some next) :
    Cut cmp (l.take n) (l.drop n) last next := by
  rw [pairwise_iff_getElem] at sorted
  obtain ⟨lastIn, rfl⟩ := List.getElem?_eq_some_iff.mp lastAt
  obtain ⟨nextIn, rfl⟩ := List.getElem?_eq_some_iff.mp nextAt
  have le {i j : Nat} (inside : i < l.length) (inside' : j < l.length) (order : i ≤ j) :
      (cmp l[i] l[j]).isLE = true := by
    rcases Nat.eq_or_lt_of_le order with rfl | before
    · exact ReflCmp.isLE_rfl
    · exact sorted i j inside inside' before
  refine ⟨?_, ?_, ?_, ?_, le _ _ (Nat.sub_le n 1)⟩
  · exact mem_take_iff_getElem.mpr ⟨n - 1, by omega, rfl⟩
  · intro a listed
    obtain ⟨i, inside, rfl⟩ := mem_take_iff_getElem.mp listed
    exact le _ _ (by omega)
  · exact mem_drop_iff_getElem.mpr ⟨0, by omega, rfl⟩
  intro b listed
  obtain ⟨i, inside, rfl⟩ := mem_drop_iff_getElem.mp listed
  exact le _ _ (by omega)

section Cut

variable [TransCmp cmp] {front back : List α} {last next : α}

/-- Neighbours that the order separates separate all that lies on their sides. -/
theorem Cut.lt_of_lt (cut : Cut cmp front back last next) (apart : cmp last next = .lt)
    {a b : α} (inFront : a ∈ front) (inBack : b ∈ back) : cmp a b = .lt :=
  lt_of_lt_of_isLE (lt_of_isLE_of_lt (cut.before a inFront) apart)
    (cut.behind b inBack)

/-- If the last element before the cut came before `a`, so would all of the front. -/
theorem Cut.not_lt (cut : Cut cmp front back last next) {a : α}
    (fewer : (front ++ back).countP (fun b => cmp b a = .lt) < front.length) :
    cmp last a ≠ .lt := by
  intro before
  have all : front.countP (fun b => cmp b a = .lt) = front.length := by
    rw [countP_eq_length]
    intro b listed
    exact decide_eq_true (lt_of_isLE_of_lt (cut.before b listed) before)
  rw [countP_append, all] at fewer
  omega

/-- If the first element behind the cut came behind `a`, so would all of the back. -/
theorem Cut.isLE (cut : Cut cmp front back last next) {a : α}
    (more : front.length < (front ++ back).countP fun b => (cmp b a).isLE) :
    (cmp next a).isLE = true := by
  by_contra behind
  have none : back.countP (fun b => (cmp b a).isLE) = 0 := by
    rw [countP_eq_zero]
    intro b listed level
    exact behind (isLE_trans (cut.behind b listed) level)
  have bound : front.countP (fun b => (cmp b a).isLE) ≤ front.length := countP_le_length
  rw [countP_append, none] at more
  omega

/-- Something straddles the cut exactly when its neighbours are level. -/
theorem Cut.straddles_iff (cut : Cut cmp front back last next) :
    Straddles cmp (front ++ back) front.length ↔ cmp last next = .eq := by
  constructor
  · rintro ⟨a, -, fewer, more⟩
    by_contra apart
    have strict : cmp last next = .lt :=
      (Ordering.isLE_iff_eq_lt_or_eq_eq.mp cut.across).resolve_right apart
    exact cut.not_lt fewer (lt_of_lt_of_isLE strict (cut.isLE more))
  · intro level
    have same : cmp next last = .eq := by
      rw [@eq_swap _ cmp, level]
      rfl
    refine ⟨last, mem_append_left _ cut.last_mem, ?_, ?_⟩
    · have none : back.countP (fun b => cmp b last = .lt) = 0 := by
        rw [countP_eq_zero]
        intro b listed before
        have wrong : cmp next last = .lt :=
          lt_of_isLE_of_lt (cut.behind b listed) (of_decide_eq_true before)
        rw [same] at wrong
        cases wrong
      have itself : front.countP (fun b => cmp b last = .lt) < front.length := by
        refine countP_lt_length_iff.mpr ⟨last, cut.last_mem, ?_⟩
        rw [@ReflCmp.compare_self _ cmp]
        rfl
      rw [countP_append, none]
      exact itself
    · have all : front.countP (fun b => (cmp b last).isLE) = front.length :=
        countP_eq_length.mpr cut.before
      have also : 0 < back.countP fun b => (cmp b last).isLE :=
        countP_pos_iff.mpr ⟨next, cut.next_mem, by rw [same]; rfl⟩
      rw [countP_append, all]
      omega

end Cut

end SortKeys
