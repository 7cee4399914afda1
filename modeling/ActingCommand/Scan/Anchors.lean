import ActingCommand.Scan.Geometry

/-!
# Settling: the core anchors of two captures

A frame is settled when two consecutive captures give the same core anchors. The test compares
each capture's anchors, sorted by axis and then cross, rank by rank; what it is meant to decide
is whether they can be paired one to one within the tolerance. The two differ when jitter along
the axis changes the order of anchors that lie apart across it; where no capture has such anchors,
a pairing is uncrossed step by step until it pairs rank with rank.
-/

namespace Scan

open List Prod

/-- The anchors of a capture inside the tracking area and the core, as axis and cross starts. -/
def keptAnchors (axis : ScanAxis) (geometry : ScanGeometry) (rects : List CandidateRect) :
    List (Int × Int) :=
  ((rects.map (AxisRect.of axis)).filter fun rect =>
    rect.within geometry.area && geometry.inCore rect.axis).map fun rect => (rect.axis, rect.cross)

/-- Two anchors differ by at most the tolerance on both axes. -/
def Near (tolerance : Nat) (before after : Int × Int) : Prop :=
  |before.1 - after.1| ≤ tolerance ∧ |before.2 - after.2| ≤ tolerance

instance (tolerance : Nat) (before after : Int × Int) : Decidable (Near tolerance before after) :=
  inferInstanceAs (Decidable (_ ∧ _))

/-- Two captures give the same core anchor set. -/
def sameCoreAnchors (axis : ScanAxis) (geometry : ScanGeometry)
    (previous current : List CandidateRect) : Bool :=
  let before := tupleSort (keptAnchors axis geometry previous)
  let after := tupleSort (keptAnchors axis geometry current)
  before.length == after.length &&
    (before.zip after).all fun pair => decide (Near geometry.tolerance pair.1 pair.2)

/-! ## Pairings -/

/-- A one-to-one pairing of two anchor lists, each pair within the tolerance. -/
structure Pairing (tolerance : Nat) (before after : List (Int × Int)) where
  pairs : List ((Int × Int) × (Int × Int))
  fst_perm : (pairs.map fst).Perm before
  snd_perm : (pairs.map snd).Perm after
  near : ∀ pair ∈ pairs, Near tolerance pair.1 pair.2

/-- Of two anchors within twice the tolerance along the axis, the one further along it does not lie
further back across it. -/
def Even (tolerance : Nat) (anchors : List (Int × Int)) : Prop :=
  ∀ a ∈ anchors, ∀ b ∈ anchors, a.1 < b.1 → b.1 ≤ a.1 + 2 * tolerance → a.2 ≤ b.2

instance (tolerance : Nat) (anchors : List (Int × Int)) : Decidable (Even tolerance anchors) :=
  inferInstanceAs (Decidable (∀ a ∈ anchors, ∀ b ∈ anchors, _))

lemma Even.mono {tolerance : Nat} {anchors others : List (Int × Int)} (even : Even tolerance others)
    (inside : anchors ⊆ others) : Even tolerance anchors :=
  fun a listed b listed' => even a (inside listed) b (inside listed')

/-! ## Uncrossing -/

variable {tolerance : Nat} {before after : List (Int × Int)}

lemma TupleLe.antisymm {a b : Int × Int} (left : TupleLe a b) (right : TupleLe b a) : a = b := by
  simp only [TupleLe] at left right
  exact Prod.ext (by omega) (by omega)

/-- Two pairs that cross exchange their partners. -/
theorem near_exchange {a b c d : Int × Int} (order : TupleLe a b) (order' : TupleLe c d)
    (first : Near tolerance a d) (second : Near tolerance b c)
    (even : a.1 < b.1 → b.1 ≤ a.1 + 2 * tolerance → a.2 ≤ b.2)
    (even' : c.1 < d.1 → d.1 ≤ c.1 + 2 * tolerance → c.2 ≤ d.2) :
    Near tolerance a c ∧ Near tolerance b d := by
  simp only [Near, abs_le, TupleLe] at *
  -- Crossing pairs lie within twice the tolerance along the axis, so they cross across it too.
  have left : a.2 ≤ b.2 := by omega
  have right : c.2 ≤ d.2 := by omega
  omega

/-- The partner of the first anchor takes its rank among the others. -/
theorem orderedInsert_near {a b : Int × Int} (near : Near tolerance a b)
    (ordered : (a :: before).Pairwise TupleLe) (even : Even tolerance (a :: before))
    (even' : Even tolerance (b :: after)) (paired : List.Forall₂ (Near tolerance) before after) :
    List.Forall₂ (Near tolerance) (a :: before) (after.orderedInsert TupleLe b) := by
  induction paired generalizing a with
  | nil => exact .cons near .nil
  | @cons c d before after head tail ih =>
    rw [orderedInsert_cons]
    split
    · exact .cons near (.cons head tail)
    rename_i crosses
    obtain ⟨first, rest⟩ := pairwise_cons.mp ordered
    have behind : TupleLe d b := (Std.Total.total d b).resolve_right crosses
    obtain ⟨near, head⟩ := near_exchange (first c mem_cons_self) behind near head
      (even a (by simp) c (by simp)) (even' d (by simp) b (by simp))
    refine .cons near (ih head rest (even.mono (subset_cons_self _ _)) (even'.mono ?_))
    exact cons_subset_cons _ (subset_cons_self _ _)

lemma tupleSort_near (ordered : before.Pairwise TupleLe) (even : Even tolerance before)
    (even' : Even tolerance after) (paired : List.Forall₂ (Near tolerance) before after) :
    List.Forall₂ (Near tolerance) before (tupleSort after) := by
  induction paired with
  | nil => exact .nil
  | @cons a b before after head tail ih =>
    have sorted := ih (pairwise_cons.mp ordered).2 (even.mono (subset_cons_self _ _))
      (even'.mono (subset_cons_self _ _))
    refine orderedInsert_near head ordered even (even'.mono ?_) sorted
    exact cons_subset_cons _ (tupleSort_perm after).subset

lemma tupleSort_eq_of_perm (same : before.Perm after) : tupleSort before = tupleSort after :=
  ((tupleSort_perm before).trans (same.trans (tupleSort_perm after).symm)).eq_of_pairwise
    (fun _ _ _ _ left right => left.antisymm right) (tupleSort_pairwise before)
    (tupleSort_pairwise after)

/-- A pairing, its crossings undone, pairs rank with rank. -/
theorem Pairing.ranks (pairing : Pairing tolerance before after) (even : Even tolerance before)
    (even' : Even tolerance after) :
    List.Forall₂ (Near tolerance) (tupleSort before) (tupleSort after) := by
  have pairs : List.Forall₂ (Near tolerance) (pairing.pairs.map fst) (pairing.pairs.map snd) := by
    rw [List.forall₂_map_left_iff, List.forall₂_map_right_iff, List.forall₂_same]
    exact pairing.near
  obtain ⟨partners, paired, same⟩ := List.perm_comp_forall₂
    ((tupleSort_perm before).trans pairing.fst_perm.symm) pairs
  have all := same.trans pairing.snd_perm
  rw [← tupleSort_eq_of_perm all]
  exact tupleSort_near (tupleSort_pairwise before) (even.mono (tupleSort_perm before).subset)
    (even'.mono all.subset) paired

/-- Where neither capture has anchors that jitter along the axis can exchange, the test decides
whether the core anchors pair one to one within the tolerance. -/
theorem same_core_anchors_decides_pairing (axis : ScanAxis) (geometry : ScanGeometry)
    (previous current : List CandidateRect)
    (even : Even geometry.tolerance (keptAnchors axis geometry previous))
    (even' : Even geometry.tolerance (keptAnchors axis geometry current)) :
    sameCoreAnchors axis geometry previous current = true ↔
      Nonempty (Pairing geometry.tolerance (keptAnchors axis geometry previous)
        (keptAnchors axis geometry current)) := by
  simp only [sameCoreAnchors, Bool.and_eq_true, beq_iff_eq, List.all_eq_true, decide_eq_true_eq]
  constructor
  · rintro ⟨length, near⟩
    refine ⟨⟨(tupleSort _).zip (tupleSort _), ?_, ?_, near⟩⟩
    · rw [map_fst_zip length.le]
      exact tupleSort_perm _
    · rw [map_snd_zip length.ge]
      exact tupleSort_perm _
  · rintro ⟨pairing⟩
    obtain ⟨length, near⟩ := List.forall₂_iff_zip.mp (pairing.ranks even even')
    exact ⟨length, fun pair listed => near listed⟩

namespace Sample

/-- Cards of 80 by 60 pixels in a frame of 720 pixels, with a tolerance of one pixel. -/
def cardGeometry : ScanGeometry where
  area := ⟨0, 720, 0, 1280⟩
  core := (2, 718)
  band := ⟨0, 720, 0, 1280⟩
  extent := 60
  tolerance := 1

def cardAt (x y : Int) : CandidateRect := ⟨x, y, 80, 60⟩

/-- Two rows of two cards, the second capture a pixel further along in the first row, and with a
pixel of jitter across. -/
theorem same_core_anchors_decides_rows :
    Nonempty (Pairing cardGeometry.tolerance
      (keptAnchors .vertical cardGeometry
        [cardAt 0 100, cardAt 200 100, cardAt 0 200, cardAt 200 200])
      (keptAnchors .vertical cardGeometry
        [cardAt 1 101, cardAt 200 101, cardAt 0 200, cardAt 201 200])) :=
  (same_core_anchors_decides_pairing .vertical cardGeometry _ _ (by decide) (by decide)).mp
    (by decide)

/-- Two cards of one row pair with themselves, one of them a pixel further down. -/
def rowJitter : Pairing 1 [(100, 0), (100, 200)] [(101, 0), (100, 200)] where
  pairs := [((100, 0), (101, 0)), ((100, 200), (100, 200))]
  fst_perm := .refl _
  snd_perm := .refl _
  near := by decide

/-- Two cards of one row, the left one a pixel further down in the next capture: a pairing within
the tolerance exists, and the test says the captures differ. -/
theorem same_core_anchors_misses_pairing :
    Nonempty (Pairing cardGeometry.tolerance
        (keptAnchors .vertical cardGeometry [cardAt 0 100, cardAt 200 100])
        (keptAnchors .vertical cardGeometry [cardAt 0 101, cardAt 200 100])) ∧
      sameCoreAnchors .vertical cardGeometry [cardAt 0 100, cardAt 200 100]
        [cardAt 0 101, cardAt 200 100] = false :=
  ⟨⟨rowJitter⟩, by decide⟩

end Sample

end Scan
