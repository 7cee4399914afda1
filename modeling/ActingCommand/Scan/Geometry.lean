import ActingCommand.Scan.Session

/-!
# The geometry of a scan

Rectangles of a frame are split along the axis the list moves on. The geometry every viewport
shares holds the tracking area, its core, the readable band, the extent of one instance and the
position tolerance. Pairs of coordinates are sorted as tuples are: by the first component, and
equal ones by the second.
-/

namespace Scan

inductive ScanAxis
  | vertical
  | horizontal

/-- A rectangle in frame pixels. -/
structure CandidateRect where
  x : Int
  y : Int
  width : Int
  height : Int

namespace AxisRect

def of : ScanAxis → CandidateRect → AxisRect
  | .vertical, rect => ⟨rect.y, rect.height, rect.x, rect.width⟩
  | .horizontal, rect => ⟨rect.x, rect.width, rect.y, rect.height⟩

variable (rect : AxisRect)

def axisEnd : Int := rect.axis + rect.axisExtent

def crossEnd : Int := rect.cross + rect.crossExtent

def within (outer : AxisRect) : Bool :=
  decide (outer.axis ≤ rect.axis ∧ rect.axisEnd ≤ outer.axisEnd ∧
    outer.cross ≤ rect.cross ∧ rect.crossEnd ≤ outer.crossEnd)

end AxisRect

structure ScanGeometry where
  area : AxisRect
  /-- The area shrunk by the edge margin at its two axis edges, on the axis. -/
  core : Int × Int
  band : AxisRect
  extent : Int
  tolerance : Nat

/-- An instance that starts at `axis` (frame coordinates) lies inside the core. -/
def ScanGeometry.inCore (geometry : ScanGeometry) (axis : Int) : Bool :=
  decide (geometry.core.1 ≤ axis ∧ axis + geometry.extent ≤ geometry.core.2)

/-! ## Coordinates in tuple order -/

/-- The order of two coordinate pairs: the first component decides, then the second. -/
def TupleLe (a b : Int × Int) : Prop := a.1 < b.1 ∨ a.1 = b.1 ∧ a.2 ≤ b.2

instance : DecidableRel TupleLe :=
  fun a b => inferInstanceAs (Decidable (a.1 < b.1 ∨ a.1 = b.1 ∧ a.2 ≤ b.2))

instance : Std.Total TupleLe where
  total a b := by
    simp only [TupleLe]
    omega

instance : IsTrans (Int × Int) TupleLe where
  trans a b c := by
    simp only [TupleLe]
    omega

lemma TupleLe.fst_le {a b : Int × Int} (order : TupleLe a b) : a.1 ≤ b.1 := by
  simp only [TupleLe] at order
  omega

variable (pairs : List (Int × Int))

def tupleSort : List (Int × Int) := pairs.insertionSort TupleLe

lemma tupleSort_perm : (tupleSort pairs).Perm pairs :=
  List.perm_insertionSort _ _

lemma tupleSort_pairwise : (tupleSort pairs).Pairwise TupleLe :=
  List.pairwise_insertionSort _ _

end Scan
