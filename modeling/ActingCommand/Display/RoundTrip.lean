import ActingCommand.Display.Screen

/-!
# To the device and back

A point that is taken to the device and back is the same point, at every scale. The edges of a box
are rounded to one side on the way out, so a box comes back as it was only when what the rounding
moved each edge by is less than half a pixel of the scale frame.
-/

namespace Display

open Machine Rounding DisplayMap

/-! ## Points -/

/-- The device pixel of a point is within the range of coordinates. -/
structure Unsaturated (map : DisplayMap) (point : Point) : Prop where
  left : i64Min ≤ halfUp (point.x * map.scale.num) map.scale.den
  right : halfUp (point.x * map.scale.num) map.scale.den ≤ i64Max
  top : i64Min ≤ halfUp (point.y * map.scale.num) map.scale.den
  bottom : halfUp (point.y * map.scale.num) map.scale.den ≤ i64Max

lemma downNearest_upNearest {scale : Scale} (atLeastOne : scale.den ≤ scale.num) {value : Int}
    (low : i64Min ≤ halfUp (value * scale.num) scale.den)
    (high : halfUp (value * scale.num) scale.den ≤ i64Max) :
    scale.downNearest (scale.upNearest value) = value := by
  rw [Scale.upNearest, saturate_of_fits low high, Scale.downNearest_eq atLeastOne low high]
  exact halfUp_halfUp scale.den_pos (Scale.den_le atLeastOne) value

lemma scaleFramePoint_devicePoint {map} {point : Point}
    (unsaturated : Unsaturated map point) :
    map.scaleFramePoint (map.devicePoint point) = point := by
  unfold scaleFramePoint devicePoint
  dsimp only
  rw [downNearest_upNearest map.atLeastOne unsaturated.left unsaturated.right,
    downNearest_upNearest map.atLeastOne unsaturated.top unsaturated.bottom]

/-- A coordinate of the scale frame is far from the ends of the range. -/
theorem unsaturated_of_inside {base observation map} (built : Built base observation map)
    {point : Point} (inside : point.Inside map.scaleFrame) : Unsaturated map point := by
  obtain ⟨⟨left, right⟩, top, bottom⟩ := inside
  rw [built.scaleWidth] at right
  rw [built.scaleHeight] at bottom
  obtain ⟨isX, xLow, xHigh⟩ :=
    upNearest_inside map.atLeastOne map.uprightFrame.widthFits left right
  obtain ⟨isY, yLow, yHigh⟩ :=
    upNearest_inside map.atLeastOne map.uprightFrame.heightFits top bottom
  have wide := side_fits map.uprightFrame.widthFits
  have tall := side_fits map.uprightFrame.heightFits
  have zero : i64Min ≤ 0 := by decide
  rw [isX] at xLow xHigh
  rw [isY] at yLow yHigh
  exact ⟨by omega, by omega, by omega, by omega⟩

lemma turnPoint_inside {delivered} {point : Point} (turn : QuarterTurn)
    (inside : point.Inside delivered) :
    (turn.turnPoint point delivered).Inside (swapped delivered) := by
  obtain ⟨⟨left, right⟩, top, bottom⟩ := inside
  cases turn with
  | clockwise | counterclockwise =>
    simp only [Point.Inside, QuarterTurn.turnPoint, swapped]
    omega

/-- A point comes back from the device as it was: every point whose device pixel is within the range
of coordinates, and so every point of the scale frame of a built map. And a turn and its undoing are
inverse between the pixels of a frame and those of the turned frame. -/
theorem point_round_trip :
    (∀ (map : DisplayMap) (point : Point), Unsaturated map point →
      map.scaleFramePoint (map.devicePoint point) = point) ∧
    (∀ (base : CaptureExtent) (observation : DisplayObservation) (rule : Option DisplayRule)
      (map : DisplayMap), build base observation rule = .ok map →
      ∀ point : Point, point.Inside map.scaleFrame →
        map.scaleFramePoint (map.devicePoint point) = point) ∧
    ∀ (turn : QuarterTurn) (delivered : CaptureExtent),
      (∀ point : Point, point.Inside delivered →
        (turn.turnPoint point delivered).Inside (swapped delivered) ∧
          turn.undoPoint (turn.turnPoint point delivered) delivered = point) ∧
      ∀ point : Point, point.Inside (swapped delivered) →
        (turn.undoPoint point delivered).Inside delivered ∧
          turn.turnPoint (turn.undoPoint point delivered) delivered = point := by
  refine ⟨fun map point => scaleFramePoint_devicePoint, ?_, ?_⟩
  · intro base observation rule map built point inside
    exact scaleFramePoint_devicePoint (unsaturated_of_inside (built_of_build built) inside)
  intro turn delivered
  refine ⟨fun point inside => ⟨turnPoint_inside turn inside, ?_⟩,
    fun point inside => ⟨undoPoint_inside turn inside, ?_⟩⟩
  all_goals cases turn <;> simp [QuarterTurn.undoPoint, QuarterTurn.turnPoint]

theorem point_round_trip_odd :
    Sample.oddMap.scaleFramePoint (Sample.oddMap.devicePoint ⟨1440, 719⟩) = ⟨1440, 719⟩ :=
  point_round_trip.2.1 Sample.base Sample.odd (some Sample.byHeight) Sample.oddMap
    Sample.odd_builds ⟨1440, 719⟩ ⟨by decide, by decide⟩

/-! ## Boxes -/

/-- An edge rounded down comes back: what is cut off is at most half a pixel of the scale frame. -/
def FloorsBack (scale : Scale) (edge : Int) : Prop := edge * scale.num % scale.den * 2 ≤ scale.num

/-- An edge rounded up comes back: what is added is less than half a pixel of the scale frame. -/
def CeilsBack (scale : Scale) (edge : Int) : Prop := -(edge * scale.num) % scale.den * 2 < scale.num

section Edge

variable {scale : Scale} (atLeastOne : scale.den ≤ scale.num) {side : Nat} (fits : side ≤ u32Max)
  {edge : Int} (nonneg : 0 ≤ edge) (bounded : edge * scale.num ≤ 2 * side * scale.den)

include atLeastOne fits nonneg bounded

lemma downNearest_upFloor :
    scale.downNearest (scale.upFloor edge) = edge ↔ FloorsBack scale edge := by
  have low : 0 ≤ edge * scale.num / scale.den :=
    Int.ediv_nonneg (mul_nonneg nonneg (Int.natCast_nonneg _)) (le_of_lt scale.den_pos)
  have high : edge * scale.num / scale.den ≤ 2 * side :=
    Int.ediv_le_of_le_mul scale.den_pos bounded
  have range : i64Min ≤ edge * scale.num / scale.den ∧ edge * scale.num / scale.den ≤ i64Max := by
    simp only [u32Max] at fits
    simp only [i64Min, i64Max]
    omega
  rw [Scale.upFloor, saturate_of_fits range.1 range.2,
    Scale.downNearest_eq atLeastOne range.1 range.2]
  exact halfUp_div_iff scale.den_pos (Scale.den_le atLeastOne) edge

lemma downNearest_upCeil : scale.downNearest (scale.upCeil edge) = edge ↔ CeilsBack scale edge := by
  have low : 0 ≤ ceilDiv (edge * scale.num) scale.den :=
    ceilDiv_nonneg scale.den_pos (mul_nonneg nonneg (Int.natCast_nonneg _))
  have high : ceilDiv (edge * scale.num) scale.den ≤ 2 * side :=
    (ceilDiv_le_iff scale.den_pos).mpr bounded
  have range : i64Min ≤ ceilDiv (edge * scale.num) scale.den ∧
      ceilDiv (edge * scale.num) scale.den ≤ i64Max := by
    simp only [u32Max] at fits
    simp only [i64Min, i64Max]
    omega
  rw [Scale.upCeil, saturate_of_fits range.1 range.2,
    Scale.downNearest_eq atLeastOne range.1 range.2]
  exact halfUp_ceilDiv_iff scale.den_pos (Scale.den_le atLeastOne) edge

end Edge

section

variable {scale : Scale} {side : Nat} {baseSide : Nat} (atLeastOne : scale.den ≤ scale.num)
  (fits : side ≤ u32Max) (positive : 0 < baseSide)
  (isBase : (baseSide : Int) = scale.downNearest side)

include atLeastOne fits positive isBase

/-- Along one axis, the base of a pure scale is at most twice as long on the device as the frame. -/
theorem scaled_bounded {edge : Int} (within : edge ≤ baseSide) :
    edge * scale.num ≤ 2 * side * scale.den := by
  obtain ⟨low, high⟩ := side_fits fits
  have denPos := scale.den_pos
  rw [Scale.downNearest_eq atLeastOne low high] at isBase
  have room := (le_halfUp_iff (by omega)).mp (le_of_eq isBase)
  have atLeast : (1 : Int) * scale.num ≤ baseSide * scale.num :=
    mul_le_mul_of_nonneg_right (by omega) (by omega)
  have less : edge * scale.num ≤ baseSide * scale.num :=
    mul_le_mul_of_nonneg_right within (by omega)
  rw [show (2 : Int) * side * scale.den = side * scale.den * 2 by ring]
  omega

theorem edge_back_iff {edge : Int} (nonneg : 0 ≤ edge) (within : edge ≤ baseSide) :
    (scale.downNearest (scale.upFloor edge) = edge ↔ FloorsBack scale edge) ∧
      (scale.downNearest (scale.upCeil edge) = edge ↔ CeilsBack scale edge) := by
  have bounded := scaled_bounded atLeastOne fits positive isBase within
  exact ⟨downNearest_upFloor atLeastOne fits nonneg bounded,
    downNearest_upCeil atLeastOne fits nonneg bounded⟩

end

lemma scaleFrameBox_eq_iff {map : DisplayMap} {left top right bottom : Int} {region : Rect} :
    map.scaleFrameBox ⟨left, top, right - left, bottom - top⟩ = region ↔
      map.scale.downNearest left = region.x ∧ map.scale.downNearest top = region.y ∧
      map.scale.downNearest right = region.right ∧
        map.scale.downNearest bottom = region.bottom := by
  obtain ⟨x, y, width, height⟩ := region
  simp only [scaleFrameBox, Rect.mk.injEq, Rect.right, Rect.bottom, add_sub_cancel]
  omega

/-- Where no residue of the scale is half a pixel or more, every edge comes back. -/
theorem edges_back {scale : Scale} (fine : 2 * (scale.den - 1) < scale.num) (edge : Int) :
    FloorsBack scale edge ∧ CeilsBack scale edge := by
  have denPos := scale.den_pos
  have floor := Int.emod_lt_of_pos (edge * scale.num) denPos
  have ceil := Int.emod_lt_of_pos (-(edge * scale.num)) denPos
  exact ⟨by unfold FloorsBack; omega, by unfold CeilsBack; omega⟩

/-- A box of a map that neither translates nor crops comes back from the device as it was
exactly when each of its edges does; at a scale `num / den` with `2 * (den - 1) < num`, every box
does. -/
theorem box_round_trip_iff (base : CaptureExtent) (observation : DisplayObservation)
    (rule : Option DisplayRule) (map : DisplayMap)
    (built : build base observation rule = .ok map) (pure : map.kind ≠ .translate)
    (uncropped : map.crop = none) (region : Rect)
    (nonempty : 0 < region.width ∧ 0 < region.height) (within : region.Within map.base) :
    (map.scaleFrameBox (map.deviceEvidenceBox region) = region ↔
      FloorsBack map.scale region.x ∧ FloorsBack map.scale region.y ∧
        CeilsBack map.scale region.right ∧ CeilsBack map.scale region.bottom) ∧
    (∀ box, map.deviceInputBox region = .ok box → (map.scaleFrameBox box = region ↔
      CeilsBack map.scale region.x ∧ CeilsBack map.scale region.y ∧
        FloorsBack map.scale region.right ∧ FloorsBack map.scale region.bottom)) ∧
    (2 * (map.scale.den - 1) < map.scale.num →
      map.scaleFrameBox (map.deviceEvidenceBox region) = region ∧
        ∀ box, map.deviceInputBox region = .ok box → map.scaleFrameBox box = region) := by
  have facts := built_of_build built
  have isBase : map.scaleFrame = map.base :=
    (facts.uncropped uncropped).2.trans (facts.untranslated pure).1
  have wide := facts.scaleWidth
  have tall := facts.scaleHeight
  rw [isBase] at wide tall
  obtain ⟨left, right, top, bottom⟩ := within
  have leftEdge := edge_back_iff map.atLeastOne map.uprightFrame.widthFits map.base.widthPos wide
    left (show region.x ≤ map.base.width by simp only [Rect.right] at right; omega)
  have rightEdge := edge_back_iff map.atLeastOne map.uprightFrame.widthFits map.base.widthPos wide
    (show 0 ≤ region.right by simp only [Rect.right]; omega) right
  have topEdge := edge_back_iff map.atLeastOne map.uprightFrame.heightFits map.base.heightPos tall
    top (show region.y ≤ map.base.height by simp only [Rect.bottom] at bottom; omega)
  have bottomEdge := edge_back_iff map.atLeastOne map.uprightFrame.heightFits
    map.base.heightPos tall
    (show 0 ≤ region.bottom by simp only [Rect.bottom]; omega) bottom
  have evidence : map.scaleFrameBox (map.deviceEvidenceBox region) = region ↔
      FloorsBack map.scale region.x ∧ FloorsBack map.scale region.y ∧
        CeilsBack map.scale region.right ∧ CeilsBack map.scale region.bottom := by
    rw [← leftEdge.1, ← topEdge.1, ← rightEdge.2, ← bottomEdge.2]
    exact scaleFrameBox_eq_iff
  have input : ∀ box, map.deviceInputBox region = .ok box → (map.scaleFrameBox box = region ↔
      CeilsBack map.scale region.x ∧ CeilsBack map.scale region.y ∧
        FloorsBack map.scale region.right ∧ FloorsBack map.scale region.bottom) := by
    intro box sent
    unfold deviceInputBox at sent
    dsimp only at sent
    split at sent
    · cases sent
    cases sent
    rw [← leftEdge.2, ← topEdge.2, ← rightEdge.1, ← bottomEdge.1]
    exact scaleFrameBox_eq_iff
  refine ⟨evidence, input, fun fine => ⟨evidence.mpr ?_, fun box sent => (input box sent).mpr ?_⟩⟩
  · exact ⟨(edges_back fine _).1, (edges_back fine _).1, (edges_back fine _).2,
      (edges_back fine _).2⟩
  · exact ⟨(edges_back fine _).2, (edges_back fine _).2, (edges_back fine _).1,
      (edges_back fine _).1⟩

namespace Sample

/-- A frame of five quarters of the base. -/
def fiveQuarters : DisplayObservation := plain (extent 1600 900 (by decide) (by decide))

/-- A frame of three halves of the base. -/
def threeHalves : DisplayObservation := plain (extent 1920 1080 (by decide) (by decide))

/-- The map of a frame that is all of its display, at a scale of the base. -/
def pureScale (observation : DisplayObservation) (scale : Scale)
    (atLeastOne : scale.den ≤ scale.num) : DisplayMap where
  kind := .scale
  base := base
  frame := observation.frame
  turn := none
  scale := scale
  scaleExtent := base
  anchorArea := ⟨0, 0, 1280, 720⟩
  frameOffset := ⟨0, 0⟩
  scaleFrame := base
  crop := none
  rule := none
  atLeastOne := atLeastOne

def fiveQuartersMap : DisplayMap := pureScale fiveQuarters ⟨5, 4, by decide⟩ (by decide)

def threeHalvesMap : DisplayMap := pureScale threeHalves ⟨3, 2, by decide⟩ (by decide)

end Sample

open Sample

theorem box_round_trip_three_halves :
    threeHalvesMap.scaleFrameBox (threeHalvesMap.deviceEvidenceBox ⟨3, 5, 37, 37⟩) =
      ⟨3, 5, 37, 37⟩ :=
  ((box_round_trip_iff base threeHalves none threeHalvesMap
    (by decide +kernel) (by decide) rfl ⟨3, 5, 37, 37⟩ (by decide)
    ⟨by decide, by decide, by decide, by decide⟩).2.2 (by decide)).1

/-- At five quarters, a box whose left edge loses three quarters of a device pixel comes back one
pixel to the left, and an input box one pixel to the right. -/
theorem box_drifts_at_five_quarters :
    build base fiveQuarters none = .ok fiveQuartersMap ∧
      fiveQuartersMap.scaleFrameBox
        (fiveQuartersMap.deviceEvidenceBox ⟨3, 3, 9, 9⟩) = ⟨2, 2, 10, 10⟩ ∧
      fiveQuartersMap.deviceInputBox ⟨1, 1, 11, 11⟩ = .ok ⟨2, 2, 13, 13⟩ ∧
      fiveQuartersMap.scaleFrameBox ⟨2, 2, 13, 13⟩ = ⟨2, 2, 10, 10⟩ := by
  refine ⟨?_, ?_, ?_, ?_⟩ <;> decide +kernel

end Display
