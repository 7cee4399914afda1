import ActingCommand.Call
import ActingCommand.Display.Map

/-!
# What is sent to the device

A map that was built sends every point it accepts to a pixel of the device frame, of the frame as
delivered and of the logical display. An input box is rounded inward on the device, but the scale
frame itself is rounded to the nearest, and its last edge may lie behind the last pixel.
-/

namespace Display

open Machine Rounding Option Except DisplayMap

/-! ## Scaled coordinates -/

variable {value : Int}

lemma saturate_of_fits (low : i64Min ≤ value) (high : value ≤ i64Max) : saturate value = value :=
  if_pos ⟨low, high⟩

namespace Scale

variable {scale : Scale} (atLeastOne : scale.den ≤ scale.num)

lemma den_pos (scale : Scale) : (0 : Int) < scale.den := by
  have := scale.denPos
  omega

include atLeastOne in
lemma den_le : (scale.den : Int) ≤ scale.num := by
  omega

include atLeastOne in
/-- Scaling down never leaves the range. -/
theorem downNearest_eq (low : i64Min ≤ value) (high : value ≤ i64Max) :
    scale.downNearest value = halfUp (value * scale.den) scale.num := by
  have numPos : (0 : Int) < scale.num := lt_of_lt_of_le scale.den_pos (den_le atLeastOne)
  refine saturate_of_fits ?_ ?_
  · by_cases sign : 0 ≤ value
    · have nonneg := halfUp_nonneg numPos (mul_nonneg sign (le_of_lt scale.den_pos))
      simp only [i64Min] at low ⊢
      omega
    · have above := self_le_halfUp scale.den_pos (den_le atLeastOne) (show value ≤ 0 by omega)
      omega
  by_cases sign : 0 ≤ value
  · have below := halfUp_le_self scale.den_pos (den_le atLeastOne) sign
    omega
  have negative : halfUp (value * scale.den) scale.num < 1 := by
    rw [halfUp_lt_iff numPos]
    have product : value * scale.den ≤ 0 :=
      mul_nonpos_of_nonpos_of_nonneg (by omega) (le_of_lt scale.den_pos)
    omega
  simp only [i64Max]
  omega

end Scale

/-! ## What a build fixes -/

/-- The facts of a map that was built from an observation. -/
structure Built (base : CaptureExtent) (observation : DisplayObservation) (map : DisplayMap) :
    Prop where
  base : map.base = base
  frame : map.frame = observation.frame
  crop : map.crop = observation.crop
  cropShows : ∀ crop, map.crop = some crop →
    cropShows crop map.uprightFrame observation.display = true
  scaleWidth : (map.scaleFrame.width : Int) = map.scale.downNearest map.uprightFrame.width
  scaleHeight : (map.scaleFrame.height : Int) = map.scale.downNearest map.uprightFrame.height
  uncropped : map.crop = none → map.frameOffset = ⟨0, 0⟩ ∧ map.scaleFrame = map.scaleExtent
  untranslated : map.kind ≠ .translate →
    map.scaleExtent = map.base ∧ map.anchorArea = ⟨0, 0, map.base.width, map.base.height⟩

lemma extentOf_eq_some {width height : Int} {extent} (built : extentOf width height = some extent) :
    (extent.width : Int) = width ∧ (extent.height : Int) = height := by
  unfold extentOf at built
  split at built
  · cases built
    exact ⟨by dsimp only; omega, by dsimp only; omega⟩
  · cases built

variable {observation : DisplayObservation}

lemma layoutOf_ok {frame source} (laid : layoutOf observation frame = .ok source) :
    (∀ crop, observation.crop = some crop → cropShows crop frame observation.display = true) ∧
      (observation.crop = none → source = frame) := by
  unfold layoutOf at laid
  split at laid
  · rename_i crop isCrop
    split at laid
    · rename_i shows'
      rw [isCrop]
      refine ⟨?_, fun none => nomatch none⟩
      intro other isOther
      obtain rfl := some.inj isOther
      exact shows'
    · cases laid
  · rename_i isNone
    split at laid
    · cases laid
      rw [isNone]
      exact ⟨fun crop isCrop => (nomatch isCrop), fun _ => rfl⟩
    · cases laid

variable {map : DisplayMap}

lemma layOut_ok {base turn source} {scale : Scale} {anchorInsets rule atLeastOne}
    (laid : layoutOf observation (upright observation.frame turn) = .ok source)
    (built : layOut base observation turn source scale anchorInsets rule atLeastOne = .ok map) :
    Built base observation map := by
  obtain ⟨shows', same⟩ := layoutOf_ok laid
  unfold layOut at built
  dsimp only at built
  split at built
  · cases built
  rename_i scaleExtent isExtent
  split at built
  · cases built
  split at built
  · cases built
  rename_i scaleFrame isFrame
  cases built
  have sides : (frameAreaOf scale observation.crop (scale.downNearest source.width)
        (scale.downNearest source.height)).width =
      scale.downNearest (upright observation.frame turn).width ∧
      (frameAreaOf scale observation.crop (scale.downNearest source.width)
        (scale.downNearest source.height)).height =
      scale.downNearest (upright observation.frame turn).height := by
    cases isCrop : observation.crop with
    | some crop =>
      have exact' := shows' crop isCrop
      simp only [cropShows, Bool.and_eq_true, decide_eq_true_eq] at exact'
      obtain ⟨⟨⟨width, height⟩, -⟩, -⟩ := exact'
      rw [← width, ← height]
      exact ⟨rfl, rfl⟩
    | none =>
      rw [← same isCrop]
      exact ⟨rfl, rfl⟩
  obtain ⟨width, height⟩ := extentOf_eq_some isFrame
  refine ⟨rfl, rfl, rfl, shows', width.trans sides.1, height.trans sides.2, ?_, ?_⟩
  · intro isNone
    dsimp only at isNone isFrame ⊢
    rw [isNone] at isFrame ⊢
    refine ⟨rfl, some.inj ?_⟩
    rw [← isFrame, ← isExtent]
    rfl
  · intro notTranslated
    dsimp only at notTranslated ⊢
    by_contra moved
    rw [not_and_or] at moved
    exact notTranslated (if_pos moved)

lemma built_of_build {base} {rule}
    (built : build base observation rule = .ok map) : Built base observation map := by
  unfold build at built
  split at built
  · cases built
  split at built
  · cases built
  rename_i source laid
  split at built
  · cases built
  split at built
  · exact layOut_ok laid built
  · cases built

/-! ## Points -/

/-- A pixel of a frame of this size. -/
def Point.Inside (point : Point) (extent : CaptureExtent) : Prop :=
  (0 ≤ point.x ∧ point.x < extent.width) ∧ 0 ≤ point.y ∧ point.y < extent.height

variable {point : Point}

lemma mapPoint_inside {mapped : Point} {anchor}
    (accepted : map.mapPoint point anchor = .ok mapped) : mapped.Inside map.scaleFrame := by
  unfold mapPoint at accepted
  dsimp only at accepted
  split at accepted
  · rename_i inside
    cases accepted
    exact inside
  · cases accepted

variable {side : Nat}

/-- The size of a frame is far from the end of the range. -/
theorem side_fits (fits : side ≤ u32Max) : i64Min ≤ side ∧ (side : Int) ≤ i64Max := by
  simp only [u32Max] at fits
  simp only [i64Min, i64Max]
  omega

/-- Along one axis, a coordinate of the scale frame goes to a coordinate of the frame. -/
theorem upNearest_inside {scale : Scale} (atLeastOne : scale.den ≤ scale.num) (fits : side ≤ u32Max)
    {x : Int} (nonneg : 0 ≤ x) (within : x < scale.downNearest side) :
    scale.upNearest x = halfUp (x * scale.num) scale.den ∧
      0 ≤ scale.upNearest x ∧ scale.upNearest x < side := by
  obtain ⟨low, high⟩ := side_fits fits
  rw [Scale.downNearest_eq atLeastOne low high] at within
  have below := halfUp_lt_of_lt scale.den_pos (Scale.den_le atLeastOne) within
  have above := halfUp_nonneg scale.den_pos (mul_nonneg nonneg (Int.natCast_nonneg scale.num))
  have same : scale.upNearest x = halfUp (x * scale.num) scale.den := by
    refine saturate_of_fits ?_ (by omega)
    simp only [i64Min]
    omega
  rw [same]
  exact ⟨rfl, above, below⟩

lemma devicePoint_inside {base} (built : Built base observation map)
    (inside : point.Inside map.scaleFrame) : (map.devicePoint point).Inside map.uprightFrame := by
  obtain ⟨⟨left, right⟩, top, bottom⟩ := inside
  rw [built.scaleWidth] at right
  rw [built.scaleHeight] at bottom
  exact ⟨(upNearest_inside map.atLeastOne map.uprightFrame.widthFits left right).2,
    (upNearest_inside map.atLeastOne map.uprightFrame.heightFits top bottom).2⟩

lemma undoPoint_inside {delivered} (turn : QuarterTurn)
    (inside : point.Inside (swapped delivered)) :
    (turn.undoPoint point delivered).Inside delivered := by
  obtain ⟨⟨left, right⟩, top, bottom⟩ := inside
  simp only [swapped] at right bottom
  cases turn with
  | clockwise | counterclockwise =>
    simp only [Point.Inside, QuarterTurn.undoPoint]
    omega

lemma deliveredPoint_inside (inside : point.Inside map.uprightFrame) :
    (map.deliveredPoint point).Inside map.frame := by
  unfold uprightFrame at inside
  unfold deliveredPoint
  cases isTurn : map.turn with
  | none =>
    rw [isTurn] at inside
    exact inside
  | some turn =>
    rw [isTurn] at inside
    exact undoPoint_inside turn inside

lemma displayPoint_inside {base} (built : Built base observation map)
    (inside : point.Inside map.uprightFrame) {crop}
    (isCrop : map.crop = some crop) : (map.displayPoint point).Inside observation.display := by
  have shows' := built.cropShows crop isCrop
  simp only [cropShows, Bool.and_eq_true, decide_eq_true_eq] at shows'
  obtain ⟨⟨left, right⟩, top, bottom⟩ := inside
  rw [displayPoint, isCrop]
  simp only [Point.Inside]
  omega

/-- Every base point that a built map accepts goes to a pixel of the upright device frame, and with
the turn undone to one of the frame as delivered. A crop puts it inside the logical display; so does
a frame that is not cropped and no larger than its display. -/
theorem points_on_screen (base : CaptureExtent) (observation : DisplayObservation)
    (rule : Option DisplayRule) (map : DisplayMap)
    (built : build base observation rule = .ok map) (point mapped : Point)
    (anchor : Option Anchor) (accepted : map.mapPoint point anchor = .ok mapped) :
    (map.devicePoint mapped).Inside (upright observation.frame map.turn) ∧
      (map.deliveredPoint (map.devicePoint mapped)).Inside observation.frame ∧
      (∀ crop, observation.crop = some crop →
        (map.displayPoint (map.devicePoint mapped)).Inside observation.display) ∧
      (observation.crop = none →
        (upright observation.frame map.turn).width ≤ observation.display.width →
        (upright observation.frame map.turn).height ≤ observation.display.height →
        (map.displayPoint (map.devicePoint mapped)).Inside observation.display) := by
  have facts := built_of_build built
  have inside := devicePoint_inside facts (mapPoint_inside accepted)
  have delivered := deliveredPoint_inside inside
  rw [facts.frame] at delivered
  rw [← facts.frame, ← facts.crop]
  refine ⟨inside, ?_, fun crop isCrop => displayPoint_inside facts inside isCrop, ?_⟩
  · rw [facts.frame]
    exact delivered
  intro isNone narrower lower
  have same : map.displayPoint (map.devicePoint mapped) = map.devicePoint mapped := by
    rw [displayPoint, isNone]
  rw [same]
  obtain ⟨⟨left, right⟩, top, bottom⟩ := inside
  simp only [uprightFrame] at right bottom
  exact ⟨⟨left, by omega⟩, top, by omega⟩

/-! ## Sample maps -/

namespace Sample

def extent (width height : Nat) (positive : 0 < width ∧ 0 < height)
    (fits : width ≤ u32Max ∧ height ≤ u32Max) : CaptureExtent :=
  ⟨width, height, positive.1, positive.2, fits.1, fits.2⟩

def base : CaptureExtent := extent 1280 720 (by decide) (by decide)

def plain (frame : CaptureExtent) : DisplayObservation := ⟨frame, frame, none, none, none⟩

def byHeight : DisplayRule := ⟨.height, .screen, .screen⟩

/-- A display of 2880 by 1440 at 90°, of which a stream delivers 2876 columns, not turned. -/
def turned : DisplayObservation where
  frame := extent 1440 2876 (by decide) (by decide)
  display := extent 2880 1440 (by decide) (by decide)
  rotation := some .r90
  crop := some ⟨2, 0, 2876, 1440⟩
  insets := none

def turnedMap : DisplayMap where
  kind := .translate
  base := base
  frame := turned.frame
  turn := some .clockwise
  scale := ⟨2, 1, by decide⟩
  scaleExtent := extent 1440 720 (by decide) (by decide)
  anchorArea := ⟨0, 0, 1440, 720⟩
  frameOffset := ⟨1, 0⟩
  scaleFrame := extent 1438 720 (by decide) (by decide)
  crop := turned.crop
  rule := some byHeight
  atLeastOne := by decide

end Sample

theorem points_on_screen_turned :
    Sample.turnedMap.mapPoint ⟨1278, 719⟩ none = .ok ⟨1437, 719⟩ ∧
      (Sample.turnedMap.devicePoint ⟨1437, 719⟩).Inside (upright Sample.turned.frame
        Sample.turnedMap.turn) := by
  have accepted : Sample.turnedMap.mapPoint ⟨1278, 719⟩ none = .ok ⟨1437, 719⟩ := by decide +kernel
  exact ⟨accepted, (points_on_screen Sample.base Sample.turned (some Sample.byHeight)
    Sample.turnedMap (by decide +kernel) ⟨1278, 719⟩ ⟨1437, 719⟩ none accepted).1⟩

/-! ## Input boxes -/

/-- A box of pixels of a frame of this size. -/
def Rect.Within (rect : Rect) (extent : CaptureExtent) : Prop :=
  0 ≤ rect.x ∧ rect.right ≤ extent.width ∧ 0 ≤ rect.y ∧ rect.bottom ≤ extent.height

lemma saturate_le_iff {bound : Int} (low : i64Min ≤ bound) (high : bound < i64Max) :
    saturate value ≤ bound ↔ value ≤ bound := by
  unfold saturate
  split
  · rfl
  rename_i outside
  simp only [i64Min, i64Max] at low high outside ⊢
  split <;> omega

lemma saturate_nonneg (nonneg : 0 ≤ value) : 0 ≤ saturate value := by
  unfold saturate
  split
  · exact nonneg
  · rw [if_neg (by omega)]
    decide

variable {region rect : Rect} {anchor : Option Anchor} {isPositional : Bool}
  {stage : DisplayLocation}

lemma cutToFrame_ok {left top right bottom : Int}
    (cut : map.cutToFrame left top right bottom stage = .ok rect) :
    rect.x = max (left - map.frameOffset.x) 0 ∧ rect.y = max (top - map.frameOffset.y) 0 ∧
      rect.right = min (right - map.frameOffset.x) map.scaleFrame.width ∧
      rect.bottom = min (bottom - map.frameOffset.y) map.scaleFrame.height ∧
      0 < rect.width ∧ 0 < rect.height := by
  unfold cutToFrame at cut
  dsimp only at cut
  split at cut
  · cases cut
  rename_i some
  rw [not_or, not_le, not_le] at some
  cases cut
  refine ⟨rfl, rfl, ?_, ?_, sub_pos.mpr some.1, sub_pos.mpr some.2⟩
  · simp [Rect.right, add_sub_cancel]
  · simp [Rect.bottom, add_sub_cancel]

/-- A region that is mapped: its placed corners, cut to the frame. -/
theorem regionInFrame_ok (mapped : map.regionInFrame region anchor isPositional stage = .ok rect) :
    ∃ start last, map.cornerZones region anchor isPositional stage = .ok (start, last) ∧
      map.cutToFrame (map.placeX region.x start.1) (map.placeY region.y start.2)
        (map.placeX region.right last.1) (map.placeY region.bottom last.2) stage = .ok rect := by
  unfold regionInFrame at mapped
  split at mapped
  · cases mapped
  rename_i start last zones
  dsimp only at mapped
  split at mapped
  · cases mapped
  · exact ⟨start, last, zones, mapped⟩

lemma regionInFrame_within
    (mapped : map.regionInFrame region anchor isPositional stage = .ok rect) :
    rect.Within map.scaleFrame := by
  obtain ⟨start, last, -, cut⟩ := regionInFrame_ok mapped
  obtain ⟨left, top, right, bottom, -⟩ := cutToFrame_ok cut
  unfold Rect.Within
  omega

/-- Along one axis, an open end of the scale frame goes no farther than the frame unless it is the
last one and that lies behind the frame. -/
theorem upFloor_le_iff {scale : Scale} (atLeastOne : scale.den ≤ scale.num) {scaleSide : Nat}
    (fits : side ≤ u32Max) (isSide : (scaleSide : Int) = scale.downNearest side) {edge : Int}
    (within : edge ≤ scaleSide) :
    scale.upFloor edge ≤ side ↔
      (edge = scaleSide → scaleSide * scale.num < (side + 1) * scale.den) := by
  obtain ⟨low, high⟩ := side_fits fits
  rw [Scale.upFloor, saturate_le_iff low (by simp only [u32Max] at fits; simp only [i64Max]; omega)]
  by_cases last : edge = scaleSide
  · rw [last, ← Int.lt_add_one_iff, Int.ediv_lt_iff_lt_mul scale.den_pos]
    norm_cast
    exact ⟨fun holds _ => holds, fun holds => holds rfl⟩
  refine ⟨fun _ isLast => absurd isLast last, fun _ => ?_⟩
  refine div_le_of_lt scale.den_pos (Scale.den_le atLeastOne) ?_
  rw [← Scale.downNearest_eq atLeastOne low high, ← isSide]
  omega

/-- A device input box of a built map is never empty. It lies inside the upright device frame
exactly when the placed region reaches no last edge of the scale frame that the scale takes behind
the frame. -/
theorem input_box_on_screen_iff (base : CaptureExtent) (observation : DisplayObservation)
    (rule : Option DisplayRule) (map : DisplayMap)
    (built : build base observation rule = .ok map) (region box : Rect)
    (anchor : Option Anchor) (accepted : map.mapInputBox region anchor = .ok box) :
    0 < box.width ∧ 0 < box.height ∧
      ∃ start last, map.cornerZones region anchor true .inputMap = .ok (start, last) ∧
        (box.Within (upright observation.frame map.turn) ↔
          (map.scaleFrame.width ≤ map.placeX region.right last.1 - map.frameOffset.x →
            map.scaleFrame.width * map.scale.num <
              ((upright observation.frame map.turn).width + 1) * map.scale.den) ∧
          (map.scaleFrame.height ≤ map.placeY region.bottom last.2 - map.frameOffset.y →
            map.scaleFrame.height * map.scale.num <
              ((upright observation.frame map.turn).height + 1) * map.scale.den)) := by
  have facts := built_of_build built
  rw [← facts.frame]
  change _ ∧ _ ∧ ∃ start last, _ ∧ (box.Within map.uprightFrame ↔ _)
  obtain ⟨mapped, isMapped, sent⟩ := bind_ok_iff.mp accepted
  obtain ⟨start, last, zones, cut⟩ := regionInFrame_ok isMapped
  obtain ⟨-, -, isRight, isBottom, -⟩ := cutToFrame_ok cut
  obtain ⟨left, right, top, bottom⟩ := regionInFrame_within isMapped
  have across := upFloor_le_iff map.atLeastOne map.uprightFrame.widthFits facts.scaleWidth right
  have down := upFloor_le_iff map.atLeastOne map.uprightFrame.heightFits facts.scaleHeight bottom
  have numNonneg := Int.natCast_nonneg map.scale.num
  have leftEdge : 0 ≤ map.scale.upCeil mapped.x :=
    saturate_nonneg (ceilDiv_nonneg map.scale.den_pos (mul_nonneg left numNonneg))
  have topEdge : 0 ≤ map.scale.upCeil mapped.y :=
    saturate_nonneg (ceilDiv_nonneg map.scale.den_pos (mul_nonneg top numNonneg))
  unfold deviceInputBox at sent
  dsimp only at sent
  split at sent
  · cases sent
  rename_i some
  rw [not_or, not_le, not_le] at some
  cases sent
  refine ⟨by dsimp only; omega, by dsimp only; omega, start, last, zones, ?_⟩
  change _ ↔ (_ → _ < (map.uprightFrame.width + 1) * _) ∧
    (_ → _ < (map.uprightFrame.height + 1) * _)
  rw [← min_eq_right_iff, ← min_eq_right_iff, ← isRight, ← isBottom, ← across, ← down]
  simp only [Rect.Within, Rect.right, Rect.bottom]
  omega

namespace Sample

/-- A frame of 2881 by 1440 pixels: at the scale 2 its width is 1440 and a half. -/
def odd : DisplayObservation := plain (extent 2881 1440 (by decide) (by decide))

def oddMap : DisplayMap where
  kind := .translate
  base := base
  frame := odd.frame
  turn := none
  scale := ⟨2, 1, by decide⟩
  scaleExtent := extent 1441 720 (by decide) (by decide)
  anchorArea := ⟨0, 0, 1441, 720⟩
  frameOffset := ⟨0, 0⟩
  scaleFrame := extent 1441 720 (by decide) (by decide)
  crop := none
  rule := some byHeight
  atLeastOne := by decide

lemma odd_builds : build base odd (some byHeight) = .ok oddMap := by
  decide +kernel

end Sample

open Sample

theorem input_box_on_screen_iff_odd :
    oddMap.mapInputBox ⟨1100, 0, 80, 40⟩ (some .topRight) = .ok ⟨2522, 0, 160, 80⟩ ∧
      (⟨2522, 0, 160, 80⟩ : Rect).Within odd.frame := by
  have accepted : oddMap.mapInputBox ⟨1100, 0, 80, 40⟩ (some .topRight) =
      .ok ⟨2522, 0, 160, 80⟩ := by decide +kernel
  obtain ⟨-, -, start, last, zones, inside⟩ := input_box_on_screen_iff base odd
    (some byHeight) oddMap odd_builds ⟨1100, 0, 80, 40⟩ ⟨2522, 0, 160, 80⟩
    (some .topRight) accepted
  obtain ⟨rfl, rfl⟩ := Prod.mk.inj (ok.inj zones)
  exact ⟨accepted, inside.mpr ⟨by decide, by decide⟩⟩

/-- A box at the right edge of the base ends behind the last column of the frame. -/
theorem input_box_off_screen :
    build base odd (some byHeight) = .ok oddMap ∧
      oddMap.mapInputBox ⟨1200, 0, 80, 40⟩ (some .topRight) = .ok ⟨2722, 0, 160, 80⟩ ∧
      ¬ (⟨2722, 0, 160, 80⟩ : Rect).Within odd.frame := by
  refine ⟨odd_builds, by decide +kernel, ?_⟩
  rintro ⟨-, right, -⟩
  exact absurd right (by decide)

end Display
