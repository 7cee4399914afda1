import ActingCommand.Machine
import ActingCommand.Rounding

/-!
# The display map

A package writes coordinates on a base of its own. The map of one delivered frame brings the frame
to the base's scale, places base regions and points on it by nine anchors, and takes them to the
pixels of the device. Everything is integer arithmetic.
-/

namespace Display

open Machine Rounding

/-! ## Values -/

structure Point where
  x : Int
  y : Int
deriving DecidableEq

/-- A box with open right and bottom edges. -/
structure Rect where
  x : Int
  y : Int
  width : Int
  height : Int
deriving DecidableEq

namespace Rect

def right (rect : Rect) : Int := rect.x + rect.width

def bottom (rect : Rect) : Int := rect.y + rect.height

end Rect

/-- A size in pixels; neither side is zero. -/
structure CaptureExtent where
  width : Nat
  height : Nat
  widthPos : 0 < width
  heightPos : 0 < height
  widthFits : width ≤ u32Max
  heightFits : height ≤ u32Max
deriving DecidableEq

structure CaptureInsets where
  left : Nat
  top : Nat
  right : Nat
  bottom : Nat
deriving DecidableEq

/-- A region of the logical display. -/
structure CaptureFrameCrop where
  x : Nat
  y : Nat
  width : Nat
  height : Nat
deriving DecidableEq

inductive CaptureRotation
  | r0
  | r90
  | r180
  | r270

inductive DisplayScaleBy
  | height
  | width
deriving DecidableEq

inductive DisplayArea
  | screen
  | safeArea
deriving DecidableEq

inductive DisplayMapKind
  | identity
  | scale
  | translate
deriving DecidableEq

/-- The game's rule: the side and the area that the scale is measured on, and the area that the
anchors lie on. -/
structure DisplayRule where
  scaleBy : DisplayScaleBy
  scaleArea : DisplayArea
  anchorArea : DisplayArea
deriving DecidableEq

/-- What one delivered frame shows. -/
structure DisplayObservation where
  frame : CaptureExtent
  display : CaptureExtent
  rotation : Option CaptureRotation
  crop : Option CaptureFrameCrop
  insets : Option CaptureInsets

inductive DisplayProblem
  | layoutUndeclared
  | scaleBelowBase
  | collapsed
  | outsideFrame
  | straddlesZones
  | orientationMismatch
deriving DecidableEq

inductive DisplayLocation
  | mapBuild
  | regionMap
  | inputMap
deriving DecidableEq

/-- What could not be mapped, at which step, for which frame and base. -/
structure DisplayMapUnresolved where
  problem : DisplayProblem
  stage : DisplayLocation
  frame : CaptureExtent
  base : CaptureExtent
deriving DecidableEq

inductive DisplayMapError
  | unresolved (refusal : DisplayMapUnresolved)
  | safeAreaUnavailable
  | rotationUnknown
  | frameDisplayMismatch
deriving DecidableEq

/-! ## Orientation -/

inductive Orientation
  | landscape
  | portrait
  | square
deriving DecidableEq

namespace Orientation

/-- `Orientation::of`. -/
def ofExtent (extent : CaptureExtent) : Orientation :=
  match compare extent.width extent.height with
  | .gt => .landscape
  | .lt => .portrait
  | .eq => .square

def agreesWith (frame package : Orientation) : Bool :=
  frame = package || frame = .square || package = .square

end Orientation

/-- A turn that brings a frame in the display's natural orientation upright. -/
inductive QuarterTurn
  | clockwise
  | counterclockwise
deriving DecidableEq

namespace QuarterTurn

def forRotation : CaptureRotation → Option QuarterTurn
  | .r90 => some .clockwise
  | .r270 => some .counterclockwise
  | .r0 | .r180 => none

/-- A pixel of a frame of the delivered size, after the turn. -/
def turnPoint (turn : QuarterTurn) (point : Point) (delivered : CaptureExtent) : Point :=
  match turn with
  | clockwise => ⟨delivered.height - 1 - point.y, point.x⟩
  | counterclockwise => ⟨point.y, delivered.width - 1 - point.x⟩

/-- A pixel of the upright frame, back in the frame of the delivered size. -/
def undoPoint (turn : QuarterTurn) (point : Point) (delivered : CaptureExtent) : Point :=
  match turn with
  | clockwise => ⟨point.y, delivered.height - 1 - point.x⟩
  | counterclockwise => ⟨delivered.width - 1 - point.y, point.x⟩

end QuarterTurn

inductive OrientationDisposition
  | asDelivered
  | turn (turn : QuarterTurn)
  | mismatch
  | rotationUnknown

/-- The rotation table for a package of the base's size. -/
def orientationDisposition (base frame display : CaptureExtent)
    (rotation : Option CaptureRotation) : OrientationDisposition :=
  let package := Orientation.ofExtent base
  if (Orientation.ofExtent frame).agreesWith package then .asDelivered
  else
    match rotation with
    | none => .rotationUnknown
    | some rotation =>
      if ¬ (Orientation.ofExtent display).agreesWith package then .mismatch
      else
        match QuarterTurn.forRotation rotation with
        | some turn => .turn turn
        | none => .asDelivered

/-! ## The scale -/

/-- Narrows a computed coordinate, holding it at the ends of its range. -/
def saturate (value : Int) : Int :=
  if i64Min ≤ value ∧ value ≤ i64Max then value
  else if value < 0 then i64Min
  else i64Max

/-- A scale factor `num / den`. -/
structure Scale where
  num : Nat
  den : Nat
  denPos : 0 < den
deriving DecidableEq

namespace Scale

/-- The factor in lowest terms. -/
def reduced (num den : Nat) (positive : 0 < den) : Scale where
  num := num / max (Nat.gcd num den) 1
  den := den / max (Nat.gcd num den) 1
  denPos := by
    have divides : Nat.gcd num den ≤ den := Nat.gcd_le_right num positive
    exact Nat.div_pos (by omega) (by omega)

variable (scale : Scale)

def isOne : Bool := scale.num = scale.den

variable (value : Int)

def upNearest : Int :=
  saturate (halfUp (value * scale.num) scale.den)

def upFloor : Int := saturate (value * scale.num / scale.den)

def upCeil : Int := saturate (ceilDiv (value * scale.num) scale.den)

def downNearest : Int :=
  saturate (halfUp (value * scale.den) scale.num)

end Scale

/-! ## Zones and anchors -/

/-- Where a coordinate lies along one axis: the first, the middle or the last third. -/
inductive Zone
  | start
  | middle
  | last
deriving DecidableEq

/-- `Zone::of`: both third lines belong to the middle. -/
def Zone.ofValue (value : Int) (base : Nat) : Zone :=
  if value * 3 < base then .start
  else if value * 3 > base * 2 then .last
  else .middle

inductive Anchor
  | topLeft
  | top
  | topRight
  | left
  | center
  | right
  | bottomLeft
  | bottom
  | bottomRight

/-- The horizontal and the vertical zone. -/
def Anchor.zones : Anchor → Zone × Zone
  | topLeft => (.start, .start)
  | top => (.middle, .start)
  | topRight => (.last, .start)
  | left => (.start, .middle)
  | center => (.middle, .middle)
  | right => (.last, .middle)
  | bottomLeft => (.start, .last)
  | bottom => (.middle, .last)
  | bottomRight => (.last, .last)

inductive RegionClass
  | searchHint
  | positional
deriving DecidableEq

/-! ## The map of one frame -/

structure DisplayMap where
  kind : DisplayMapKind
  base : CaptureExtent
  frame : CaptureExtent
  turn : Option QuarterTurn
  scale : Scale
  scaleExtent : CaptureExtent
  anchorArea : Rect
  frameOffset : Point
  scaleFrame : CaptureExtent
  crop : Option CaptureFrameCrop
  rule : Option DisplayRule
  /-- The scale is never below one. -/
  atLeastOne : scale.den ≤ scale.num
deriving DecidableEq

def noInsets : CaptureInsets := ⟨0, 0, 0, 0⟩

def insetsFit (insets : CaptureInsets) (source : CaptureExtent) : Bool :=
  insets.left + insets.right < source.width && insets.top + insets.bottom < source.height

/-- The insets of an area; the safe area needs insets that leave a width and a height. -/
def areaInsets (area : DisplayArea) (observed : Option CaptureInsets) (source : CaptureExtent)
    (collapsed : DisplayMapError) : Except DisplayMapError CaptureInsets :=
  match area, observed with
  | .screen, _ => .ok noInsets
  | .safeArea, none => .error .safeAreaUnavailable
  | .safeArea, some insets => if insetsFit insets source then .ok insets else .error collapsed

def cropShows (crop : CaptureFrameCrop) (frame display : CaptureExtent) : Bool :=
  crop.width = frame.width && crop.height = frame.height &&
    crop.x + crop.width ≤ display.width && crop.y + crop.height ≤ display.height

def sameAspect (left right : CaptureExtent) : Bool :=
  left.width * right.height = left.height * right.width

def swapped (extent : CaptureExtent) : CaptureExtent :=
  ⟨extent.height, extent.width, extent.heightPos, extent.widthPos, extent.heightFits,
    extent.widthFits⟩

def extentOf (width height : Int) : Option CaptureExtent :=
  if fits : 0 < width ∧ width ≤ u32Max ∧ 0 < height ∧ height ≤ u32Max then
    some ⟨width.toNat, height.toNat, by omega, by omega, by omega, by omega⟩
  else none

/-- Subtraction of unsigned numbers. -/
def checkedSub (left right : Nat) : Option Nat := if right ≤ left then some (left - right) else none

def upright (frame : CaptureExtent) : Option QuarterTurn → CaptureExtent
  | some _ => swapped frame
  | none => frame

section Build

variable (base : CaptureExtent) (observation : DisplayObservation)

def refuse (problem : DisplayProblem) : DisplayMapError :=
  .unresolved ⟨problem, .mapBuild, observation.frame, base⟩

/-- The rotation table of the frame. -/
def turnOf : Except DisplayMapError (Option QuarterTurn) :=
  match orientationDisposition base observation.frame observation.display observation.rotation with
  | .asDelivered => .ok none
  | .turn turn => .ok (some turn)
  | .mismatch => .error (refuse base observation .orientationMismatch)
  | .rotationUnknown => .error .rotationUnknown

/-- The layout is the logical display of a crop, or else the upright frame, which must show its
display. -/
def layoutOf (upright : CaptureExtent) : Except DisplayMapError CaptureExtent :=
  match observation.crop with
  | some crop =>
    if cropShows crop upright observation.display then .ok observation.display
    else .error .frameDisplayMismatch
  | none =>
    if sameAspect upright observation.display then .ok upright else .error .frameDisplayMismatch

/-- The scale and the insets of the anchor area. Without a rule only a pure scale of the base with
no insets in use maps. -/
def scaleOf (source : CaptureExtent) : Option DisplayRule →
    Except DisplayMapError (Scale × CaptureInsets)
  | none =>
    if observation.insets.any (fun insets => decide (insets ≠ noInsets)) || !sameAspect source base
    then .error (refuse base observation .layoutUndeclared)
    else .ok (Scale.reduced source.width base.width base.widthPos, noInsets)
  | some rule => do
    let collapsed := refuse base observation .collapsed
    let scaleInsets ← areaInsets rule.scaleArea observation.insets source collapsed
    let anchorInsets ← areaInsets rule.anchorArea observation.insets source collapsed
    match rule.scaleBy with
    | .height =>
      match ((checkedSub source.height scaleInsets.top).bind fun rest =>
          checkedSub rest scaleInsets.bottom).filter fun side => decide (0 < side) with
      | some measured => .ok (Scale.reduced measured base.height base.heightPos, anchorInsets)
      | none => .error collapsed
    | .width =>
      match ((checkedSub source.width scaleInsets.left).bind fun rest =>
          checkedSub rest scaleInsets.right).filter fun side => decide (0 < side) with
      | some measured => .ok (Scale.reduced measured base.width base.widthPos, anchorInsets)
      | none => .error collapsed

/-- The part of the scale space that the frame covers. -/
def frameAreaOf (scale : Scale) (crop : Option CaptureFrameCrop) (scaleWidth scaleHeight : Int) :
    Rect :=
  match crop with
  | some crop =>
    ⟨scale.downNearest crop.x, scale.downNearest crop.y, scale.downNearest crop.width,
      scale.downNearest crop.height⟩
  | none => ⟨0, 0, scaleWidth, scaleHeight⟩

/-- Everything the scale determines. -/
def layOut (turn : Option QuarterTurn) (source : CaptureExtent) (scale : Scale)
    (anchorInsets : CaptureInsets) (rule : Option DisplayRule)
    (atLeastOne : scale.den ≤ scale.num) :
    Except DisplayMapError DisplayMap :=
  let scaleWidth := scale.downNearest source.width
  let scaleHeight := scale.downNearest source.height
  match extentOf scaleWidth scaleHeight with
  | none => .error (refuse base observation .collapsed)
  | some scaleExtent =>
    let left := scale.downNearest anchorInsets.left
    let top := scale.downNearest anchorInsets.top
    let right := scale.downNearest anchorInsets.right
    let bottom := scale.downNearest anchorInsets.bottom
    let anchorArea : Rect := ⟨left, top, scaleWidth - left - right, scaleHeight - top - bottom⟩
    if anchorArea.width < 1 ∨ anchorArea.height < 1 then
      .error (refuse base observation .collapsed)
    else
      let frameArea := frameAreaOf scale observation.crop scaleWidth scaleHeight
      match extentOf frameArea.width frameArea.height with
      | none => .error (refuse base observation .collapsed)
      | some scaleFrame =>
        .ok {
          kind :=
            if scaleExtent ≠ base ∨ anchorArea ≠ ⟨0, 0, base.width, base.height⟩ then .translate
            else if scale.isOne then .identity
            else .scale
          base := base
          frame := observation.frame
          turn := turn
          scale := scale
          scaleExtent := scaleExtent
          anchorArea := anchorArea
          frameOffset := ⟨frameArea.x, frameArea.y⟩
          scaleFrame := scaleFrame
          crop := observation.crop
          rule := rule
          atLeastOne := atLeastOne }

/-- The map of one frame for a package of the base's size under the game's rule. -/
def DisplayMap.build (rule : Option DisplayRule) : Except DisplayMapError DisplayMap :=
  match turnOf base observation with
  | .error error => .error error
  | .ok turn =>
    match layoutOf observation (upright observation.frame turn) with
    | .error error => .error error
    | .ok source =>
      match scaleOf base observation source rule with
      | .error error => .error error
      | .ok (scale, anchorInsets) =>
        if atLeastOne : scale.den ≤ scale.num then
          layOut base observation turn source scale anchorInsets rule atLeastOne
        else .error (refuse base observation .scaleBelowBase)

end Build

/-- A base coordinate in the scale space along one axis: the start of the anchor area, the
coordinate, and nothing, half or all of the room that the area has beyond the base. -/
def place (value : Int) (zone : Zone) (areaStart areaLength : Int) (base : Nat) : Int :=
  let room := areaLength - base
  let offset := match zone with
    | .start => 0
    | .middle => room / 2
    | .last => room
  areaStart + value + offset

namespace DisplayMap

variable (map : DisplayMap)

/-- The frame as it stands upright: what the device pixels are of. -/
def uprightFrame : CaptureExtent := upright map.frame map.turn

def unresolved (problem : DisplayProblem) (stage : DisplayLocation) : DisplayMapUnresolved :=
  ⟨problem, stage, map.frame, map.base⟩

def placeX (value : Int) (zone : Zone) : Int :=
  place value zone map.anchorArea.x map.anchorArea.width map.base.width

def placeY (value : Int) (zone : Zone) : Int :=
  place value zone map.anchorArea.y map.anchorArea.height map.base.height

variable (region : Rect) (point : Point) (anchor : Option Anchor)

variable (isPositional : Bool) (stage : DisplayLocation) (rect : Rect)

/-- The zones of a region's corners: those of the anchor, or each corner's own. A positional region
must not cross a third line under a translation. -/
def cornerZones : Except DisplayMapUnresolved ((Zone × Zone) × (Zone × Zone)) :=
  match anchor with
  | some anchor => .ok (anchor.zones, anchor.zones)
  | none =>
    let start := (Zone.ofValue region.x map.base.width, Zone.ofValue region.y map.base.height)
    let last := (Zone.ofValue region.right map.base.width,
      Zone.ofValue region.bottom map.base.height)
    if isPositional = true ∧ map.kind = .translate ∧ start ≠ last then
      .error (map.unresolved .straddlesZones stage)
    else .ok (start, last)

def cutToFrame (left top right bottom : Int) (stage : DisplayLocation) :
    Except DisplayMapUnresolved Rect :=
  let left := max (left - map.frameOffset.x) 0
  let top := max (top - map.frameOffset.y) 0
  let right := min (right - map.frameOffset.x) map.scaleFrame.width
  let bottom := min (bottom - map.frameOffset.y) map.scaleFrame.height
  if right ≤ left ∨ bottom ≤ top then .error (map.unresolved .outsideFrame stage)
  else .ok ⟨left, top, right - left, bottom - top⟩

def regionInFrame : Except DisplayMapUnresolved Rect :=
  match map.cornerZones region anchor isPositional stage with
  | .error error => .error error
  | .ok (start, last) =>
    let left := map.placeX region.x start.1
    let top := map.placeY region.y start.2
    let right := map.placeX region.right last.1
    let bottom := map.placeY region.bottom last.2
    if right ≤ left ∨ bottom ≤ top then .error (map.unresolved .collapsed stage)
    else map.cutToFrame left top right bottom stage

/-- A base region in the scale frame. -/
def mapRegion (regionClass : RegionClass) : Except DisplayMapUnresolved Rect :=
  map.regionInFrame region anchor (regionClass = .positional) .regionMap

/-- A scale-frame input box in device pixels, rounded inward. -/
def deviceInputBox : Except DisplayMapUnresolved Rect :=
  let left := map.scale.upCeil rect.x
  let top := map.scale.upCeil rect.y
  let right := map.scale.upFloor rect.right
  let bottom := map.scale.upFloor rect.bottom
  if right ≤ left ∨ bottom ≤ top then .error (map.unresolved .collapsed .inputMap)
  else .ok ⟨left, top, right - left, bottom - top⟩

/-- A base input box in device pixels, mapped as a positional region. -/
def mapInputBox : Except DisplayMapUnresolved Rect := do
  let mapped ← map.regionInFrame region anchor true .inputMap
  map.deviceInputBox mapped

def pointZones : Option Anchor → Zone × Zone
  | some anchor => anchor.zones
  | none => (Zone.ofValue point.x map.base.width, Zone.ofValue point.y map.base.height)

/-- A base point in the scale frame. -/
def mapPoint : Except DisplayMapUnresolved Point :=
  let zones := map.pointZones point anchor
  let x := map.placeX point.x zones.1 - map.frameOffset.x
  let y := map.placeY point.y zones.2 - map.frameOffset.y
  if (0 ≤ x ∧ x < map.scaleFrame.width) ∧ 0 ≤ y ∧ y < map.scaleFrame.height then .ok ⟨x, y⟩
  else .error (map.unresolved .outsideFrame .inputMap)

/-- A scale-frame point in device pixels. -/
def devicePoint : Point :=
  ⟨map.scale.upNearest point.x, map.scale.upNearest point.y⟩

/-- A scale-frame evidence box in device pixels, rounded outward. -/
def deviceEvidenceBox : Rect :=
  let left := map.scale.upFloor rect.x
  let top := map.scale.upFloor rect.y
  let right := map.scale.upCeil rect.right
  let bottom := map.scale.upCeil rect.bottom
  ⟨left, top, right - left, bottom - top⟩

def scaleFramePoint : Point :=
  ⟨map.scale.downNearest point.x, map.scale.downNearest point.y⟩

/-- A device box back in the scale frame, each edge to the nearest. -/
def scaleFrameBox : Rect :=
  let left := map.scale.downNearest rect.x
  let top := map.scale.downNearest rect.y
  let right := map.scale.downNearest rect.right
  let bottom := map.scale.downNearest rect.bottom
  ⟨left, top, right - left, bottom - top⟩

/-- A device point in logical-display coordinates: the crop's offset is added back. -/
def displayPoint : Point :=
  match map.crop with
  | some crop => ⟨point.x + crop.x, point.y + crop.y⟩
  | none => point

/-- A device point of the upright frame in the frame as delivered: the turn is undone. -/
def deliveredPoint : Point :=
  match map.turn with
  | some turn => turn.undoPoint point map.frame
  | none => point

end DisplayMap

end Display
