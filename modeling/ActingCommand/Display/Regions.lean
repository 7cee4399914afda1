import ActingCommand.Display.Screen

/-!
# Where base regions land

A region is placed corner by corner, each corner by the anchor of its own zone or both by one
anchor, and is then cut to the frame.
-/

namespace Display

open Sample Rect

/-! ## One axis -/

/-- The offset of a zone in an area that has this much more room than the base. -/
def zoneOffset (room : Int) : Zone → Int
  | .start => 0
  | .middle => room / 2
  | .last => room

lemma place_eq (value : Int) (zone : Zone) (areaStart areaLength : Int) (base : Nat) :
    place value zone areaStart areaLength base =
      areaStart + value + zoneOffset (areaLength - base) zone := by
  cases zone <;> rfl

/-- A zone of a later coordinate has no smaller offset. -/
theorem zoneOffset_mono {room first second : Int} {base : Nat} (nonneg : 0 ≤ room)
    (less : first ≤ second) :
    zoneOffset room (Zone.ofValue first base) ≤ zoneOffset room (Zone.ofValue second base) := by
  unfold Zone.ofValue
  split_ifs <;> simp only [zoneOffset] <;> omega

/-- Without room every zone has the same offset. -/
theorem zoneOffset_zero (zone : Zone) : zoneOffset 0 zone = 0 := by
  cases zone <;> rfl

namespace DisplayMap

variable (map : DisplayMap)

/-- The offset of a zone across and down. -/
def offsetX (zone : Zone) : Int := zoneOffset (map.anchorArea.width - map.base.width) zone

def offsetY (zone : Zone) : Int := zoneOffset (map.anchorArea.height - map.base.height) zone

lemma placeX_eq (value : Int) (zone : Zone) :
    map.placeX value zone = map.anchorArea.x + value + map.offsetX zone :=
  place_eq _ _ _ _ _

lemma placeY_eq (value : Int) (zone : Zone) :
    map.placeY value zone = map.anchorArea.y + value + map.offsetY zone :=
  place_eq _ _ _ _ _

variable {map}

/-! ## The corners -/

variable {region : Rect} {anchor : Option Anchor} {isPositional : Bool} {stage : DisplayLocation}
  {start last : Zone × Zone}

lemma cornerZones_ok
    (zones : map.cornerZones region anchor isPositional stage = .ok (start, last)) :
    start = last ∨ anchor = none ∧ ¬ (isPositional = true ∧ map.kind = .translate) ∧
      start = (Zone.ofValue region.x map.base.width, Zone.ofValue region.y map.base.height) ∧
      last =
        (Zone.ofValue region.right map.base.width, Zone.ofValue region.bottom map.base.height) := by
  unfold cornerZones at zones
  split at zones
  · cases zones
    exact .inl rfl
  dsimp only at zones
  split at zones
  · cases zones
  rename_i allowed
  cases zones
  by_cases same : (Zone.ofValue region.x map.base.width,
      Zone.ofValue region.y map.base.height) =
    (Zone.ofValue region.right map.base.width, Zone.ofValue region.bottom map.base.height)
  · exact .inl same
  · exact .inr ⟨rfl, fun both => allowed ⟨both.1, both.2, same⟩, rfl, rfl⟩

variable {base : CaptureExtent} {observation : DisplayObservation}

/-- The corners of a positional region move alike. -/
theorem offsets_eq (built : Built base observation map)
    (zones : map.cornerZones region anchor true stage = .ok (start, last)) :
    map.offsetX start.1 = map.offsetX last.1 ∧ map.offsetY start.2 = map.offsetY last.2 := by
  rcases cornerZones_ok zones with rfl | ⟨-, allowed, -, -⟩
  · exact ⟨rfl, rfl⟩
  obtain ⟨-, area⟩ := built.untranslated fun moved => allowed ⟨rfl, moved⟩
  simp only [offsetX, offsetY, area, sub_self, zoneOffset_zero]
  exact ⟨trivial, trivial⟩

variable {refusal : DisplayMapUnresolved}

lemma cornerZones_error
    (zones : map.cornerZones region anchor isPositional stage = .error refusal) :
    refusal.problem = .straddlesZones := by
  unfold cornerZones at zones
  split at zones
  · cases zones
  dsimp only at zones
  split at zones
  · cases zones
    rfl
  · cases zones

variable {rect : Rect}

lemma cutToFrame_error {left top right bottom : Int}
    (cut : map.cutToFrame left top right bottom stage = .error refusal) :
    refusal.problem = .outsideFrame := by
  unfold cutToFrame at cut
  dsimp only at cut
  split at cut
  · cases cut
    rfl
  · cases cut

/-! ## Regions -/

/-- A region that is refused for another reason than that nothing of it is left. -/
theorem regionInFrame_error
    (refused : map.regionInFrame region anchor isPositional stage = .error refusal)
    (wide : (map.base.width : Int) ≤ map.anchorArea.width)
    (tall : (map.base.height : Int) ≤ map.anchorArea.height)
    (nonempty : 0 < region.width ∧ 0 < region.height) : refusal.problem ≠ .collapsed := by
  unfold regionInFrame at refused
  split at refused
  · rename_i error zones
    cases refused
    rw [cornerZones_error zones]
    decide
  rename_i start last zones
  -- The corners keep at least the region's size, as the anchor area is no smaller than the base.
  have apart : map.offsetX start.1 ≤ map.offsetX last.1 ∧
      map.offsetY start.2 ≤ map.offsetY last.2 := by
    rcases cornerZones_ok zones with rfl | ⟨-, -, rfl, rfl⟩
    · exact ⟨le_rfl, le_rfl⟩
    simp only [right, bottom]
    exact ⟨zoneOffset_mono (by omega) (by omega), zoneOffset_mono (by omega) (by omega)⟩
  dsimp only at refused
  split at refused
  · rename_i empty
    rw [placeX_eq, placeX_eq, placeY_eq, placeY_eq] at empty
    simp only [right, bottom] at empty
    omega
  · rw [cutToFrame_error refused]
    decide

/-- A map that neither translates nor crops leaves a region of the base where it is. -/
theorem regionInFrame_self (built : Built base observation map)
    (untranslated : map.kind ≠ .translate) (uncropped : map.crop = none)
    (nonempty : 0 < region.width ∧ 0 < region.height) (within : region.Within map.base)
    (anchor : Option Anchor) (isPositional : Bool) (stage : DisplayLocation) :
    map.regionInFrame region anchor isPositional stage = .ok region := by
  obtain ⟨isExtent, area⟩ := built.untranslated untranslated
  obtain ⟨offset, isFrame⟩ := built.uncropped uncropped
  have placedX : ∀ value zone, map.placeX value zone = value := by
    intro value zone
    simp only [placeX_eq, offsetX, area, sub_self, zoneOffset_zero]
    omega
  have placedY : ∀ value zone, map.placeY value zone = value := by
    intro value zone
    simp only [placeY_eq, offsetY, area, sub_self, zoneOffset_zero]
    omega
  have zones : ∃ start last,
      map.cornerZones region anchor isPositional stage = .ok (start, last) := by
    cases anchor with
    | some anchor => exact ⟨_, _, rfl⟩
    | none => exact ⟨_, _, if_neg fun refused => untranslated refused.2.1⟩
  obtain ⟨start, last, zones⟩ := zones
  obtain ⟨left, right, top, bottom⟩ := within
  unfold regionInFrame
  rw [zones]
  dsimp only
  rw [placedX, placedX, placedY, placedY, if_neg]
  · unfold cutToFrame
    rw [offset, isFrame, isExtent]
    dsimp only
    simp only [Rect.right, Rect.bottom, sub_zero] at right bottom ⊢
    rw [max_eq_left left, max_eq_left top, min_eq_left right, min_eq_left bottom, if_neg (by omega),
      add_sub_cancel_left, add_sub_cancel_left]
  · simp only [Rect.right, Rect.bottom]
    omega

end DisplayMap

/-- Region mapping of a built map. Where the anchor area is no smaller than the base, no region with
a width and a height is refused for having none left, and what it is mapped to has both. A
positional region is mapped to a box of its own size at its placed corner, cut to the frame: it
keeps its size where the frame does not cut it. A map that neither translates nor crops leaves every
region of the base where it is. -/
theorem region_mapping (base : CaptureExtent) (observation : DisplayObservation)
    (rule : Option DisplayRule) (map : DisplayMap)
    (built : DisplayMap.build base observation rule = .ok map) :
    ((map.base.width : Int) ≤ map.anchorArea.width →
      (map.base.height : Int) ≤ map.anchorArea.height →
      ∀ region anchor regionClass, 0 < region.width ∧ 0 < region.height → region.Within map.base →
        (∀ refusal, map.mapRegion region anchor regionClass = .error refusal →
          refusal.problem ≠ .collapsed) ∧
        ∀ rect, map.mapRegion region anchor regionClass = .ok rect →
          0 < rect.width ∧ 0 < rect.height) ∧
    (∀ region anchor rect, map.mapRegion region anchor .positional = .ok rect →
      ∃ start last, map.cornerZones region anchor true .regionMap = .ok (start, last) ∧
        rect.x = max (map.placeX region.x start.1 - map.frameOffset.x) 0 ∧
        rect.y = max (map.placeY region.y start.2 - map.frameOffset.y) 0 ∧
        rect.right = min (map.placeX region.x start.1 - map.frameOffset.x + region.width)
          map.scaleFrame.width ∧
        rect.bottom = min (map.placeY region.y start.2 - map.frameOffset.y + region.height)
          map.scaleFrame.height ∧
        ((⟨map.placeX region.x start.1 - map.frameOffset.x,
            map.placeY region.y start.2 - map.frameOffset.y, region.width, region.height⟩ :
            Rect).Within map.scaleFrame →
          rect.width = region.width ∧ rect.height = region.height)) ∧
    (map.kind ≠ .translate → map.crop = none → ∀ region anchor regionClass,
      0 < region.width ∧ 0 < region.height → region.Within map.base →
        map.mapRegion region anchor regionClass = .ok region) := by
  have facts := built_of_build built
  refine ⟨?_, ?_, ?_⟩
  · intro wide tall region anchor regionClass nonempty within
    refine ⟨fun refusal refused => ?_, fun rect mapped => ?_⟩
    · exact DisplayMap.regionInFrame_error refused wide tall nonempty
    · obtain ⟨start, last, zones, cut⟩ := regionInFrame_ok mapped
      exact (cutToFrame_ok cut).2.2.2.2
  · intro region anchor rect mapped
    obtain ⟨start, last, zones, cut⟩ := regionInFrame_ok mapped
    obtain ⟨across, down⟩ := DisplayMap.offsets_eq facts zones
    obtain ⟨isLeft, isTop, isRight, isBottom, -⟩ := cutToFrame_ok cut
    have width : map.placeX region.right last.1 = map.placeX region.x start.1 + region.width := by
      rw [DisplayMap.placeX_eq, DisplayMap.placeX_eq, ← across, right]
      omega
    have height : map.placeY region.bottom last.2 =
        map.placeY region.y start.2 + region.height := by
      rw [DisplayMap.placeY_eq, DisplayMap.placeY_eq, ← down, bottom]
      omega
    rw [width, add_sub_right_comm] at isRight
    rw [height, add_sub_right_comm] at isBottom
    refine ⟨start, last, zones, isLeft, isTop, isRight, isBottom, ?_⟩
    rintro ⟨insideLeft, insideRight, insideTop, insideBottom⟩
    simp only [right] at isRight insideLeft insideRight
    simp only [bottom] at isBottom insideTop insideBottom
    rw [max_eq_left insideLeft] at isLeft
    rw [max_eq_left insideTop] at isTop
    rw [min_eq_left insideRight] at isRight
    rw [min_eq_left insideBottom] at isBottom
    omega
  · intro untranslated uncropped region anchor regionClass nonempty within
    exact DisplayMap.regionInFrame_self facts untranslated uncropped nonempty within anchor _ _

theorem region_mapping_odd :
    oddMap.mapRegion ⟨1200, 0, 80, 40⟩ (some .topRight) .positional =
      .ok ⟨1361, 0, 80, 40⟩ ∧ ∀ refusal,
      oddMap.mapRegion ⟨400, 200, 500, 300⟩ none .searchHint = .error refusal →
        refusal.problem ≠ .collapsed :=
  ⟨by decide +kernel, ((region_mapping base odd (some byHeight) oddMap
    odd_builds).1 (by decide) (by decide) ⟨400, 200, 500, 300⟩ none .searchHint (by decide)
    ⟨by decide, by decide, by decide, by decide⟩).1⟩

end Display
