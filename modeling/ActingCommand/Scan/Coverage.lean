import ActingCommand.Scan.Geometry
import ActingCommand.Scan.EarlyStop

/-!
# The coverage bands

Every viewport shows one band of the list, an interval of content coordinates. The scan accepts
its bands only when each one starts at least one instance before the end of the union before it,
so an entry of that extent was never shown in parts only.
-/

namespace Scan

open List Except Sample

/-- The walk over the sorted bands after the first, with the furthest end so far. -/
def gapBeyond (extent : Int) : Int → List (Int × Int) → Option Int
  | _, [] => none
  | reach, (start, stop) :: rest =>
    let needed := reach - extent
    if start > needed then some (start - needed)
    else gapBeyond extent (max reach stop) rest

/-- The first gap of the coverage bands, as the pixels by which a band starts too late to overlap
the union before it by `extent`. -/
def coverageGap (bands : List (Int × Int)) (extent : Int) : Option Int :=
  match tupleSort bands with
  | [] => none
  | (_, reach) :: rest => gapBeyond extent reach rest

/-- The hull of the bands: from their least start to their greatest end. -/
def hull : List (Int × Int) → Option (Int × Int)
  | [] => none
  | band :: rest => some (rest.foldl (fun held next => (min held.1 next.1, max held.2 next.2)) band)

lemma foldl_hull_attained (rest : List (Int × Int)) (held : Int × Int) :
    let last := rest.foldl (fun held next => (min held.1 next.1, max held.2 next.2)) held
    (last.1 = held.1 ∨ ∃ band ∈ rest, band.1 = last.1) ∧
      (last.2 = held.2 ∨ ∃ band ∈ rest, band.2 = last.2) := by
  induction rest generalizing held with
  | nil => exact ⟨.inl rfl, .inl rfl⟩
  | cons band rest ih =>
    obtain ⟨low, high⟩ := ih (min held.1 band.1, max held.2 band.2)
    constructor
    · rcases low with same | ⟨other, listed, same⟩
      · rcases min_choice held.1 band.1 with left | right
        · exact .inl (same.trans left)
        · exact .inr ⟨band, mem_cons_self, (same.trans right).symm⟩
      · exact .inr ⟨other, mem_cons_of_mem _ listed, same⟩
    · rcases high with same | ⟨other, listed, same⟩
      · rcases max_choice held.2 band.2 with left | right
        · exact .inl (same.trans left)
        · exact .inr ⟨band, mem_cons_self, (same.trans right).symm⟩
      · exact .inr ⟨other, mem_cons_of_mem _ listed, same⟩

/-- The ends of the hull are a start and an end of bands. -/
theorem hull_attained {bands} {low high : Int} (within : hull bands = some (low, high)) :
    (∃ band ∈ bands, band.1 = low) ∧ ∃ band ∈ bands, band.2 = high := by
  cases bands with
  | nil => cases within
  | cons first rest =>
    have last := Option.some.inj within
    obtain ⟨lows, highs⟩ := foldl_hull_attained rest first
    rw [last] at lows highs
    constructor
    · rcases lows with same | ⟨band, listed, same⟩
      · exact ⟨first, mem_cons_self, same.symm⟩
      · exact ⟨band, mem_cons_of_mem _ listed, same⟩
    · rcases highs with same | ⟨band, listed, same⟩
      · exact ⟨first, mem_cons_self, same.symm⟩
      · exact ⟨band, mem_cons_of_mem _ listed, same⟩

/-- One band that starts at or before the interval and ends where the union so far ends is kept
along the walk; the walk either finds the band of the interval or reaches a band that starts after
it, and then the kept one holds it. -/
theorem gapBeyond_whole {extent first : Int} {rest} {holder : Int × Int}
    (closed : gapBeyond extent holder.2 rest = none) (begins : holder.1 ≤ first)
    (ends : first + extent ≤ holder.2 ∨ ∃ band ∈ rest, first + extent ≤ band.2) :
    ∃ band ∈ holder :: rest, band.1 ≤ first ∧ first + extent ≤ band.2 := by
  induction rest generalizing holder with
  | nil =>
    rcases ends with held | ⟨band, listed, -⟩
    · exact ⟨holder, mem_cons_self, begins, held⟩
    · cases listed
  | cons next rest ih =>
    simp only [gapBeyond] at closed
    split at closed
    · cases closed
    rename_i overlaps
    by_cases later : first < next.1
    · exact ⟨holder, mem_cons_self, begins, by omega⟩
    by_cases further : next.2 ≤ holder.2
    · rw [max_eq_left further] at closed
      have kept : first + extent ≤ holder.2 ∨ ∃ band ∈ rest, first + extent ≤ band.2 := by
        rcases ends with held | ⟨band, listed, reached⟩
        · exact .inl held
        rcases mem_cons.mp listed with rfl | listed
        · exact .inl (by omega)
        · exact .inr ⟨band, listed, reached⟩
      obtain ⟨band, listed, holds⟩ := ih closed begins kept
      rcases mem_cons.mp listed with rfl | listed
      · exact ⟨band, mem_cons_self, holds⟩
      · exact ⟨band, mem_cons_of_mem _ (mem_cons_of_mem _ listed), holds⟩
    · rw [max_eq_right (by omega)] at closed
      have kept : first + extent ≤ next.2 ∨ ∃ band ∈ rest, first + extent ≤ band.2 := by
        rcases ends with held | ⟨band, listed, reached⟩
        · exact .inl (by omega)
        rcases mem_cons.mp listed with rfl | listed
        · exact .inl reached
        · exact .inr ⟨band, listed, reached⟩
      obtain ⟨band, listed, holds⟩ := ih closed (by omega) kept
      exact ⟨band, mem_cons_of_mem _ listed, holds⟩

/-- Bands without a gap hold every interval of the extent inside their hull, each in one band. -/
theorem whole_of_coverageGap_none {bands} {extent low high first : Int}
    (covered : coverageGap bands extent = none) (within : hull bands = some (low, high))
    (begins : low ≤ first) (ends : first + extent ≤ high) :
    ∃ band ∈ bands, band.1 ≤ first ∧ first + extent ≤ band.2 := by
  obtain ⟨⟨lowest, lowListed, lowAt⟩, ⟨furthest, highListed, highAt⟩⟩ := hull_attained within
  have same := tupleSort_perm bands
  have ordered := tupleSort_pairwise bands
  unfold coverageGap at covered
  cases sorted : tupleSort bands with
  | nil =>
    rw [sorted] at same
    cases same.mem_iff.mpr lowListed
  | cons least rest =>
    rw [sorted] at covered same ordered
    have lowestFirst : least.1 ≤ low := by
      rcases mem_cons.mp (same.mem_iff.mpr lowListed) with rfl | listed
      · exact lowAt.le
      · have order := ((pairwise_cons.mp ordered).1 lowest listed).fst_le
        omega
    have reached : first + extent ≤ least.2 ∨ ∃ band ∈ rest, first + extent ≤ band.2 := by
      rcases mem_cons.mp (same.mem_iff.mpr highListed) with rfl | listed
      · exact .inl (by omega)
      · exact .inr ⟨furthest, listed, by omega⟩
    obtain ⟨band, listed, holds⟩ := gapBeyond_whole covered (by omega) reached
    exact ⟨band, same.mem_iff.mp listed, holds⟩

/-! ## The bands of a run -/

namespace ScanSession

variable {session : ScanSession}

/-- The band a viewport at a content offset shows. -/
def bandAt (session : ScanSession) (offset : Int) : Int × Int :=
  (offset + session.bandAxis, offset + (session.bandAxis + session.bandAxisExtent))

/-- Along a run the bands are those of the viewports, in their order. -/
theorem Run.bands {last : ScanState} (run : session.Run .initial last) :
    last.bands = last.viewports.map fun viewport => session.bandAt viewport.offset := by
  induction run with
  | refl => rfl
  | tail _ step ih =>
    obtain ⟨current, motion, offset, endCheck, seen, -⟩ := step.observes
    simp only [observe, bind_ok_iff] at seen
    obtain ⟨observing, -, _, -, evaluated, -, seen⟩ := seen
    cases evaluated with
    | aborted decision => cases seen
    | judged positions =>
      obtain rfl := Observed.viewport.inj (ok.inj seen)
      rw [map_append, ← ih]
      rfl

end ScanSession

/-- Where the bands have no gap, every interval of the extent inside their hull lies inside one
of them; and in a run of a scan whose bands have none, every entry of the extent between the
first and the last band was shown whole by one viewport. -/
theorem coverage_shows_entries_whole :
    (∀ (bands : List (Int × Int)) (extent low high first : Int),
      coverageGap bands extent = none → hull bands = some (low, high) →
      low ≤ first → first + extent ≤ high →
      ∃ band ∈ bands, band.1 ≤ first ∧ first + extent ≤ band.2) ∧
    ∀ (session : ScanSession) (last : ScanState) (extent low high first : Int),
      session.Run .initial last → coverageGap last.bands extent = none →
      hull last.bands = some (low, high) → low ≤ first → first + extent ≤ high →
      ∃ viewport ∈ last.viewports, (session.bandAt viewport.offset).1 ≤ first ∧
        first + extent ≤ (session.bandAt viewport.offset).2 := by
  constructor
  · intro bands extent low high first covered within begins ends
    exact whole_of_coverageGap_none covered within begins ends
  · intro session last extent low high first run covered within begins ends
    obtain ⟨band, listed, holds⟩ := whole_of_coverageGap_none covered within begins ends
    rw [run.bands, List.mem_map] at listed
    obtain ⟨viewport, shown, rfl⟩ := listed
    exact ⟨viewport, shown, holds⟩

/-- Two viewports 100 pixels apart show a card of 60 pixels at 700 whole, the second one. -/
theorem coverage_shows_card_whole :
    (∃ band ∈ [((0 : Int), (720 : Int)), (100, 820)], band.1 ≤ 700 ∧ 700 + 60 ≤ band.2) ∧
      ∃ viewport ∈ (moreCards 1).viewports,
        (levelSession.bandAt viewport.offset).1 ≤ 700 ∧
          700 + 60 ≤ (levelSession.bandAt viewport.offset).2 :=
  ⟨coverage_shows_entries_whole.1 _ 60 0 820 700 (by decide) rfl (by decide) (by decide),
    coverage_shows_entries_whole.2 levelSession (moreCards 1) 60 0 820 700
      (one_card.trans (more_cards (by decide +kernel)).run) (by decide) rfl
      (by decide) (by decide)⟩

end Scan
