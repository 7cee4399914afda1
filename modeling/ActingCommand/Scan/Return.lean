import ActingCommand.Scan.Align
import ActingCommand.Selection.BoundSound

/-!
# The return to the chosen member

After the decision the list moves back until the chosen member lies inside the readable band.
Each move is the declared reposition or the shorter advance; the settled frame after it is
aligned within the move's window. The admission's bounds keep every move from passing beyond the
offsets that show the member.
-/

namespace Scan

open List Option

structure ReturnMotion where
  towardStart : Bool
  reposition : Bool
deriving DecidableEq

/-- One move of a return: the offset before it, the move, and the settled offset after it. -/
structure ReturnStep where
  last : Int
  motion : ReturnMotion
  next : Int

/-- How one move of a return went on the source: in time or not, and its settled frame. -/
structure ReturnFrame (ε : Type) where
  inBudget : Bool
  settled : Except ε (List SignedInstance)

inductive ReturnEnd (ε : Type)
  | arrived (offset : Int)
  | duration
  | repositionViewports (limit : Nat)
  | source (error : ε)
  | alignment (viewportIndex : Nat) (rejected : AlignmentRejected)
  | awaiting

section Return

variable (geometry : ScanGeometry) (moves : Moves) (target : AxisRect)

/-- The offsets that put the member's content rectangle inside the band. -/
def returnRange : Int × Int :=
  (target.axisEnd - geometry.band.axisEnd, target.axis - geometry.band.axis)

/-- The distance above which a return takes a reposition. -/
def returnThreshold : Int :=
  max moves.advanceSteps.2 (moves.repositionMax - (geometry.band.axisExtent - geometry.extent))

/-- The next move from an offset; none once the member lies inside the band. -/
def returnMotion (last : Int) : Option ReturnMotion :=
  let (low, high) := returnRange geometry target
  if low ≤ last ∧ last ≤ high then none
  else
    let towardStart := decide (last > high)
    let distance := if towardStart then last - high else low - last
    some ⟨towardStart, decide (distance > returnThreshold geometry moves)⟩

/-- The offsets a move may end at: at most the largest step of the motion, with no minimum. -/
def returnWindow (last : Int) (motion : ReturnMotion) : List (Int × Int) :=
  let tolerance : Int := geometry.tolerance
  let step := if motion.reposition then moves.repositionMax else moves.advanceSteps.2
  if motion.towardStart then [(last - step - tolerance, last + tolerance)]
  else [(last - tolerance, last + step + tolerance)]

/-- The moves of a return, aligned against the content map, and how it ended. -/
def returnTo {ε : Type} (track : DeclaredTrack) (references : List Reference) (covered : Int × Int)
    (limit rewindViewports : Nat) :
    Int → Nat → List (ReturnFrame ε) → List ReturnStep × ReturnEnd ε
  | last, _, [] =>
    match returnMotion geometry moves target last with
    | none => ([], .arrived last)
    | some _ => ([], .awaiting)
  | last, returnViewports, frame :: frames =>
    match returnMotion geometry moves target last with
    | none => ([], .arrived last)
    | some motion =>
      if !frame.inBudget then ([], .duration)
      else if limit ≤ rewindViewports + returnViewports then ([], .repositionViewports limit)
      else
        match frame.settled with
        | .error error => ([], .source error)
        | .ok current =>
          match align geometry track references covered current
              (returnWindow geometry moves last motion) with
          | .error rejected => ([], .alignment returnViewports rejected)
          | .ok next =>
            let (steps, ended) :=
              returnTo track references covered limit rewindViewports next (returnViewports + 1)
                frames
            (⟨last, motion, next⟩ :: steps, ended)

/-- A sequence of moves from an offset, each settled inside its window. -/
def Passes : Int → List ReturnStep → Prop
  | _, [] => True
  | last, step :: rest =>
    step.last = last ∧ returnMotion geometry moves target last = some step.motion ∧
      inWindow (returnWindow geometry moves last step.motion) step.next = true ∧
      Passes step.next rest

end Return

section Bounds

variable {geometry : ScanGeometry} {moves : Moves} {target : AxisRect}

/-- The moves a return makes pass their windows. -/
theorem returnTo_passes {ε : Type} {track : DeclaredTrack} {references : List Reference}
    {covered : Int × Int} {limit rewindViewports : Nat} {frames : List (ReturnFrame ε)}
    {last : Int} {returnViewports : Nat} :
    Passes geometry moves target last
      (returnTo geometry moves target track references covered limit rewindViewports last
        returnViewports frames).1 := by
  induction frames generalizing last returnViewports with
  | nil =>
    rw [returnTo]
    split <;> trivial
  | cons frame frames ih =>
    rw [returnTo]
    split
    · trivial
    rename_i motion moving
    split
    · trivial
    split
    · trivial
    split
    · trivial
    split
    · trivial
    · rename_i next aligned
      exact ⟨rfl, moving, align_inWindow aligned, ih⟩

lemma returnMotion_eq_some {last : Int} {motion}
    (moving : returnMotion geometry moves target last = some motion) :
    ((returnRange geometry target).2 < last ∧ motion.towardStart = true ∧
        (motion.reposition = true ↔
          returnThreshold geometry moves < last - (returnRange geometry target).2)) ∨
      (last ≤ (returnRange geometry target).2 ∧ last < (returnRange geometry target).1 ∧
        motion.towardStart = false ∧
        (motion.reposition = true ↔
          returnThreshold geometry moves < (returnRange geometry target).1 - last)) := by
  simp only [returnMotion] at moving
  split at moving
  · cases moving
  rename_i outside
  obtain rfl := some.inj moving
  by_cases beyond : (returnRange geometry target).2 < last
  · exact .inl ⟨beyond, decide_eq_true beyond, by simp [beyond]⟩
  · exact .inr ⟨by omega, by omega, decide_eq_false (by omega), by simp [beyond]⟩

/-- The bounds an admitted declaration keeps on the steps of its moves. -/
structure StepsFit (geometry : ScanGeometry) (moves : Moves) : Prop where
  advance : moves.advanceSteps.2 ≤ geometry.band.axisExtent - geometry.extent
  reposition : moves.repositionMax ≤ geometry.band.axisExtent

section

variable (fits : StepsFit geometry moves) (extent : target.axisExtent = geometry.extent)

include fits extent

/-- A move toward the start stays above the range's lower end, within the tolerance; one toward
the end stays below its upper end. -/
theorem move_stays {last next : Int} {motion}
    (moving : returnMotion geometry moves target last = some motion)
    (passes : inWindow (returnWindow geometry moves last motion) next = true) :
    (motion.towardStart = true →
      (returnRange geometry target).1 - geometry.tolerance < next) ∧
    (motion.towardStart = false →
      next < (returnRange geometry target).2 + geometry.tolerance) := by
  -- the range is as wide as the band is longer than one instance
  have width : (returnRange geometry target).1 =
      (returnRange geometry target).2 - (geometry.band.axisExtent - geometry.extent) := by
    simp only [returnRange, AxisRect.axisEnd, extent]
    omega
  have threshold : moves.advanceSteps.2 ≤ returnThreshold geometry moves ∧
      moves.repositionMax - (geometry.band.axisExtent - geometry.extent) ≤
        returnThreshold geometry moves :=
    ⟨le_max_left _ _, le_max_right _ _⟩
  have advance := fits.advance
  simp only [inWindow, returnWindow] at passes
  rcases returnMotion_eq_some moving with ⟨beyond, start, chosen⟩ | ⟨-, before, start, chosen⟩
  · refine ⟨fun _ => ?_, fun other => absurd (start.symm.trans other) (by decide)⟩
    cases far : motion.reposition with
    | true =>
      have := chosen.mp far
      simp [start, far] at passes
      omega
    | false =>
      simp [start, far] at passes
      omega
  · refine ⟨fun other => absurd (start.symm.trans other) (by decide), fun _ => ?_⟩
    cases far : motion.reposition with
    | true =>
      have := chosen.mp far
      simp [start, far] at passes
      omega
    | false =>
      simp [start, far] at passes
      omega

lemma passes_stays {last : Int} {steps}
    (passes : Passes geometry moves target last steps) : ∀ step ∈ steps,
      (step.motion.towardStart = true →
        (returnRange geometry target).1 - geometry.tolerance < step.next) ∧
      (step.motion.towardStart = false →
        step.next < (returnRange geometry target).2 + geometry.tolerance) := by
  induction steps generalizing last with
  | nil => simp
  | cons first rest ih =>
    obtain ⟨-, moving, inside, later⟩ := passes
    rintro step (_ | ⟨_, listed⟩)
    · exact move_stays fits extent moving inside
    · exact ih later step listed

/-- Without a tolerance a move never reaches the other side of the range, so the next one, if
there is one, goes the same way. -/
theorem passes_direction (exact : geometry.tolerance = 0) {last : Int} {first rest}
    (passes : Passes geometry moves target last (first :: rest)) :
    ∀ step ∈ first :: rest, step.motion.towardStart = first.motion.towardStart := by
  induction rest generalizing last first with
  | nil => simp
  | cons second rest ih =>
    obtain ⟨-, moving, inside, later⟩ := passes
    have stays := move_stays fits extent moving inside
    rw [exact] at stays
    have follows := returnMotion_eq_some later.2.1
    have same : second.motion.towardStart = first.motion.towardStart := by
      cases start : first.motion.towardStart with
      | true =>
        have above := stays.1 start
        rcases follows with ⟨-, again, -⟩ | ⟨-, below, -⟩
        · exact again
        · omega
      | false =>
        have below := stays.2 start
        rcases follows with ⟨above, -⟩ | ⟨-, -, again, -⟩
        · omega
        · exact again
    rintro step (_ | ⟨_, listed⟩)
    · rfl
    · exact (ih later step listed).trans same

end

end Bounds

/-! ## Admitted declarations -/

/-- The instance rectangle at an anchor match. The anchor of an admitted scan declares no scales,
so the rectangle keeps its declared size. -/
def placedAt (instanceRect : CandidateRect) (origin : Int × Int) : CandidateRect :=
  { instanceRect with x := origin.1 + instanceRect.x, y := origin.2 + instanceRect.y }

/-- The content rectangle of an instance seen in a viewport at an offset. -/
def contentRect (axis : ScanAxis) (instanceRect : CandidateRect) (origin : Int × Int)
    (offset : Int) : AxisRect :=
  let rect := AxisRect.of axis (placedAt instanceRect origin)
  { rect with axis := rect.axis + offset }

lemma contentRect_extent (axis : ScanAxis) (instanceRect : CandidateRect) (origin : Int × Int)
    (offset : Int) : (contentRect axis instanceRect origin offset).axisExtent =
      (AxisRect.of axis instanceRect).axisExtent := by
  cases axis <;> rfl

lemma stepsFit_of_admitted {scan layout policy targets frame} {taskTimeoutMs : Nat}
    {moves : Moves} {instanceRect}
    (admitted : scan.admissionRefusal layout policy targets frame taskTimeoutMs = none)
    (resolved : Moves.of scan = .ok moves) (declared : layout.instanceRect = some instanceRect)
    (unordered : moves.pageOrder = none) :
    StepsFit (scan.geometry layout instanceRect frame) moves := by
  obtain ⟨sameMoves, sameRect, resolved', declared', steps⟩ :=
    ScanDeclaration.admissionRefusal_none admitted
  obtain rfl := Except.ok.inj (resolved'.symm.trans resolved)
  obtain rfl := some.inj (declared'.symm.trans declared)
  obtain ⟨advances, -, repositions⟩ := ScanDeclaration.stepsRefusal_none steps
  obtain ⟨reposition, advance⟩ := ScanDeclaration.moves_steps resolved
  obtain ⟨held, listed, same⟩ := advance unordered
  refine ⟨?_, ?_⟩
  · rw [same]
    exact (advances held listed).2.2
  · rw [reposition]
    exact repositions

/-- For every admitted declaration without page order, every member and every sequence of settled
offsets that passes the windows of the moves: a move toward the start ends above the lower end of
the member's offsets less the tolerance, one toward the end below the upper end plus it; without
a tolerance all moves go the same way. The moves of the loop itself are such a sequence. -/
theorem return_never_overshoots (scan : ScanDeclaration) (layout : ScanLayout)
    (policy : Selection.SelectionPolicy) (targets : List RecognitionTarget) (frame : Nat × Nat)
    (taskTimeoutMs : Nat) (moves : Moves) (instanceRect : CandidateRect)
    (admitted : scan.admissionRefusal layout policy targets frame taskTimeoutMs = none)
    (resolved : Moves.of scan = .ok moves) (declared : layout.instanceRect = some instanceRect)
    (unordered : moves.pageOrder = none) (origin : Int × Int) (offset : Int) :
    let geometry := scan.geometry layout instanceRect frame
    let target := contentRect scan.axis instanceRect origin offset
    let range := returnRange geometry target
    (∀ last steps, Passes geometry moves target last steps →
      (∀ step ∈ steps,
        (step.motion.towardStart = true → range.1 - geometry.tolerance < step.next) ∧
        (step.motion.towardStart = false → step.next < range.2 + geometry.tolerance)) ∧
      (geometry.tolerance = 0 →
        ∀ a ∈ steps, ∀ b ∈ steps, a.motion.towardStart = b.motion.towardStart)) ∧
    ∀ (ε : Type) references covered rewindViewports last returnViewports
      (frames : List (ReturnFrame ε)),
      Passes geometry moves target last
        (returnTo geometry moves target scan.track references covered
          scan.bounds.maxRepositionViewports rewindViewports last returnViewports frames).1 := by
  have fits := stepsFit_of_admitted admitted resolved declared unordered
  have extent := contentRect_extent scan.axis instanceRect origin offset
  constructor
  · intro last steps passes
    refine ⟨passes_stays fits extent passes, fun exact a listedA b listedB => ?_⟩
    cases steps with
    | nil => cases listedA
    | cons first rest =>
      have direction := passes_direction fits extent exact passes
      exact (direction a listedA).trans (direction b listedB).symm
  · intro ε references covered rewindViewports last returnViewports frames
    exact returnTo_passes

namespace Sample

/-- A list of rows that a drag moves by up to 300 pixels and a longer one by up to 600. -/
def rowScan : ScanDeclaration where
  identityFeature := "member"
  axis := .vertical
  advance := .drag ⟨⟨0, 500, 100, 10⟩, ⟨0, 300, 100, 10⟩, 400, none, none⟩ 100 300
  reposition := .drag ⟨⟨0, 600, 100, 10⟩, ⟨0, 100, 100, 10⟩, 400, none, none⟩ 600
  settle := ⟨100, 1000⟩
  track := rowTrack
  startCheck := "list-start"
  endCheck := "list-end"
  bounds := ⟨8, 8, 60000⟩

def rowLayout : ScanLayout where
  id := "row"
  features := [⟨"member", .identity, none, some ["member-a", "member-b"], false⟩]
  kind := .repeatedAnchor
  anchor := some "card"
  instanceRect := some ⟨0, 0, 80, 60⟩
  readableBand := none
  unknownIdentity := .reject
  sampleFrames := []

def rowTargets : List RecognitionTarget :=
  [⟨"card", false⟩, ⟨"list-start", false⟩, ⟨"list-end", false⟩]

def rowMoves : Moves where
  advance := .drag ⟨0, 500, 100, 10⟩ ⟨0, 300, 100, 10⟩ 400
  corrective := .drag ⟨0, 300, 100, 10⟩ ⟨0, 500, 100, 10⟩ 400
  rewind := .drag ⟨0, 100, 100, 10⟩ ⟨0, 600, 100, 10⟩ 400
  repositionForward := .drag ⟨0, 600, 100, 10⟩ ⟨0, 100, 100, 10⟩ 400
  advanceSteps := (100, 300)
  repositionMax := 600
  pageOrder := none

/-- From 900 to a member at 100: one reposition, then one advance. -/
def rowReturn : List ReturnStep := [⟨900, ⟨true, true⟩, 350⟩, ⟨350, ⟨true, false⟩, 60⟩]

/-- Both moves end above -561, the lowest offset of the member less a pixel. -/
theorem return_never_overshoots_rows :
    rowScan.admissionRefusal rowLayout Selection.Sample.levelPolicy rowTargets (1280, 720) 60000 =
        none ∧
      ∀ step ∈ rowReturn, step.motion.towardStart = true →
        (returnRange (rowScan.geometry rowLayout ⟨0, 0, 80, 60⟩ (1280, 720))
          (contentRect .vertical ⟨0, 0, 80, 60⟩ (0, 100) 0)).1 - 1 < step.next :=
  have admitted : rowScan.admissionRefusal rowLayout Selection.Sample.levelPolicy rowTargets
      (1280, 720) 60000 = none := by decide +kernel
  ⟨admitted, fun step listed => ((((return_never_overshoots rowScan rowLayout
    Selection.Sample.levelPolicy rowTargets (1280, 720) 60000 rowMoves ⟨0, 0, 80, 60⟩ admitted rfl
    rfl rfl (0, 100) 0).1 900 rowReturn
      ⟨rfl, by decide, by decide, rfl, by decide, by decide, trivial⟩).1) step listed).1⟩

end Sample

end Scan
