import ActingCommand.Scan.Geometry

/-!
# The scan declaration and its admission

A select step declares how its list moves, which anchors are tracked and how far a move may
carry the content. The first static check that fails gives the refusal's detail. The moves of an
admitted declaration are resolved once. All rectangles are frame rectangles of four `i32`
numbers.
-/

namespace Scan

open Selection Option Except AxisRect

/-- A drag's brake: after the pause the touch moves across the axis before it is released. -/
structure DeclaredBrake where
  crossPx : Int
  durationMs : Nat

/-- `checks[k]` passes on page `k`, whose content starts `k` page steps along the axis. -/
structure DeclaredPageOrder where
  checks : List String
  pageStepPx : Nat

structure DeclaredDrag where
  fromRect : CandidateRect
  toRect : CandidateRect
  durationMs : Nat
  pauseMs : Option Nat
  brake : Option DeclaredBrake

inductive DeclaredAdvance
  | drag (drag : DeclaredDrag) (minContentStepPx maxContentStepPx : Nat)
  | rect (rect backRect : CandidateRect) (minContentStepPx maxContentStepPx : Option Nat)
    (pageOrder : Option DeclaredPageOrder)

inductive DeclaredReposition
  | drag (drag : DeclaredDrag) (maxContentStepPx : Nat)
  | rect (rect backRect : CandidateRect) (maxContentStepPx : Nat)

structure DeclaredSettle where
  intervalMs : Nat
  timeoutMs : Nat

structure DeclaredSignature where
  rect : CandidateRect
  columns : Nat
  rows : Nat

structure DeclaredSpacing where
  maxAxisGapPx : Nat
  columns : Nat
  maxTrailingGapPx : Nat
  maxCrossLeadPx : Nat
  maxCrossGapPx : Nat

structure DeclaredTrack where
  area : CandidateRect
  edgeMarginPx : Nat
  signature : DeclaredSignature
  signatureMaxDistanceMilli : Nat
  positionTolerancePx : Nat
  minOverlapInstances : Nat
  spacing : DeclaredSpacing

structure DeclaredBounds where
  maxViewports : Nat
  maxRepositionViewports : Nat
  maxMs : Nat

structure ScanDeclaration where
  identityFeature : String
  axis : ScanAxis
  advance : DeclaredAdvance
  reposition : DeclaredReposition
  settle : DeclaredSettle
  track : DeclaredTrack
  startCheck : String
  endCheck : String
  bounds : DeclaredBounds

/-! ## The moves -/

structure ScanBrake where
  displacement : Int × Int
  durationMs : Nat

/-- What one move of a scan does on the device. -/
inductive ScanInput
  | drag (fromRect toRect : CandidateRect) (durationMs : Nat)
  | heldDrag (fromRect toRect : CandidateRect) (durationMs pauseMs : Nat)
    (brake : Option ScanBrake)
  | tap (rect : CandidateRect)

structure Moves where
  advance : ScanInput
  corrective : ScanInput
  rewind : ScanInput
  repositionForward : ScanInput
  advanceSteps : Int × Int
  repositionMax : Int
  pageOrder : Option (List String × Int)

inductive MovesInvalid
  | advanceHold
  | advanceRectSteps
  | repositionHold

/-- The detail of the refusal, after its leading `scan `. -/
def MovesInvalid.detail : MovesInvalid → String
  | advanceHold => "advance=drag hold=invalid"
  | advanceRectSteps => "advance=rect steps_or_page_order=invalid"
  | repositionHold => "reposition=drag hold=invalid"

variable (axis : ScanAxis) (drag : DeclaredDrag)

/-- A swipe, or, with a pause or a brake, the held drag whose brake moves across the axis. -/
def dragInput (fromRect toRect : CandidateRect) (drag : DeclaredDrag) : ScanInput :=
  if drag.pauseMs.isNone ∧ drag.brake.isNone then .drag fromRect toRect drag.durationMs
  else
    .heldDrag fromRect toRect drag.durationMs (drag.pauseMs.getD 0)
      (drag.brake.map fun brake =>
        { displacement :=
            match axis with
            | .vertical => (brake.crossPx, 0)
            | .horizontal => (0, brake.crossPx)
          durationMs := brake.durationMs })

/-- A declared pause holds, and a declared brake moves and takes time. -/
def heldDragValid : Bool :=
  decide (drag.pauseMs ≠ some 0) &&
    drag.brake.all fun brake => decide (brake.crossPx ≠ 0 ∧ 0 < brake.durationMs)

/-- The inputs of an advance and its reverse, its steps and its page order. -/
def DeclaredAdvance.resolve : DeclaredAdvance →
      Except MovesInvalid (ScanInput × ScanInput × (Int × Int) × Option (List String × Int))
  | .drag held minContentStepPx maxContentStepPx =>
    if !heldDragValid held then throw .advanceHold
    else
      pure (dragInput axis held.fromRect held.toRect held,
        dragInput axis held.toRect held.fromRect held,
        ((minContentStepPx : Int), (maxContentStepPx : Int)), none)
  | .rect forward back (some minContentStepPx) (some maxContentStepPx) none =>
    pure (.tap forward, .tap back, ((minContentStepPx : Int), (maxContentStepPx : Int)), none)
  | .rect forward back none none (some order) =>
    if order.checks ≠ [] ∧ 0 < order.pageStepPx then
      let step : Int := order.pageStepPx
      pure (.tap forward, .tap back, (step, step), some (order.checks, step))
    else throw .advanceRectSteps
  | .rect .. => throw .advanceRectSteps

/-- The inputs of a reposition toward the start and the end, and its largest step. -/
def DeclaredReposition.resolve :
    DeclaredReposition → Except MovesInvalid (ScanInput × ScanInput × Int)
  | .drag held maxContentStepPx =>
    if !heldDragValid held then throw .repositionHold
    else
      pure (dragInput axis held.toRect held.fromRect held,
        dragInput axis held.fromRect held.toRect held, (maxContentStepPx : Int))
  | .rect forward back maxContentStepPx =>
    pure (.tap back, .tap forward, (maxContentStepPx : Int))

def Moves.of (scan : ScanDeclaration) : Except MovesInvalid Moves := do
  let (advance, corrective, advanceSteps, pageOrder) ← scan.advance.resolve scan.axis
  let (rewind, repositionForward, repositionMax) ← scan.reposition.resolve scan.axis
  pure ⟨advance, corrective, rewind, repositionForward, advanceSteps, repositionMax, pageOrder⟩

/-! ## Admission -/

inductive CandidateLayoutKind
  | fixedSlots
  | repeatedAnchor
deriving DecidableEq

inductive UnknownIdentityHandling
  | reject
  | readableAttributes
deriving DecidableEq

/-- The parts of the step's layout that the admission and the session's geometry read. -/
structure ScanLayout extends CandidateLayout where
  kind : CandidateLayoutKind
  anchor : Option String
  instanceRect : Option CandidateRect
  readableBand : Option CandidateRect
  unknownIdentity : UnknownIdentityHandling
  /-- The frames of every consensus sample, feature after feature. -/
  sampleFrames : List Nat

/-- The frames a consensus needs: one past the latest sample, or the one frame read. -/
def ScanLayout.requiredFrames (layout : ScanLayout) : Nat :=
  ((layout.sampleFrames.map (· + 1)).max?).getD 1

/-- A target of the pack: its name, and whether it is a template that declares scales. -/
structure RecognitionTarget where
  id : String
  scaledTemplate : Bool

def maxSettleIntervalMs : Nat := 5000

def maxScanViewports : Nat := 128

def i32Max : Int := 2147483647

/-- The largest finger displacement along the axis a drag between random points allows. -/
def fingerDisplacement : Int :=
  let source := of axis drag.fromRect
  let target := of axis drag.toRect
  max |source.axisEnd - target.axis| |target.axisEnd - source.axis|

/-- A rectangle with an area, inside the outer one. -/
def inside (inner outer : CandidateRect) : Bool :=
  decide (0 < inner.width ∧ 0 < inner.height ∧ outer.x ≤ inner.x ∧ outer.y ≤ inner.y ∧
    inner.x + inner.width ≤ outer.x + outer.width ∧
    inner.y + inner.height ≤ outer.y + outer.height)

/-- A frame's rectangle; an oversized side counts as the largest `i32`. -/
def frameRect (frame : Nat × Nat) : CandidateRect :=
  ⟨0, 0, min (frame.1 : Int) i32Max, min (frame.2 : Int) i32Max⟩

namespace ScanDeclaration

variable (scan : ScanDeclaration)

variable (layout : ScanLayout) (policy : SelectionPolicy) (targets : List RecognitionTarget)

variable (frame : Nat × Nat) (taskTimeoutMs : Nat)

/-- The readable band, or the whole frame without one. -/
def bandRect : CandidateRect :=
  layout.readableBand.getD (frameRect frame)

def declaredSteps : Option (Nat × Nat) :=
  match scan.advance with
  | .drag _ minContentStepPx maxContentStepPx => some (minContentStepPx, maxContentStepPx)
  | .rect _ _ minContentStepPx maxContentStepPx _ =>
    match minContentStepPx, maxContentStepPx with
    | some minimum, some maximum => some (minimum, maximum)
    | _, _ => none

def repositionStep : Nat :=
  match scan.reposition with
  | .drag _ maxContentStepPx => maxContentStepPx
  | .rect _ _ maxContentStepPx => maxContentStepPx

def pageChecks : List String :=
  match scan.advance with
  | .rect _ _ _ _ (some order) => order.checks
  | _ => []

/-- A drag whose finger could move the list further than its largest step. -/
def fingerBeyond (drag : DeclaredDrag) (maxContentStepPx : Nat) : Bool :=
  decide (fingerDisplacement scan.axis drag > maxContentStepPx)

def advanceFingerBeyond : Bool :=
  match scan.advance with
  | .drag drag _ maximum => scan.fingerBeyond drag maximum
  | .rect .. => false

def repositionFingerBeyond : Bool :=
  match scan.reposition with
  | .drag drag maximum => scan.fingerBeyond drag maximum
  | .rect .. => false

/-- The checks on the steps: a drag's finger moves at most its largest step, an advance at least
one pixel and at most the room of the band beyond one instance, a reposition at most the band. -/
def stepsRefusal (band extent : Int) : Option String :=
  let room := band - extent
  if scan.advanceFingerBeyond then some "advance=finger_beyond_max_step"
  else if scan.declaredSteps.any fun steps =>
      decide (steps.1 = 0 ∨ steps.1 > steps.2 ∨ (steps.2 : Int) > room) then
    some "advance=steps_invalid"
  else if scan.repositionFingerBeyond then some "reposition=finger_beyond_max_step"
  else if scan.repositionStep = 0 ∨ (scan.repositionStep : Int) > band then
    some "reposition=step_invalid"
  else none

/-- The checks on the declaration's counts and times. -/
def boundsRefusal : Option String :=
  let settle := scan.settle
  let bounds := scan.bounds
  let spacing := scan.track.spacing
  if ¬ (1 ≤ settle.intervalMs ∧ settle.intervalMs ≤ maxSettleIntervalMs) ∨
      settle.timeoutMs < settle.intervalMs ∨ settle.timeoutMs > bounds.maxMs then
    some "settle=invalid"
  else if ¬ (2 ≤ bounds.maxViewports ∧ bounds.maxViewports ≤ maxScanViewports) ∨
      ¬ (1 ≤ bounds.maxRepositionViewports ∧ bounds.maxRepositionViewports ≤ maxScanViewports) then
    some "bounds=viewports_invalid"
  else if bounds.maxMs = 0 ∨ bounds.maxMs > taskTimeoutMs then some "max_ms=outside_task_timeout"
  else if scan.track.minOverlapInstances = 0 ∨ spacing.columns = 0 ∨
      0 ∈ [spacing.maxAxisGapPx, spacing.maxTrailingGapPx, spacing.maxCrossLeadPx,
        spacing.maxCrossGapPx] then
    some "track=count_invalid"
  else none

/-- The checks on the tracking area: the band inside it, it inside the frame, a margin of at
least one tolerance and a core at least one instance long. -/
def areaRefusal (frame band : CandidateRect) (extent : Int) : Option String :=
  let track := scan.track
  let area := of scan.axis track.area
  if !inside track.area frame || !inside band track.area then some "track_area=outside"
  else if track.edgeMarginPx < track.positionTolerancePx ∨
      area.axisExtent - 2 * track.edgeMarginPx < extent then
    some "track_area=core_too_short"
  else none

/-- The checks on the layout and the policy. -/
def layoutRefusal : Option String :=
  if layout.kind ≠ .repeatedAnchor then some "layout=not_repeated_anchor"
  else if targets.any fun target => target.scaledTemplate && some target.id == layout.anchor then
    some "anchor=scaled"
  else if !layout.features.any fun feature =>
      decide (feature.name = scan.identityFeature) && feature.identity.isSome then
    some "identity_feature=undeclared"
  else if layout.unknownIdentity ≠ .reject then some "unknown_identity=not_reject"
  else if layout.requiredFrames > 1 then some "consensus=multi_frame"
  else if policy.tieBreak.getLast? ≠ some (.candidateId .lowestFirst) then
    some "tie_break=last_not_candidate_id_lowest_first"
  else none

/-- The first static check that fails, as its detail. -/
def refusalDetail : Option String :=
  (scan.layoutRefusal layout policy targets).or <|
    match Moves.of scan with
    | .error refusal => some refusal.detail
    | .ok _ =>
      match layout.instanceRect with
      | none => some "instance_rect=absent"
      | some instanceRect =>
        let signature := scan.track.signature
        if ¬ (1 ≤ signature.columns ∧ signature.columns ≤ 8) ∨
            ¬ (1 ≤ signature.rows ∧ signature.rows ≤ 8) then
          some "signature=grid_invalid"
        else if !inside signature.rect instanceRect then some "signature=outside_instance_rect"
        else
          let band := bandRect layout frame
          let extent := (of scan.axis instanceRect).axisExtent
          (scan.boundsRefusal taskTimeoutMs).or <|
            (scan.areaRefusal (frameRect frame) band extent).or <|
              (scan.stepsRefusal (of scan.axis band).axisExtent extent).or <|
                if (scan.startCheck :: scan.endCheck :: scan.pageChecks).any fun check =>
                    !targets.any fun target => decide (target.id = check) then
                  some "check=undeclared"
                else none

/-- The static checks of a scan on its layout, policy and targets, in a frame of the package's
coordinate space and a task of the given timeout. -/
def admissionRefusal : Option String :=
  (scan.refusalDetail layout policy targets frame taskTimeoutMs).map ("scan " ++ ·)

/-- The geometry of a session over a layout with an instance rectangle. Every frame of a session
has the size the declaration was admitted for. -/
def geometry (instanceRect : CandidateRect) (frame : Nat × Nat) : ScanGeometry :=
  let area := of scan.axis scan.track.area
  let margin : Int := scan.track.edgeMarginPx
  { area := area
    core := (area.axis + margin, area.axisEnd - margin)
    band := of scan.axis (bandRect layout frame)
    extent := (of scan.axis instanceRect).axisExtent
    tolerance := scan.track.positionTolerancePx }

/-! ## What an admitted declaration keeps -/

variable {scan}

lemma stepsRefusal_none {band extent : Int} (admitted : scan.stepsRefusal band extent = none) :
    (∀ steps, scan.declaredSteps = some steps →
      0 < steps.1 ∧ steps.1 ≤ steps.2 ∧ (steps.2 : Int) ≤ band - extent) ∧
    0 < scan.repositionStep ∧ (scan.repositionStep : Int) ≤ band := by
  unfold stepsRefusal at admitted
  simp only at admitted
  split at admitted
  · cases admitted
  split at admitted
  · cases admitted
  rename_i steps
  split at admitted
  · cases admitted
  split at admitted
  · cases admitted
  rename_i reposition
  refine ⟨fun declared held => ?_, by omega, by omega⟩
  rw [held, any_some, decide_eq_true_eq] at steps
  omega

/-- An admitted declaration has its moves and an instance rectangle, and passes the checks on its
steps. -/
theorem admissionRefusal_none {layout : ScanLayout} {policy targets} {frame : Nat × Nat}
    {taskTimeoutMs : Nat}
    (admitted : scan.admissionRefusal layout policy targets frame taskTimeoutMs = none) :
    ∃ moves instanceRect, Moves.of scan = .ok moves ∧ layout.instanceRect = some instanceRect ∧
      scan.stepsRefusal (scan.geometry layout instanceRect frame).band.axisExtent
        (scan.geometry layout instanceRect frame).extent = none := by
  rw [admissionRefusal, map_eq_none_iff, refusalDetail, or_eq_none_iff] at admitted
  replace admitted := admitted.2
  split at admitted
  · cases admitted
  rename_i moves resolved
  split at admitted
  · cases admitted
  rename_i instanceRect declared
  simp only at admitted
  split at admitted
  · cases admitted
  split at admitted
  · cases admitted
  · simp only [or_eq_none_iff] at admitted
    exact ⟨moves, instanceRect, resolved, declared, admitted.2.2.1⟩

/-- The moves hold the declared steps, where the pages are not placed by page-order evidence. -/
theorem moves_steps {moves : Moves} (resolved : Moves.of scan = .ok moves) :
    moves.repositionMax = scan.repositionStep ∧
      (moves.pageOrder = none → ∃ steps, scan.declaredSteps = some steps ∧
        moves.advanceSteps = ((steps.1 : Int), (steps.2 : Int))) := by
  simp only [Moves.of, bind_ok_iff] at resolved
  obtain ⟨⟨advance, corrective, advanceSteps, pageOrder⟩, advances,
    ⟨rewind, forward, repositionMax⟩, repositions, made⟩ := resolved
  obtain rfl := ok.inj made
  constructor
  · simp only [DeclaredReposition.resolve] at repositions
    split at repositions
    · rename_i declared
      split at repositions
      · cases repositions
      · obtain ⟨-, -, rfl⟩ := repositions
        simp [repositionStep, declared]
    · rename_i declared
      obtain ⟨-, -, rfl⟩ := repositions
      simp [repositionStep, declared]
  · intro unordered
    subst unordered
    simp only [DeclaredAdvance.resolve] at advances
    split at advances
    · rename_i held minimum maximum declared
      split at advances
      · cases advances
      · obtain ⟨-, -, rfl, -⟩ := advances
        exact ⟨(minimum, maximum), by simp [declaredSteps, declared], rfl⟩
    · rename_i forward back minimum maximum declared
      obtain ⟨-, -, rfl, -⟩ := advances
      exact ⟨(minimum, maximum), by simp [declaredSteps, declared], rfl⟩
    · split at advances
      · cases advances
      · cases advances
    · cases advances

end ScanDeclaration

end Scan
