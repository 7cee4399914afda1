import ActingCommand.Selection.Bound

/-!
# The scan session of a select step

A session reads a list that does not fit one screen, viewport after viewport. Its positions are
the tracked instances in content coordinates; the first complete reading fixes one, and each
viewport evaluates the positions it fixed with the one pinned document, fact snapshot and
instant. A viewport is any list of tracked instances at any content offset.
-/

namespace Scan

open Selection Machine Std

/-- One rectangle split along the scan's axis. -/
structure AxisRect where
  axis : Int
  axisExtent : Int
  cross : Int
  crossExtent : Int
deriving DecidableEq

inductive CandidateUnknownReason
  | missing
  | outOfDomain
  | lowConfidence
  | ambiguous
  | noConsensus
deriving DecidableEq

/-- What one feature of an instance read. -/
inductive CandidateFeature
  | integer (value : Int)
  | boolean (value : Bool)
  | identity (value : String)
  | unknown (reason : CandidateUnknownReason)
deriving DecidableEq

abbrev CandidateFeatureMap := ExtTreeMap String CandidateFeature

/-- One tracked instance of a viewport, in frame coordinates. -/
structure TrackedInstance where
  rect : AxisRect
  actionable : Bool
  features : CandidateFeatureMap

/-- What the evaluator said about a fixed position in the viewport that fixed it. -/
inductive Verdict
  | member (scoreMilli : Option Int)
  | gatedOut
  | unknownDropped
  | staticTableDrop
deriving DecidableEq

inductive PositionState
  | unread
  | incomplete
  | fixed (viewport : Nat) (features : CandidateFeatureMap) (verdict : Option Verdict)
  | contradicted
deriving DecidableEq

/-- One position of the content map. -/
structure Position where
  index : Nat
  rect : AxisRect
  firstSeenViewport : Nat
  firstReadViewport : Option Nat
  identity : Option String
  identityUnknown : Option CandidateUnknownReason
  state : PositionState
deriving DecidableEq

inductive ScanViewportMotion
  | start
  | forward
  | corrective
deriving DecidableEq

structure CoverageViewport where
  motion : ScanViewportMotion
  offset : Int
  tracked : Nat
  readable : Nat
  unknown : Nat
  endCheck : Bool
deriving DecidableEq

/-- An upper bound as an ordered value: `none` lies below every score, `unbounded` above. -/
inductive Bound
  | none
  | max (milli : Int)
  | unbounded
deriving DecidableEq

namespace Bound

def ofUpperBound : UpperBound → Bound
  | .noneEligible => none
  | .max milli => max milli
  | .unbounded => unbounded

def lt : Bound → Bound → Bool
  | none, none => false
  | none, _ => true
  | max a, max b => a < b
  | max _, unbounded => true
  | _, _ => false

/-- `Ord::max`: the second of two equal bounds. -/
def sup (a b : Bound) : Bound := if lt b a then a else b

end Bound

/-! ## The layout's inputs of the bound -/

inductive CandidateFeatureValue
  | passed
  | measureMilli
  | anchorMilli
  | ocrInteger
  | identity

/-- One feature the layout declares. -/
structure CandidateFeatureDeclaration where
  name : String
  value : CandidateFeatureValue
  integer : Option (Nat × Nat)
  identity : Option (List String)
  consensus : Bool

structure CandidateLayout where
  id : String
  features : List CandidateFeatureDeclaration

inductive ScanSpacingFailure
  | axisGap
  | leadingGap
deriving DecidableEq

inductive ScanError
  | selectInvalid (detail : String)
  | earlyStopBoundRefused (layoutId : String) (error : SelectionError)
  | identityMismatch (viewportIndex positionIndex : Nat) (expected observed : String)
  | instanceMissing (viewportIndex : Nat) (failure : ScanSpacingFailure) (gapPx : Int)
  | evaluationFailed (error : SelectionError)
  | verdictOfUnknownCandidate (candidateId : String)
  | decideAborted
  | candidateBudgetExceeded (count : Nat)
  | coverageViewportsExceeded (limit : Nat)
deriving DecidableEq

/-- The domain a layout's feature gives a field of the document. -/
def featureDomain (identityFeature : Option String) (field : String)
    (feature : CandidateFeatureDeclaration) : Except String FieldDomain :=
  match feature.value with
  | .passed => .ok .boolean
  | .measureMilli | .anchorMilli => .ok (.integer 0 1000)
  | .ocrInteger => do
    let range ← Call.okOr feature.integer s!"field={field} range=absent"
    let min ← Call.okOr (toI64 range.1) s!"field={field} range=oversized"
    let max ← Call.okOr (toI64 range.2) s!"field={field} range=oversized"
    pure (.integer min max)
  | .identity =>
    if some feature.name = identityFeature then .ok .identity
    else .error s!"field={field} identity=not_the_step_identity"

def fieldDomains (layout : CandidateLayout) (identityFeature : Option String) :
    List FieldDeclaration → ExtTreeMap String FieldDomain →
      Except String (ExtTreeMap String FieldDomain)
  | [], domains => pure domains
  | field :: rest, domains => do
    let name := field.name
    let feature ← Call.okOr (layout.features.find? fun feature => feature.name = name)
      s!"field={name} undeclared"
    let domain ← featureDomain identityFeature name feature
    fieldDomains layout identityFeature rest (domains.insert name domain)

/-- The upper-bound inputs: every field's domain, and the identities a position may hold. -/
def boundInputs (layout : CandidateLayout) (policy : SelectionPolicy)
    (identityFeature : Option String) :
    Except String (ExtTreeMap String FieldDomain × List String) := do
  let domains ← fieldDomains layout identityFeature policy.fields ∅
  match identityFeature with
  | none => pure (domains, [""])
  | some name => do
    let entries ← Call.okOr
      ((layout.features.find? fun feature => feature.name = name).bind (·.identity))
      s!"identity_feature={name} undeclared"
    pure (domains, (entries.dedup).insertionSort fun a b => (compare a b).isLE)

structure EarlyStop where
  fieldDomains : ExtTreeMap String FieldDomain
  identities : List String
  unseen : Bound
  firstKeyLowestId : Bool
deriving DecidableEq

/-- What the session takes from its declaration, its layout and its pinned inputs. -/
structure ScanSession where
  digests : Digests
  identityFeature : String
  layout : CandidateLayout
  policy : SelectionPolicy
  tables : SelectionTables
  facts : SelectionFactSnapshot
  nowUnixMs : Nat
  positionTolerancePx : Nat
  maxAxisGapPx : Nat
  bandAxis : Int
  bandAxisExtent : Int
  maxViewports : UInt32
  earlyStop : Option EarlyStop

/-- The positions and the coverage viewports so far. -/
structure ScanState where
  positions : List Position
  viewports : List CoverageViewport
  bands : List (Int × Int)
deriving DecidableEq

def ScanState.initial : ScanState := ⟨[], [], []⟩

def u32Of (value : Nat) : Nat := min value u32Max

/-- The early-stop test's inputs, with the bound over the whole domain. -/
def earlyStopInputs (identityFeature : String) (layout : CandidateLayout)
    (policy : SelectionPolicy) (tables : SelectionTables) (facts : SelectionFactSnapshot)
    (nowUnixMs : Nat) : Except ScanError EarlyStop := do
  let layoutId := layout.id
  let (domains, identities) ←
    match boundInputs layout policy (some identityFeature) with
    | .ok inputs => pure inputs
    | .error detail =>
      throw (.selectInvalid s!"layout={layoutId} scan early_stop {detail}")
  let unseen ←
    match upperBoundWithTables policy tables facts nowUnixMs identities domains with
    | .ok bound => pure bound
    | .error error => throw (.earlyStopBoundRefused layoutId error)
  pure
    { fieldDomains := domains
      identities := identities
      unseen := .ofUpperBound unseen
      firstKeyLowestId := policy.tieBreak.head? = some (.candidateId .lowestFirst) }

/-! ## Readings -/

namespace CandidateFeature

def isIdentity : CandidateFeature → Bool
  | identity _ => true
  | _ => false

/-- The value compared across viewports: its type and value. -/
def knownValue : CandidateFeature → Option ScalarValue
  | boolean value => some (.boolean value)
  | integer value => some (.integer value)
  | identity value => some (.string value)
  | unknown _ => none

end CandidateFeature

/-- The evaluator's fields of one reading; unknown features are absent. -/
def candidateFields (features : CandidateFeatureMap) : ExtTreeMap String ScalarValue :=
  features.filterMap fun _ feature => feature.knownValue

namespace ScanSession

variable (session : ScanSession)

def readFields : List String := session.policy.fields.map (·.name)

def consensusFeatures : List String :=
  (session.layout.features.filter (·.consensus)).map (·.name)

def identityFeatures : List String :=
  (session.layout.features.filter (·.identity.isSome)).map (·.name)

variable (entry : Position) (state : PositionState) (features : CandidateFeatureMap)
  (viewport : Nat)

/-- The identity is known, and so is every feature the policy reads, every consensus feature and
every identity feature of the layout. -/
def complete : Bool :=
  let known (name : String) := (features[name]?.bind (·.knownValue)).isSome
  (features[session.identityFeature]?).any (·.isIdentity) &&
    session.readFields.all known && session.consensusFeatures.all known &&
    session.identityFeatures.all fun name => (features[name]?).any (·.isIdentity)

/-- A later known value of a feature the policy reads differs from the fixed one. -/
def contradicts (before after : CandidateFeatureMap) : Bool :=
  session.readFields.any fun name =>
    match before[name]?.bind (·.knownValue), after[name]?.bind (·.knownValue) with
    | some before, some after => before ≠ after
    | _, _ => false

/-- The identity a reading leaves; a later different known identity fails. -/
def readIdentity : Except ScanError (Option String × Option CandidateUnknownReason) :=
  match features[session.identityFeature]?, entry.identity with
  | some (.identity value), some kept =>
    if kept ≠ value then throw (.identityMismatch viewport entry.index kept value)
    else pure (entry.identity, entry.identityUnknown)
  | some (.identity value), none => pure (some value, none)
  | some (.unknown reason), none => pure (none, some reason)
  | none, none => pure (none, some .missing)
  | _, _ => pure (entry.identity, entry.identityUnknown)

/-- What a reading makes of a position's state: the first complete reading fixes it. -/
def readState : PositionState :=
  match state with
  | .unread | .incomplete =>
    if session.complete features then .fixed viewport features none else .incomplete
  | .fixed fixedIn held verdict =>
    if session.contradicts held features then .contradicted else .fixed fixedIn held verdict
  | .contradicted => .contradicted

def fixes : Bool :=
  match state with
  | .unread | .incomplete => session.complete features
  | _ => false

/-- One actionable reading of a position, and whether it fixed the position. -/
def read : Except ScanError (Position × Bool) := do
  let (identity, identityUnknown) ← session.readIdentity entry features viewport
  pure
    ({ entry with
        firstReadViewport := entry.firstReadViewport.or (some viewport)
        identity := identity
        identityUnknown := identityUnknown
        state := session.readState entry.state features viewport },
      session.fixes entry.state features)

/-- The position of a content rectangle: the nearest one within the tolerance, the first of two
equally near. -/
def nearest (content : AxisRect) : List (Position × Nat) → Option (Nat × Int) → Option (Nat × Int)
  | [], found => found
  | (position, index) :: rest, found =>
    let axis := (position.rect.axis - content.axis).natAbs
    let cross := (position.rect.cross - content.cross).natAbs
    let distance : Int := axis + cross
    if axis ≤ session.positionTolerancePx ∧ cross ≤ session.positionTolerancePx ∧
        found.all (fun best => distance < best.2) then
      nearest content rest (some (index, distance))
    else nearest content rest found

variable (positions : List Position)

def positionOf (content : AxisRect) (viewport : Nat) : List Position × Nat :=
  match session.nearest content positions.zipIdx none with
  | some (index, _) => (positions, index)
  | none =>
    (positions ++ [⟨u32Of positions.length, content, viewport, none, none, none, .unread⟩],
      positions.length)

/-- The positions of a viewport in the making, those it fixed and those it read, in order. -/
structure Observing where
  positions : List Position
  fixed : List Nat
  read : List Nat

def observeInstance (offset : Int) (viewport : Nat) (observing : Observing)
    (tracked : TrackedInstance) : Except ScanError Observing :=
  let content := { tracked.rect with axis := tracked.rect.axis + offset }
  let (positions, index) := session.positionOf observing.positions content viewport
  if tracked.actionable then
    match positions[index]? with
    | none => pure { observing with positions := positions }
    | some entry => do
      let (entry, fixes) ← session.read entry tracked.features viewport
      pure
        { positions := positions.set index entry
          fixed := if fixes then observing.fixed ++ [index] else observing.fixed
          read := observing.read ++ [index] }
  else pure { observing with positions := positions }

variable (index : Nat) (fixed : List Nat) (position : Position)

def axisAt : Int :=
  (positions[index]?).elim 0 (·.rect.axis)

def crossAt : Int :=
  (positions[index]?).elim 0 (·.rect.cross)

/-- Joins the last row when the axis start agrees with that row's first position. -/
def pushRow (rows : List (List Nat)) (index : Nat) : List (List Nat) :=
  match rows.getLast? with
  | some (first :: others) =>
    if axisAt positions index - axisAt positions first ≤ session.positionTolerancePx then
      rows.dropLast ++ [first :: others ++ [index]]
    else rows ++ [[index]]
  | _ => rows ++ [[index]]

/-- The positions grouped into rows, in axis order, each row in cross order. -/
def rows : List (List Nat) :=
  let order := (List.range positions.length).insertionSort fun a b =>
    ((compare (axisAt positions a) (axisAt positions b)).then
      (compare (crossAt positions a) (crossAt positions b))).isLE
  (order.foldl (session.pushRow positions) []).map fun row =>
    row.insertionSort fun a b => crossAt positions a ≤ crossAt positions b

def rowAxis : List Nat → Int
  | [] => 0
  | first :: _ => axisAt positions first

def checkGaps (positions : List Position) (viewportIndex : Nat) :
    List (List Nat) → Except ScanError Unit
  | before :: after :: rest => do
    let gap := rowAxis positions after - rowAxis positions before
    Call.failIf (gap > session.maxAxisGapPx)
      (ScanError.instanceMissing viewportIndex .axisGap gap)
    checkGaps positions viewportIndex (after :: rest)
  | _ => pure ()

/-- The spacing checks at every viewport, and the leading gap at the first. -/
def checkRows (viewportIndex : Nat) : Except ScanError Unit := do
  let rows := session.rows positions
  match rows with
  | first :: _ =>
    let lead := rowAxis positions first - session.bandAxis
    Call.failIf (viewportIndex = 0 ∧ lead > session.maxAxisGapPx)
      (ScanError.instanceMissing viewportIndex .leadingGap lead)
  | [] => pure ()
  session.checkGaps positions viewportIndex rows

/-! ## The evaluation of a viewport -/

/-- A number in decimal digits, padded with zeros to the width. -/
def padded (width number : Nat) : String :=
  let digits := toString number
  "".pushn '0' (width - digits.length) ++ digits

/-- The identifier of a position within one viewport's evaluation. -/
def candidateId : String :=
  session.layout.id ++ "#" ++ padded 3 position.index

def evaluateCandidates (candidates : List Candidate) : Except ScanError SelectionDecision :=
  match evaluateWithTables session.digests session.policy session.tables candidates session.facts
      session.nowUnixMs with
  | .ok decision => pure decision
  | .error error => throw (.evaluationFailed error)

/-- The candidates of the positions that are fixed, each with its position. -/
def fixedCandidates : List (Candidate × Nat) :=
  fixed.filterMap fun index =>
    (positions[index]?).bind fun position =>
      match position.state with
      | .fixed _ features _ =>
        some (⟨session.candidateId position, candidateFields features⟩, index)
      | _ => none

def verdictOf (verdict : CandidateVerdict) : Verdict :=
  match verdict.status with
  | .ranked => .member verdict.scoreMilli
  | .gateRejected => .gatedOut
  | .unknownDropped => if verdict.staticTableDrop then .staticTableDrop else .unknownDropped

/-- Writes a verdict into a position that is still fixed. -/
def judge (verdict : Verdict) : Position :=
  match position.state with
  | .fixed viewport features _ => { position with state := .fixed viewport features (some verdict) }
  | _ => position

def judgeAll (identities : List (Candidate × Nat)) :
    List CandidateVerdict → List Position → Except ScanError (List Position)
  | [], positions => pure positions
  | verdict :: rest, positions => do
    let (_, index) ← Call.okOr
      (identities.find? fun entry => entry.1.candidateId = verdict.candidateId)
      (ScanError.verdictOfUnknownCandidate verdict.candidateId)
    judgeAll identities rest (positions.modify index fun position =>
      judge position (verdictOf verdict))

/-- How a viewport ends: with the evaluator's abort, or with the next positions. -/
inductive Evaluated
  | aborted (decision : SelectionDecision)
  | judged (positions : List Position)

/-- The evaluation of the positions a viewport fixed. -/
def evaluateFixed : Except ScanError Evaluated :=
  if fixed = [] then pure (.judged positions)
  else do
    let identities := session.fixedCandidates positions fixed
    let decision ← session.evaluateCandidates (identities.map (·.1))
    match decision.outcome with
    | .unknown _ _ => pure (.aborted decision)
    | _ => do
      let judged ← judgeAll identities decision.candidates positions
      pure (.judged judged)

inductive Observed
  | aborted (decision : SelectionDecision)
  | viewport (state : ScanState)
deriving DecidableEq

def PositionState.settled : PositionState → Bool
  | .fixed _ _ (some (.member _)) | .fixed _ _ (some .gatedOut)
  | .fixed _ _ (some .staticTableDrop) => true
  | _ => false

/-- One coverage viewport at a content offset: its positions and readings, the spacing checks and
the evaluation of the positions it fixed. -/
def observe (state : ScanState) (current : List TrackedInstance) (motion : ScanViewportMotion)
    (offset : Int) (endCheck : Bool) : Except ScanError Observed := do
  let index := u32Of state.viewports.length
  let observing ← current.foldlM (session.observeInstance offset index) ⟨state.positions, [], []⟩
  session.checkRows observing.positions index
  match ← session.evaluateFixed observing.positions observing.fixed with
  | .aborted decision => pure (.aborted decision)
  | .judged positions =>
    let unknown := observing.read.countP fun read =>
      (positions[read]?).any fun position => !PositionState.settled position.state
    pure (.viewport
      { positions := positions
        viewports := state.viewports ++ [⟨motion, offset, u32Of current.length,
          u32Of observing.read.length, u32Of unknown, endCheck⟩]
        bands := state.bands ++
          [(offset + session.bandAxis, offset + (session.bandAxis + session.bandAxisExtent))] })

/-- One coverage viewport of a run: the start, or a move the viewport bound still admits. -/
inductive Step : ScanState → ScanState → Prop
  | start {state next : ScanState} {current : List TrackedInstance} {endCheck : Bool}
    (first : state.viewports = [])
    (seen : session.observe state current .start 0 endCheck = .ok (.viewport next)) :
    Step state next
  | advance {state next : ScanState} {current : List TrackedInstance}
    {motion : ScanViewportMotion} {offset : Int} {endCheck : Bool}
    (admitted : u32Of state.viewports.length < session.maxViewports.toNat)
    (seen : session.observe state current motion offset endCheck = .ok (.viewport next)) :
    Step state next

/-- The viewports of a run, one after another. -/
abbrev Run := Relation.ReflTransGen session.Step

end ScanSession

end Scan
