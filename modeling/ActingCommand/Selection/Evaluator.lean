import ActingCommand.ThreeValued
import ActingCommand.Selection.Resolver
import ActingCommand.Selection.Validate

/-!
# The evaluator

One pure function from the declared inputs to one explained decision: the hard gates and the
scoring terms over every candidate in order, the ranking of the survivors, and the reason chain.
A rule that meets an unknown input applies its declared handling. The two document identities
are parameters.
-/

namespace Selection

open Machine Except

abbrev Truth := ThreeValued.Truth UnknownReason

/-! ## Predicates and transforms -/

variable (candidateId : String) (reference : ValueRef) (candidate : Candidate) (resolver : Resolver)
  (survivors : List Ranked)

/-- Decides one comparison; a value of another type is a type mismatch. -/
def leaf (reads : Reads) (decides : ScalarValue → Option Bool) : Truth × Reads :=
  let (read, reads) := resolver.readNoting reference candidate reads
  match read.bind fun value => Call.okOr (decides value) UnknownReason.typeMismatch with
  | .ok holds => (.ofBool holds, reads.recordKnown resolver reference)
  | .error reason => (.unknown reason, reads.recordUnknown reference reason)

def integerOf : ScalarValue → Except UnknownReason Int
  | .integer value => .ok value
  | _ => .error .typeMismatch

def integerSide (reads : Reads) : Except UnknownReason Int × Reads :=
  let (read, reads) := resolver.readNoting reference candidate reads
  match read.bind integerOf with
  | .ok value => (.ok value, reads.recordKnown resolver reference)
  | .error reason => (.error reason, reads.recordUnknown reference reason)

/-- `right × mul + add`, in 128 bits. -/
def scaled (mul : Option Nat) (add : Option Int) (right : Int) : Int :=
  right * (mul.getD 1 : Nat) + add.getD 0

def integerTest (test : Int → Bool) : ScalarValue → Option Bool
  | .integer value => some (test value)
  | _ => none

def booleanTest (test : Bool → Bool) : ScalarValue → Option Bool
  | .boolean value => some (test value)
  | _ => none

def stringTest (test : String → Bool) : ScalarValue → Option Bool
  | .string value => some (test value)
  | _ => none

mutual

def truth (candidate : Candidate) (resolver : Resolver) : Predicate → Reads → Truth × Reads
  | .integerAtLeast value threshold, reads =>
    leaf value candidate resolver reads (integerTest fun value => value ≥ threshold)
  | .integerAtMost value threshold, reads =>
    leaf value candidate resolver reads (integerTest fun value => value ≤ threshold)
  | .integerEquals value expected, reads =>
    leaf value candidate resolver reads (integerTest fun value => value = expected)
  | .booleanEquals value expected, reads =>
    leaf value candidate resolver reads (booleanTest fun value => value = expected)
  | .stringIn value allowed, reads =>
    leaf value candidate resolver reads (stringTest fun value => allowed.contains value)
  | .integerCompare left op right mul add, reads =>
    -- Both sides are read; the left side's reason comes first.
    let (left, reads) := integerSide left candidate resolver reads
    let (right, reads) := integerSide right candidate resolver reads
    match left, right with
    | .error reason, _ => (.unknown reason, reads)
    | .ok _, .error reason => (.unknown reason, reads)
    | .ok left, .ok right => (.ofBool (op.holds left (scaled mul add right)), reads)
  | .all of, reads => truthAll candidate resolver reads.unknown.length none of reads
  | .any of, reads => truthAny candidate resolver reads.unknown.length none of reads
  | .not of, reads =>
    let (value, reads) := truth candidate resolver of reads
    (value.negate, reads)

def truthAll (candidate : Candidate) (resolver : Resolver) (start : Nat) :
    Option UnknownReason → List Predicate → Reads → Truth × Reads
  | none, [], reads => (.holds, reads)
  | some reason, [], reads => (.unknown reason, reads)
  | undecided, inner :: rest, reads =>
    match truth candidate resolver inner reads with
    | (.fails, reads) => (.fails, reads.truncateUnknown start)
    | (.unknown reason, reads) =>
      truthAll candidate resolver start (undecided.or (some reason)) rest reads
    | (.holds, reads) => truthAll candidate resolver start undecided rest reads

def truthAny (candidate : Candidate) (resolver : Resolver) (start : Nat) :
    Option UnknownReason → List Predicate → Reads → Truth × Reads
  | none, [], reads => (.fails, reads)
  | some reason, [], reads => (.unknown reason, reads)
  | undecided, inner :: rest, reads =>
    match truth candidate resolver inner reads with
    | (.holds, reads) => (.holds, reads.truncateUnknown start)
    | (.unknown reason, reads) =>
      truthAny candidate resolver start (undecided.or (some reason)) rest reads
    | (.fails, reads) => truthAny candidate resolver start undecided rest reads

end

def LookupKey.of : ScalarValue → LookupKey
  | .integer value => integer value
  | .boolean value => boolean value
  | .string value => string value

def Transform.apply (transform : Transform) (value : ScalarValue) : Except UnknownReason Int :=
  match transform with
  | identity => integerOf value
  | threshold atLeast thenMilli otherwiseMilli =>
    (integerOf value).map fun value => if value ≥ atLeast then thenMilli else otherwiseMilli
  | lookup entries defaultMilli =>
    Call.okOr
      (((entries.find? fun entry => entry.key = .of value).map (·.valueMilli)).or defaultMilli)
      UnknownReason.lookupMiss

/-- `transformed × weight / 1000`, truncated toward zero. -/
def contributionOf (transformedMilli weightMilli : Int) : Int :=
  (transformedMilli * weightMilli).tdiv 1000

/-! ## Reasons and verdicts -/

inductive SelectionPolicyCode
  | selectionPolicyIdentity
  | selectionInputsIdentity
  | selectionRequirementDeclared
  | selectionUnknown
  | candidateRanked
  | selectionSelected
  | selectionEmpty
  | selectionInsufficient
  | selectionAmbiguous
  | candidateSelected
  | selectionOutcomeKeyChosen
  | gateUnknownAborted
  | gateUnknownSubstituted
  | gateUnknownDropped
  | gateRejected
  | termUnknownAborted
  | termUnknownSubstituted
  | termUnknownDropped
  | termFallbackUsed
  | candidateScored
  | tieBreakUnknown
deriving DecidableEq

/-- A registered code with the values it carries. -/
structure Outcome where
  code : SelectionPolicyCode
  ruleId : Option String
  unknownReason : Option UnknownReason
  tableColumn : Option String
deriving DecidableEq

structure DecisionReason where
  outcome : Outcome
  detail : String
deriving DecidableEq

namespace DecisionReason

def new (code : SelectionPolicyCode) (detail : String) : DecisionReason :=
  ⟨⟨code, none, none, none⟩, detail⟩

def rule (code : SelectionPolicyCode) (ruleId detail : String) : DecisionReason :=
  ⟨⟨code, some ruleId, none, none⟩, detail⟩

def unknown (reason : UnknownReason) (detail : String) : DecisionReason :=
  ⟨⟨.selectionUnknown, none, some reason, none⟩, detail⟩

end DecisionReason

variable (left right : Ranked) (gateId : String) (term : ScoringTerm) (marks : TableMarks)
  (verdict : CandidateVerdict)

/-- At most one per candidate and rule; a pin's `otherwise` names its column. -/
def TableMarks.fallbackReason (ruleId : String) : List DecisionReason :=
  if marks.usedFallback || marks.otherwiseColumn.isSome then
    [⟨⟨.termFallbackUsed, some ruleId, none, marks.otherwiseColumn⟩,
      s!"rule `{ruleId}` read a declared fallback"⟩]
  else []

inductive GateOutcome
  | passed
  | failed
  | unknownSubstituted (reason : UnknownReason) (passes : Bool)
  | unknownDropped (reason : UnknownReason)
deriving DecidableEq

structure GateResult where
  gateId : String
  outcome : GateOutcome
deriving DecidableEq

inductive TermOutcome
  | scored (transformedMilli : Int)
  | unknownSubstituted (reason : UnknownReason) (transformedMilli : Int)
  | unknownDropped (reason : UnknownReason)
deriving DecidableEq

structure TermResult where
  termId : String
  outcome : TermOutcome
  weightMilli : Int
  contributionMilli : Int
deriving DecidableEq

inductive CandidateStatus
  | ranked
  | gateRejected
  | unknownDropped
deriving DecidableEq

structure CandidateVerdict where
  candidateId : String
  status : CandidateStatus
  scoreMilli : Option Int
  rank : Option Nat
  gates : List GateResult
  terms : List TermResult
  reasons : List DecisionReason
  staticTableDrop : Bool
deriving DecidableEq

structure Ranked where
  candidateId : String
  scoreMilli : Int
  keys : List (Except UnknownReason ScalarValue × SortDirection)

/-- An unknown input that ends the evaluation, with its detail. -/
abbrev Abort := UnknownReason × String

inductive Assessment
  | aborted (verdict : CandidateVerdict) (reason : Abort)
  | settled (verdict : CandidateVerdict) (ranked : Option Ranked)

/-! ## The gates -/

/-- The outcome and whether the candidate stays; an error ends the evaluation. -/
def gateOutcome : Truth → GateUnknownHandling → Except UnknownReason (GateOutcome × Bool)
  | .holds, _ => .ok (.passed, true)
  | .fails, _ => .ok (.failed, false)
  | .unknown reason, .dropCandidate => .ok (.unknownDropped reason, false)
  | .unknown reason, .substituteVerdict passes => .ok (.unknownSubstituted reason passes, passes)
  | .unknown reason, .abortEvaluation => .error reason

def GateOutcome.substitutionReason : GateOutcome → List DecisionReason
  | unknownSubstituted _ _ =>
    [.rule .gateUnknownSubstituted gateId s!"gate `{gateId}` used the declared verdict"]
  | _ => []

/-- How one rule leaves the verdict it works on. -/
inductive RuleStep
  | kept (verdict : CandidateVerdict)
  | settled (verdict : CandidateVerdict)
  | aborted (verdict : CandidateVerdict) (reason : Abort)

def rejectGate (outcome : GateOutcome) (marks : TableMarks) (verdict : CandidateVerdict) :
    CandidateVerdict :=
  match outcome with
  | .unknownDropped _ =>
    { verdict with
      status := .unknownDropped
      reasons := verdict.reasons ++
        [.rule .gateUnknownDropped gateId s!"gate `{gateId}` met an unknown input"]
      staticTableDrop := marks.onlyStatic }
  | _ =>
    { verdict with
      status := .gateRejected
      reasons := verdict.reasons ++
        [.rule .gateRejected gateId s!"gate `{gateId}` does not hold"] }

/-- What a gate's outcome does to the verdict. -/
def applyGate : Except UnknownReason (GateOutcome × Bool) → RuleStep
  | .error reason =>
    let cause := reason.debug
    let detail := s!"candidate `{candidateId}` gate `{gateId}`: {cause}"
    .aborted
      { verdict with
        gates := verdict.gates ++ [⟨gateId, .unknownDropped reason⟩]
        status := .unknownDropped
        reasons := verdict.reasons ++ [.rule .gateUnknownAborted gateId detail] }
      (reason, detail)
  | .ok (outcome, keep) =>
    let noted :=
      { verdict with
        gates := verdict.gates ++ [⟨gateId, outcome⟩]
        reasons := verdict.reasons ++ outcome.substitutionReason gateId ++
          marks.fallbackReason gateId }
    if keep then .kept noted else .settled (rejectGate gateId outcome marks noted)

def assessGate (gate : HardGate) (verdict : CandidateVerdict) : RuleStep :=
  let (value, reads) := truth candidate resolver gate.predicate .ignored
  applyGate candidate.candidateId gate.gateId reads.marks verdict
    (gateOutcome value gate.onUnknown)

def assessGates (candidate : Candidate) (resolver : Resolver) :
    List HardGate → CandidateVerdict → RuleStep
  | [], verdict => .kept verdict
  | gate :: rest, verdict =>
    match assessGate candidate resolver gate verdict with
    | .kept verdict => assessGates candidate resolver rest verdict
    | ended => ended

/-! ## The terms -/

/-- What the term's value came to, and the transformed value of a candidate that stays. -/
def termOutcome : Except UnknownReason Int → TermUnknownHandling →
    Except UnknownReason (TermOutcome × Option Int)
  | .ok transformedMilli, _ => .ok (.scored transformedMilli, some transformedMilli)
  | .error reason, .dropCandidate => .ok (.unknownDropped reason, none)
  | .error reason, .substituteMilli valueMilli =>
    .ok (.unknownSubstituted reason valueMilli, some valueMilli)
  | .error reason, .abortEvaluation => .error reason

def TermOutcome.substitutionReason (termId : String) : TermOutcome → List DecisionReason
  | unknownSubstituted _ _ =>
    [.rule .termUnknownSubstituted termId s!"term `{termId}` used the declared value"]
  | _ => []

def termValue : Except UnknownReason Int :=
  (resolver.readNoting term.value candidate .ignored).1.bind term.transform.apply

def isUnknown {α : Type} : Except UnknownReason α → Bool
  | .ok _ => false
  | .error _ => true

/-- What a term's outcome does to the verdict, with the contribution of a candidate that stays. -/
def applyTerm (staticUnknown : Bool) (verdict : CandidateVerdict) :
    Except UnknownReason (TermOutcome × Option Int) → Except SelectionError (RuleStep × Int)
  | .error reason =>
    let termId := term.termId
    let cause := reason.debug
    let detail := s!"candidate `{candidateId}` term `{termId}`: {cause}"
    pure
      (.aborted
        { verdict with
          terms := verdict.terms ++ [⟨termId, .unknownDropped reason, term.weightMilli, 0⟩]
          status := .unknownDropped
          reasons := verdict.reasons ++ [.rule .termUnknownAborted termId detail] }
        (reason, detail), 0)
  | .ok (outcome, some transformedMilli) => do
    let termId := term.termId
    let contributionMilli ← Call.okOr
      (toI64 (contributionOf transformedMilli term.weightMilli))
      (SelectionError.mk .arithmeticOverflow s!"term `{termId}` overflows a 64-bit milli score")
    pure
      (.kept
        { verdict with
          terms := verdict.terms ++ [⟨termId, outcome, term.weightMilli, contributionMilli⟩]
          reasons := verdict.reasons ++ outcome.substitutionReason termId ++
            marks.fallbackReason termId },
        contributionMilli)
  | .ok (outcome, none) =>
    let termId := term.termId
    pure
      (.settled
        { verdict with
          terms := verdict.terms ++ [⟨termId, outcome, term.weightMilli, 0⟩]
          status := .unknownDropped
          staticTableDrop := staticUnknown
          reasons := verdict.reasons ++
            [.rule .termUnknownDropped termId s!"term `{termId}` met an unknown input"] }, 0)

def assessTerm : Except SelectionError (RuleStep × Int) :=
  let (read, reads) := resolver.readNoting term.value candidate .ignored
  -- A value the term's own transform cannot use is the document's, not the table's.
  applyTerm candidate.candidateId term reads.marks (isUnknown read && reads.marks.onlyStatic)
    verdict (termOutcome (termValue candidate resolver term) term.onUnknown)

def assessTerms (candidate : Candidate) (resolver : Resolver) :
    List ScoringTerm → Int → CandidateVerdict → Except SelectionError (RuleStep × Int)
  | [], total, verdict => pure (.kept verdict, total)
  | term :: rest, total, verdict => do
    match ← assessTerm candidate resolver term verdict with
    | (.kept verdict, contributionMilli) =>
      assessTerms candidate resolver rest (total + contributionMilli) verdict
    | (ended, _) => pure (ended, total)

/-! ## One candidate -/

def tieBreakValue : TieBreakKey → Except UnknownReason ScalarValue × SortDirection
  | .candidateId direction => (.ok (.string candidate.candidateId), direction)
  | .value value direction => (resolver.read value candidate, direction)

def tieBreakReason :
    (Except UnknownReason ScalarValue × SortDirection) × Nat → List DecisionReason
  | ((.ok _, _), _) => []
  | ((.error reason, _), index) =>
    let cause := reason.debug
    [.new .tieBreakUnknown s!"tie-break key {index} is unknown ({cause}) and orders last"]

def freshVerdict : CandidateVerdict :=
  ⟨candidateId, .ranked, none, none, [], [], [], false⟩

section

variable (policy : SelectionPolicy) (candidate : Candidate) (resolver : Resolver)
  (header : DecisionHeader)

/-- The survivor's entry in the ranking, with its scored verdict. -/
def scoreCandidate (total : Int) (verdict : CandidateVerdict) :
    Except SelectionError Assessment := do
  let candidateId := candidate.candidateId
  let scoreMilli ← Call.okOr (toI64 total)
    (SelectionError.mk .arithmeticOverflow
      s!"candidate `{candidateId}` overflows a 64-bit milli score")
  let keys := policy.tieBreak.map (tieBreakValue candidate resolver)
  pure
    (.settled
      { verdict with
        scoreMilli := some scoreMilli
        reasons := verdict.reasons ++ [.new .candidateScored s!"score_milli={scoreMilli}"] ++
          keys.zipIdx.flatMap tieBreakReason }
      (some ⟨candidateId, scoreMilli, keys⟩))

def assess : Except SelectionError Assessment :=
  match assessGates candidate resolver policy.gates (freshVerdict candidate.candidateId) with
  | .aborted verdict reason => pure (.aborted verdict reason)
  | .settled verdict => pure (.settled verdict none)
  | .kept verdict => do
    match ← assessTerms candidate resolver policy.scoring 0 verdict with
    | (.aborted verdict reason, _) => pure (.aborted verdict reason)
    | (.settled verdict, _) => pure (.settled verdict none)
    | (.kept verdict, total) => scoreCandidate policy candidate resolver total verdict

/-! ## Ranking -/

/-- A key that is unknown for one of two survivors orders the known one first. -/
def compareKey : Except UnknownReason ScalarValue × SortDirection →
    Except UnknownReason ScalarValue × SortDirection → Ordering
  | (.ok value, .highestFirst), (.ok other, _) => other.cmp value
  | (.ok value, .lowestFirst), (.ok other, _) => value.cmp other
  | (.ok _, _), (.error _, _) => .lt
  | (.error _, _), (.ok _, _) => .gt
  | (.error _, _), (.error _, _) => .eq

def compareKeyLists : List (Except UnknownReason ScalarValue × SortDirection) →
    List (Except UnknownReason ScalarValue × SortDirection) → Ordering
  | key :: keys, other :: others => (compareKey key other).then (compareKeyLists keys others)
  | _, _ => .eq

def compareKeys : Ordering := compareKeyLists left.keys right.keys

/-- Higher scores first, then the declared keys, then the identifier. -/
def compareRanked : Ordering :=
  (compare right.scoreMilli left.scoreMilli).then
    ((compareKeys left right).then (compare left.candidateId right.candidateId))

def tied : Bool :=
  left.scoreMilli = right.scoreMilli && compareKeys left right = .eq

def sortRanked : List Ranked :=
  survivors.insertionSort fun left right => (compareRanked left right).isLE

/-- The first verdict under the identifier. -/
def updateVerdict (verdicts : List CandidateVerdict) (candidateId : String)
    (update : CandidateVerdict → CandidateVerdict) : List CandidateVerdict :=
  match verdicts with
  | [] => []
  | verdict :: rest =>
    if verdict.candidateId = candidateId then update verdict :: rest
    else verdict :: updateVerdict rest candidateId update

def rankVerdict (rank : Nat) (verdict : CandidateVerdict) : CandidateVerdict :=
  { verdict with
    rank := some rank
    reasons := verdict.reasons ++ [.new .candidateRanked s!"rank={rank}"] }

/-- Writes each survivor's rank into its verdict. -/
def rankVerdicts (verdicts : List CandidateVerdict) : List CandidateVerdict :=
  survivors.zipIdx.foldl
    (fun verdicts entry => updateVerdict verdicts entry.1.candidateId (rankVerdict (entry.2 + 1)))
    verdicts

inductive SelectionOutcome
  | selected (count : Nat)
  | empty
  | insufficient (surviving required : Nat)
  | ambiguous (candidateIds : List String)
  | unknown (reason : UnknownReason) (detail : String)
deriving DecidableEq

def SelectionOutcome.key (keys : OutcomeKeys) : SelectionOutcome → String
  | selected _ => keys.selected
  | empty => keys.empty
  | insufficient _ _ => keys.insufficient
  | ambiguous _ => keys.ambiguous
  | unknown _ _ => keys.unknown

def requestedCount (selection : SelectionRequirement) (surviving : Nat) : Nat :=
  match selection.mode with
  | .exactlyOne => 1
  | .topK => selection.requiredCount
  | .noneAllowed => min selection.requiredCount surviving

/-- The two survivors on either side of the cut, when the declared keys do not separate them. -/
def cutTie (requested : Nat) : Option (Ranked × Ranked) :=
  match survivors[requested - 1]?, survivors[requested]? with
  | some last, some next => if tied last next then some (last, next) else none
  | _, _ => none

def outcomeOf (requested : Nat) : SelectionOutcome :=
  if requested > survivors.length then .insufficient survivors.length requested
  else if requested = 0 then .empty
  else
    match cutTie survivors requested with
    | some (last, next) => .ambiguous [last.candidateId, next.candidateId]
    | none => .selected requested

def selectedOf : SelectionOutcome → List String
  | .selected count => (survivors.take count).map (·.candidateId)
  | _ => []

def outcomeReason : SelectionOutcome → List DecisionReason
  | .selected count =>
    let surviving := survivors.length
    [.new .selectionSelected s!"{count} of {surviving} surviving"]
  | .empty =>
    let surviving := survivors.length
    [.new .selectionEmpty s!"{surviving} surviving, none required"]
  | .insufficient surviving required =>
    [.new .selectionInsufficient s!"{surviving} surviving below required {required}"]
  | .ambiguous candidateIds =>
    let names := ", ".intercalate candidateIds
    [.new .selectionAmbiguous s!"tie-break leaves {names} at the cut"]
  | .unknown _ _ => []

def markSelected (selected : List String) (verdict : CandidateVerdict) : CandidateVerdict :=
  if verdict.candidateId ∈ selected then
    { verdict with reasons := verdict.reasons ++ [.new .candidateSelected "chosen"] }
  else verdict

/-! ## The decision -/

structure EvaluationInput where
  candidates : List Candidate
  facts : SelectionFactSnapshot
  nowUnixMs : Nat
  tables : Option (Std.ExtTreeMap String (List TableRow))

/-- The largest integer that canonical JSON holds, of either sign. -/
def canonicalSafeIntegerMax : Int := 9007199254740991

def ScalarValue.integers : ScalarValue → List Int
  | integer value => [value]
  | _ => []

def StandardPackTableCell.integers : StandardPackTableCell → List Int
  | integer value => [value]
  | _ => []

def fieldIntegers (fields : Std.ExtTreeMap String ScalarValue) : List Int :=
  fields.toList.flatMap fun entry => entry.2.integers

def Publication.integers (publication : Publication) : List Int :=
  [(publication.publishedAtUnixMs : Int)] ++
    publication.expiresAtUnixMs.toList.map (fun expiry => (expiry : Int)) ++
    [(publication.confidenceMilli : Int)]

def SelectionFactEntry.integers : SelectionFactEntry → List Int
  | published value publication => value.integers ++ publication.integers
  | unusable _ => []
  | recordList rows publication => rows.flatMap fieldIntegers ++ publication.integers

def SelectionFactSnapshot.integers (facts : SelectionFactSnapshot) : List Int :=
  (facts.snapshotAtUnixMs : Int) :: facts.facts.toList.flatMap fun entry => entry.2.integers

def rowIntegers (row : TableRow) : List Int := row.toList.flatMap fun cell => cell.2.integers

def tableIntegers (tables : Std.ExtTreeMap String (List TableRow)) : List Int :=
  tables.toList.flatMap fun entry => entry.2.flatMap rowIntegers

namespace EvaluationInput

/-- Every integer of the input, in the order of its canonical form. -/
def integers (input : EvaluationInput) : List Int :=
  input.candidates.flatMap (fun candidate => fieldIntegers candidate.fields) ++
    input.facts.integers ++ [(input.nowUnixMs : Int)] ++
    (input.tables.elim [] tableIntegers)

def checkCanonical (input : EvaluationInput) : Except SelectionError Unit :=
  match input.integers.find? fun value =>
    !(-canonicalSafeIntegerMax ≤ value && value ≤ canonicalSafeIntegerMax) with
  | some value => throw ⟨.integerOutOfRange, s!"`{value}` is outside the safe integer range"⟩
  | none => pure ()

end EvaluationInput

/-- The identities of a document and of an input whose canonical form exists. -/
structure Digests where
  policySha256 : SelectionPolicy → Except SelectionError String
  inputSha256 : EvaluationInput → String

structure SelectionDecision where
  schemaVersion : String
  policyId : String
  policySha256 : String
  inputSha256 : String
  candidateLayoutId : String
  factSnapshotId : String
  evaluatedAtUnixMs : Nat
  outcome : SelectionOutcome
  outcomeKey : String
  selected : List String
  candidates : List CandidateVerdict
  reasons : List DecisionReason
deriving DecidableEq

/-- The parts of a decision that are fixed before any candidate is assessed. -/
structure DecisionHeader where
  policySha256 : String
  inputSha256 : String
  factSnapshotId : String
  evaluatedAtUnixMs : Nat

def finish (outcome : SelectionOutcome) (selected : List String)
    (candidates : List CandidateVerdict) (reasons : List DecisionReason) : SelectionDecision :=
  let outcomeKey := outcome.key policy.appliesTo.outcomeKeys
  { schemaVersion := selectionPolicySchemaVersion
    policyId := policy.policyId
    policySha256 := header.policySha256
    inputSha256 := header.inputSha256
    candidateLayoutId := policy.appliesTo.candidateLayoutId
    factSnapshotId := header.factSnapshotId
    evaluatedAtUnixMs := header.evaluatedAtUnixMs
    outcome := outcome
    outcomeKey := outcomeKey
    selected := selected
    candidates := candidates
    reasons := reasons ++ [.new .selectionOutcomeKeyChosen outcomeKey] }

def checkCandidateIds : List Candidate → List String → Except SelectionError Unit
  | [], _ => pure ()
  | candidate :: rest, seen => do
    let candidateId := candidate.candidateId
    refuseIf (candidateId.isEmpty = true) .missingRequiredField
      "a candidate carries an empty candidate_id"
    refuseIf (candidateId ∈ seen) .duplicateId s!"candidate `{candidateId}` appears twice"
    checkCandidateIds rest (candidateId :: seen)

def checkCandidateSet (candidates : List Candidate) : Except SelectionError Unit := do
  let count := candidates.length
  refuseIf (count > maxCandidates) .limitExceeded
    s!"{count} candidates exceed the {maxCandidates} limit"
  checkCandidateIds candidates []

/-- The verdicts of the candidates in order, until one of them ends the evaluation. -/
inductive AssessedSet
  | aborted (verdicts : List CandidateVerdict) (reason : Abort)
  | settled (verdicts : List CandidateVerdict) (survivors : List Ranked)

def assessAll (policy : SelectionPolicy) (resolver : Resolver) :
    List Candidate → Except SelectionError AssessedSet
  | [] => pure (.settled [] [])
  | candidate :: rest => do
    match ← assess policy candidate resolver with
    | .aborted verdict reason => pure (.aborted [verdict] reason)
    | .settled verdict ranked =>
      match ← assessAll policy resolver rest with
      | .aborted verdicts reason => pure (.aborted (verdict :: verdicts) reason)
      | .settled verdicts survivors =>
        pure (.settled (verdict :: verdicts) (ranked.toList ++ survivors))

def decideSurvivors (reasons : List DecisionReason) (verdicts : List CandidateVerdict)
    (survivors : List Ranked) : SelectionDecision :=
  let ordered := sortRanked survivors
  let outcome := outcomeOf ordered (requestedCount policy.selection ordered.length)
  let selected := selectedOf ordered outcome
  finish policy header outcome selected
    ((rankVerdicts ordered verdicts).map (markSelected selected))
    (reasons ++ outcomeReason ordered outcome)

def SelectionMode.debug : SelectionMode → String
  | topK => "TopK"
  | exactlyOne => "ExactlyOne"
  | noneAllowed => "NoneAllowed"

def declaredReasons : List DecisionReason :=
  let mode := policy.selection.mode.debug
  let requiredCount := policy.selection.requiredCount
  [.new .selectionPolicyIdentity header.policySha256,
    .new .selectionInputsIdentity header.inputSha256,
    .new .selectionRequirementDeclared s!"{mode} required_count={requiredCount}"]

/-- The table rows of the input identity, when the document declares a table. -/
def tablesOfInput (tables : SelectionTables) (candidates : List Candidate)
    (facts : SelectionFactSnapshot) (nowUnixMs : Nat) :
    Option (Std.ExtTreeMap String (List TableRow)) :=
  if policy.usesTables then
    let resolver := Resolver.new policy facts [] tables nowUnixMs
    some (tables.readRows policy candidates
      (fun keyField candidate => (resolver.readKey keyField candidate).toOption)
      resolver.readFact)
  else none

end

variable (digests : Digests) (policy : SelectionPolicy) (tables : SelectionTables)
  (candidates : List Candidate) (facts : SelectionFactSnapshot) (nowUnixMs : Nat)

def evaluateWithTables : Except SelectionError SelectionDecision := do
  policy.validate
  checkCandidateSet candidates
  tables.checkBound policy
  let policySha256 ← digests.policySha256 policy
  let input : EvaluationInput :=
    ⟨candidates, facts, nowUnixMs, tablesOfInput policy tables candidates facts nowUnixMs⟩
  input.checkCanonical
  let inputSha256 := digests.inputSha256 input
  let header : DecisionHeader := ⟨policySha256, inputSha256, facts.snapshotId, nowUnixMs⟩
  let reasons := declaredReasons policy header
  match readLists policy facts nowUnixMs with
  | .error unreadable =>
    let outcome := SelectionOutcome.unknown unreadable.reason unreadable.detail
    pure (finish policy header outcome [] []
      (reasons ++ [.unknown unreadable.reason unreadable.detail]))
  | .ok lists =>
    match ← assessAll policy (Resolver.new policy facts lists tables nowUnixMs) candidates with
    | .aborted verdicts reason =>
      pure (finish policy header (.unknown reason.1 reason.2) [] verdicts
        (reasons ++ [.unknown reason.1 reason.2]))
    | .settled verdicts survivors =>
      pure (decideSurvivors policy header reasons verdicts survivors)

/-! ## What an evaluation checks -/

/-- The parts of the decision that the inputs fix. -/
def headerOf (policySha256 : String) : DecisionHeader :=
  ⟨policySha256,
    digests.inputSha256
      ⟨candidates, facts, nowUnixMs, tablesOfInput policy tables candidates facts nowUnixMs⟩,
    facts.snapshotId, nowUnixMs⟩

/-- The inputs pass every check that is made before a candidate is assessed. -/
structure Admitted (policySha256 : String) : Prop where
  valid : policy.validate = .ok ()
  set : checkCandidateSet candidates = .ok ()
  bound : tables.checkBound policy = .ok ()
  digest : digests.policySha256 policy = .ok policySha256
  canonical : EvaluationInput.checkCanonical
    ⟨candidates, facts, nowUnixMs, tablesOfInput policy tables candidates facts nowUnixMs⟩ = .ok ()

/-- The decision when a declared list cannot be read. -/
def decideUnread (policy : SelectionPolicy) (header : DecisionHeader)
    (unreadable : ListUnreadable) :
    SelectionDecision :=
  finish policy header (.unknown unreadable.reason unreadable.detail) [] []
    (declaredReasons policy header ++ [.unknown unreadable.reason unreadable.detail])

/-- The decision over the candidates as far as they were assessed. -/
def decideAssessed (policy : SelectionPolicy) (header : DecisionHeader) :
    AssessedSet → SelectionDecision
  | .aborted verdicts reason =>
    finish policy header (.unknown reason.1 reason.2) [] verdicts
      (declaredReasons policy header ++ [.unknown reason.1 reason.2])
  | .settled verdicts survivors =>
    decideSurvivors policy header (declaredReasons policy header) verdicts survivors

section Evaluation

variable {digests policy tables candidates facts nowUnixMs} {policySha256 : String}
  {decision : SelectionDecision}

lemma Admitted.evaluate
    (admitted : Admitted digests policy tables candidates facts nowUnixMs policySha256) :
    evaluateWithTables digests policy tables candidates facts nowUnixMs =
      match readLists policy facts nowUnixMs with
      | .error unreadable => .ok (decideUnread policy
          (headerOf digests policy tables candidates facts nowUnixMs policySha256) unreadable)
      | .ok lists =>
        (assessAll policy (.new policy facts lists tables nowUnixMs) candidates).map
          (decideAssessed policy
            (headerOf digests policy tables candidates facts nowUnixMs policySha256)) := by
  simp only [evaluateWithTables, admitted.valid, admitted.set, admitted.bound, admitted.digest,
    admitted.canonical, bind, Except.bind]
  cases readLists policy facts nowUnixMs with
  | error unreadable => rfl
  | ok lists =>
    simp only
    cases assessAll policy (.new policy facts lists tables nowUnixMs) candidates with
    | error error => rfl
    | ok assessed => cases assessed <;> rfl

lemma admitted_of_evaluate
    (answer : evaluateWithTables digests policy tables candidates facts nowUnixMs =
      .ok decision) :
    ∃ policySha256, Admitted digests policy tables candidates facts nowUnixMs policySha256 := by
  simp only [evaluateWithTables, bind_ok_iff] at answer
  obtain ⟨_, valid, _, set, _, bound, policySha256, digest, _, canonical, -⟩ := answer
  exact ⟨policySha256, valid, set, bound, digest, canonical⟩

/-- An evaluation that answers could not read a list, or assessed its candidates. -/
theorem evaluate_cases
    (answer : evaluateWithTables digests policy tables candidates facts nowUnixMs =
      .ok decision) :
    ∃ policySha256, Admitted digests policy tables candidates facts nowUnixMs policySha256 ∧
      ((∃ unreadable, readLists policy facts nowUnixMs = .error unreadable ∧
        decision = decideUnread policy
          (headerOf digests policy tables candidates facts nowUnixMs policySha256) unreadable) ∨
      ∃ lists assessed, readLists policy facts nowUnixMs = .ok lists ∧
        assessAll policy (.new policy facts lists tables nowUnixMs) candidates = .ok assessed ∧
        decision = decideAssessed policy
          (headerOf digests policy tables candidates facts nowUnixMs policySha256) assessed) := by
  obtain ⟨policySha256, admitted⟩ := admitted_of_evaluate answer
  refine ⟨policySha256, admitted, ?_⟩
  rw [admitted.evaluate] at answer
  cases read : readLists policy facts nowUnixMs with
  | error unreadable =>
    rw [read] at answer
    exact Or.inl ⟨unreadable, rfl, (ok.inj answer).symm⟩
  | ok lists =>
    rw [read] at answer
    simp only at answer
    cases all : assessAll policy (.new policy facts lists tables nowUnixMs) candidates with
    | error error =>
      rw [all] at answer
      cases answer
    | ok assessed =>
      rw [all] at answer
      exact Or.inr ⟨lists, assessed, rfl, all, (ok.inj answer).symm⟩

end Evaluation

end Selection
