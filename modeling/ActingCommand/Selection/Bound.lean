import ActingCommand.Selection.Evaluator

/-!
# The upper bound of a candidate that was not read

For each hypothetical identity the bound runs the gates and the terms over sets of values, exact
for what the identity fixes and the declared domain for every other field. A gate excludes an
identity only when it cannot let it through, and a term contributes its largest possible
contribution.
-/

namespace Selection

open Machine ThreeValued Std

/-- What one candidate field can hold on a candidate that was not read. -/
inductive FieldDomain
  | identity
  | boolean
  | integer (min max : Int)
deriving DecidableEq

inductive UpperBound
  | noneEligible
  | max (milli : Int)
  | unbounded

inductive Score
  | excluded
  | max (milli : Int)
  | unbounded

/-- What a reference reads for one hypothetical identity. -/
inductive Reading
  | exact (value : Option ScalarValue)
  | anyBoolean
  | range (min max : Int)

structure Hypothesis where
  identity : String
  fieldDomains : ExtTreeMap String FieldDomain
  facts : ExtTreeMap String FactDeclaration
  snapshot : SelectionFactSnapshot
  lists : ListIndex
  tables : SelectionTables
  nowUnixMs : Nat

/-- The key is a value of the integer range or, without one, a boolean value. -/
def LookupKey.reachedIn (range : Option (Int × Int)) : LookupKey → Bool
  | .integer key => range.any fun (min, max) => min ≤ key && key ≤ max
  | .boolean _ => range.isNone
  | .string _ => false

def domainSize : Option (Int × Int) → Int
  | some (min, max) => max - min + 1
  | none => 2

/-- The outputs a transform takes over an integer range or, without one, over both boolean values,
and whether some value of the domain misses a lookup that has no default. -/
def rangedOutputs (transform : Transform) (range : Option (Int × Int)) : List Int × Bool :=
  match transform, range with
  | .identity, some (min, max) => ([min, max], false)
  | .threshold atLeast thenMilli otherwiseMilli, some (min, max) =>
    ((if max ≥ atLeast then [thenMilli] else []) ++
      (if min < atLeast then [otherwiseMilli] else []), false)
  | .lookup entries defaultMilli, range =>
    let reached := (entries.filter fun entry => entry.key.reachedIn range).map (·.valueMilli)
    if domainSize range ≤ reached.length then (reached, false)
    else
      match defaultMilli with
      | some value => (reached ++ [value], false)
      | none => (reached, true)
  | .identity, none | .threshold _ _ _, none => ([], true)

namespace Hypothesis

def new (policy : SelectionPolicy) (fieldDomains : ExtTreeMap String FieldDomain)
    (snapshot : SelectionFactSnapshot) (lists : ListIndex) (tables : SelectionTables)
    (nowUnixMs : Nat) (identity : String) : Hypothesis where
  identity := identity
  fieldDomains := fieldDomains
  facts := ExtTreeMap.ofList (policy.facts.map fun d => (d.factKey, d))
  snapshot := snapshot
  lists := lists
  tables := tables
  nowUnixMs := nowUnixMs

variable (hypothesis : Hypothesis)

def readFact (factKey : String) : Except UnknownReason ScalarValue :=
  match hypothesis.facts[factKey]? with
  | none => .error .factMissing
  | some declared => hypothesis.snapshot.resolve declared hypothesis.nowUnixMs

def read (reference : ValueRef) : Reading :=
  match reference with
  | .field field =>
    match hypothesis.fieldDomains[field]? with
    | some .identity => .exact (some (.string hypothesis.identity))
    | some .boolean => .anyBoolean
    | some (.integer min max) => .range min max
    | none => .exact none
  | .fact factKey => .exact (hypothesis.readFact factKey).toOption
  | .keyedFact factKey keyField valueColumn rowFilter absent =>
    if hypothesis.fieldDomains[keyField]? ≠ some .identity then .exact none
    else
      .exact ((hypothesis.lists.lookup (factKey, rowFilter)).bind fun rows =>
        match rows[hypothesis.identity]? with
        | some row => row[valueColumn]?
        | none => some absent)
  | .table .. =>
    .exact (hypothesis.tables.read reference hypothesis.identity
      hypothesis.readFact).value.toOption

/-- `exact` decides one value; `range` says whether some value of a range makes the comparison
true and whether some value makes it false. -/
def integerPossible (value : ValueRef) (exact : Int → Bool) (range : Int → Int → Bool × Bool) :
    Possible :=
  match hypothesis.read value with
  | .exact (some (.integer value)) => .exact (exact value)
  | .range min max => ⟨(range min max).1, (range min max).2, false⟩
  | _ => .undecided

/-- The integers a reference can read; none when it is unknown or not an integer. -/
def integerRange (value : ValueRef) : Option (Int × Int) :=
  match hypothesis.read value with
  | .exact (some (.integer value)) => some (value, value)
  | .range min max => some (min, max)
  | _ => none

/-- Which outcomes a comparison of two ranges can have. -/
def comparePossible (op : IntegerCompareOp) (a b c d : Int) : Bool × Bool :=
  let meet : Bool := a ≤ d && c ≤ b
  let single : Bool := a = b && c = d && a = c
  match op with
  | .eq => (meet, !single)
  | .ne => (!single, meet)
  | .lt => (a < d, b ≥ c)
  | .le => (a ≤ d, b > c)
  | .gt => (b > c, a ≤ d)
  | .ge => (b ≥ c, a < d)

mutual

def possible : Predicate → Possible
  | .integerAtLeast value threshold =>
    hypothesis.integerPossible value (fun value => value ≥ threshold)
      fun min max => (max ≥ threshold, min < threshold)
  | .integerAtMost value threshold =>
    hypothesis.integerPossible value (fun value => value ≤ threshold)
      fun min max => (min ≤ threshold, max > threshold)
  | .integerEquals value expected =>
    hypothesis.integerPossible value (fun value => value = expected)
      fun min max => (min ≤ expected && expected ≤ max, min ≠ expected || max ≠ expected)
  | .booleanEquals value expected =>
    match hypothesis.read value with
    | .exact (some (.boolean value)) => .exact (value = expected)
    | .anyBoolean => ⟨true, true, false⟩
    | _ => .undecided
  | .stringIn value allowed =>
    match hypothesis.read value with
    | .exact (some (.string value)) => .exact (allowed.contains value)
    | _ => .undecided
  | .integerCompare left op right mul add =>
    match hypothesis.integerRange left, hypothesis.integerRange right with
    | some (leftMin, leftMax), some (rightMin, rightMax) =>
      let outcomes :=
        comparePossible op leftMin leftMax (scaled mul add rightMin) (scaled mul add rightMax)
      ⟨outcomes.1, outcomes.2, false⟩
    | _, _ => .undecided
  | .all of => .all (possibleEach of)
  | .any of => .any (possibleEach of)
  | .not of => (possible of).negate

def possibleEach : List Predicate → List Possible
  | [] => []
  | inner :: rest => possible inner :: possibleEach rest

end

/-- The transform outputs of what was read, whether the input may be unknown and whether it is
ranged. -/
def rawOutputs (term : ScoringTerm) : List Int × Bool × Bool :=
  match hypothesis.read term.value with
  | .exact (some value) =>
    match term.transform.apply value with
    | .ok output => ([output], false, false)
    | .error _ => ([], true, false)
  | .exact none => ([], true, false)
  | .range min max =>
    let (outputs, miss) := rangedOutputs term.transform (some (min, max))
    (outputs, miss, true)
  | .anyBoolean =>
    let (outputs, miss) := rangedOutputs term.transform none
    (outputs, miss, true)

/-- Every transform output the term can take; empty when the candidate is dropped, and none when
an exact unknown input ends the evaluation. -/
def outputs (term : ScoringTerm) : Option (List Int) :=
  let (outputs, unknown, ranged) := hypothesis.rawOutputs term
  match term.onUnknown with
  | .substituteMilli valueMilli =>
    if unknown || ranged then some (outputs ++ [valueMilli]) else some outputs
  | .abortEvaluation => if unknown then none else some outputs
  | .dropCandidate => some outputs

/-- The largest contribution, when every one stays in the 64-bit range. -/
def largestContribution (weightMilli : Int) : List Int → Option Int → Option Int
  | [], largest => some (largest.getD 0)
  | output :: rest, largest =>
    match toI64 (contributionOf output weightMilli) with
    | none => none
    | some contribution =>
      largestContribution weightMilli rest
        (some (largest.elim contribution fun largest => Max.max largest contribution))

def totalBound : List ScoringTerm → Int → Score
  | [], total =>
    match toI64 total with
    | some total => .max total
    | none => .unbounded
  | term :: rest, total =>
    match hypothesis.outputs term with
    | none => .unbounded
    | some [] => .excluded
    | some outputs =>
      match largestContribution term.weightMilli outputs none with
      | none => .unbounded
      | some largest => totalBound rest (total + largest)

/-- Whether the gates can let the identity through; `some` is the bound they already settle. -/
def gatesBound : List HardGate → Option Score
  | [] => none
  | gate :: rest =>
    let possible := hypothesis.possible gate.predicate
    -- Missing table data is static, so a gate that reads a table and cannot hold never lets the
    -- identity through.
    if gate.predicate.readsTable then
      if possible.truth then gatesBound rest
      else if possible.unknown && gate.onUnknown = .abortEvaluation then some .unbounded
      else some .excluded
    else if !possible.truth && !possible.unknown then some .excluded
    else gatesBound rest

def score (policy : SelectionPolicy) : Score :=
  match hypothesis.gatesBound policy.gates with
  | some settled => settled
  | none => hypothesis.totalBound policy.scoring 0

end Hypothesis

/-- The domain of a declared field describes the document. -/
def checkDomain (identities : List String) (declaration : FieldDeclaration)
    (domain : FieldDomain) : Except SelectionError Unit :=
  let name := declaration.name
  match domain, declaration.valueType with
  | .identity, .enumString allowed =>
    match identities.find? fun identity => !allowed.contains identity with
    | some identity => throw ⟨.typeMismatch, s!"field={name} identity={identity}"⟩
    | none => pure ()
  | .boolean, .boolean => pure ()
  | .integer min max, .integer =>
    refuseIf (¬ min ≤ max) .typeMismatch s!"field={name} field_domain"
  | _, _ => throw ⟨.typeMismatch, s!"field={name} field_domain"⟩

def checkDomains (identities : List String)
    (fieldDomains : ExtTreeMap String FieldDomain) :
    List FieldDeclaration → Except SelectionError Unit
  | [] => pure ()
  | declaration :: rest => do
    let name := declaration.name
    let domain ← requireSome fieldDomains[name]? .missingRequiredField
      s!"field={name} field_domain"
    checkDomain identities declaration domain
    checkDomains identities fieldDomains rest

/-- The largest score over the hypothetical identities. -/
def bestScore (policy : SelectionPolicy) (hypothesisOf : String → Hypothesis) :
    List String → Option Int → UpperBound
  | [], best => best.elim .noneEligible .max
  | identity :: rest, best =>
    match (hypothesisOf identity).score policy with
    | .excluded => bestScore policy hypothesisOf rest best
    | .unbounded => .unbounded
    | .max score =>
      bestScore policy hypothesisOf rest
        (some (best.elim score fun best => Max.max best score))

def upperBoundWithTables (policy : SelectionPolicy) (tables : SelectionTables)
    (facts : SelectionFactSnapshot) (nowUnixMs : Nat) (identities : List String)
    (fieldDomains : ExtTreeMap String FieldDomain) : Except SelectionError UpperBound := do
  policy.validate
  tables.checkBound policy
  checkDomains identities fieldDomains policy.fields
  if policy.tableKeyFields.any fun keyField => fieldDomains[keyField]? ≠ some .identity then
    pure .unbounded
  else
    match readLists policy facts nowUnixMs with
    -- A list that cannot be read ends every evaluation, so nothing bounds the score.
    | .error _ => pure .unbounded
    | .ok lists =>
      pure (bestScore policy (Hypothesis.new policy fieldDomains facts lists tables nowUnixMs)
        identities none)

end Selection
