import ActingCommand.Call

/-!
# The selection-policy document

A document declares the candidate fields, facts and tables it may read, and states
its hard gates, its weighted scoring terms, how many candidates it requires and how
ties are broken. A 64-bit integer of the document is an `Int`. A map of the document
from column names is the list of its entries in key order.
-/

namespace Selection

inductive SelectionErrorCode
  | arithmeticOverflow
  | danglingReference
  | documentTooLarge
  | duplicateId
  | duplicateKey
  | floatRejected
  | integerOutOfRange
  | invalidArguments
  | invalidJson
  | limitExceeded
  | missingRequiredField
  | readFailed
  | typeMismatch
  | unsupportedSchemaVersion
deriving DecidableEq

structure SelectionError where
  code : SelectionErrorCode
  detail : String
deriving DecidableEq

def selectionPolicySchemaVersion : String := "actingcommand.selection-policy.v1"

def maxCandidates : Nat := 4096
def maxFields : Nat := 128
def maxFacts : Nat := 128
def maxGates : Nat := 128
def maxScoringTerms : Nat := 512
def maxTieBreakKeys : Nat := 16
def maxLookupEntries : Nat := 512
def maxPredicateDepth : Nat := 16
def maxPredicateNodes : Nat := 512
def maxIdBytes : Nat := 128
def maxEnumValues : Nat := 1024
def maxRecordListColumns : Nat := 63
def maxTables : Nat := 8
def maxTablePins : Nat := 7
def maxIntegerCompareMul : Nat := 1000000
def maxIntegerCompareAdd : Nat := 2 ^ 53 - 1
def maxStandardPackTableColumns : Nat := 32
def maxStandardPackTableRowKey : Nat := 8
def maxStandardPackPageIdBytes : Nat := 64

/-- The closed value model of candidate fields, facts and lookup keys. -/
inductive ValueType
  | integer
  | boolean
  | enumString (allowed : List String)
  | recordList (keyColumn : String) (columns : List (String × ValueType))

/-- The columns of a record list or of a table, by name. -/
abbrev Columns := List (String × ValueType)

def ValueType.isRecordList : ValueType → Bool
  | recordList _ _ => true
  | _ => false

def ValueType.isEnumString : ValueType → Bool
  | enumString _ => true
  | _ => false

inductive ScalarValue
  | integer (value : Int)
  | boolean (value : Bool)
  | string (value : String)
deriving DecidableEq

namespace ScalarValue

/-- The value has the declared type; an enumerated string is a member of its list. -/
def matchesType : ScalarValue → ValueType → Bool
  | integer _, .integer => true
  | boolean _, .boolean => true
  | string value, .enumString allowed => allowed.contains value
  | _, _ => false

/-- The derived order: integers before booleans before strings. -/
def cmp : ScalarValue → ScalarValue → Ordering
  | integer a, integer b => compare a b
  | integer _, _ => .lt
  | boolean _, integer _ => .gt
  | boolean a, boolean b => compare a b
  | boolean _, string _ => .lt
  | string a, string b => compare a b
  | string _, _ => .gt

end ScalarValue

structure OutcomeKeys where
  selected : String
  empty : String
  insufficient : String
  ambiguous : String
  unknown : String

def OutcomeKeys.each (keys : OutcomeKeys) : List String :=
  [keys.selected, keys.empty, keys.insufficient, keys.ambiguous, keys.unknown]

structure AppliesTo where
  candidateLayoutId : String
  outcomeKeys : OutcomeKeys

structure FieldDeclaration where
  name : String
  valueType : ValueType

/-- One instance fact the document may read, with its own freshness bound and confidence floor. -/
structure FactDeclaration where
  factKey : String
  valueType : ValueType
  maxAgeMs : Nat
  minimumConfidenceMilli : Nat

/-- Selects the rows whose enumerated `column` equals `equals`. -/
structure RowFilter where
  column : String
  equals : String
deriving DecidableEq

structure TablePinOtherwise where
  equals : Option ScalarValue
  equalsFact : Option String
deriving DecidableEq

/-- The row-key column `column` holds the literal `equals` or the fact `equalsFact`. -/
structure TablePin where
  column : String
  equals : Option ScalarValue
  equalsFact : Option String
  otherwise : Option TablePinOtherwise
deriving DecidableEq

structure TableDeclaration where
  tableId : String
  path : String
  rowKey : List String
  columns : Columns

/-- Where a term or a predicate reads its value from. -/
inductive ValueRef
  | field (field : String)
  | fact (factKey : String)
  | keyedFact (factKey keyField valueColumn : String) (rowFilter : Option RowFilter)
      (absent : ScalarValue)
  | table (tableId keyField : String) (pins : List TablePin) (valueColumn : String)
      (fallbackColumn : Option String) (absent : Option ScalarValue)
deriving DecidableEq

namespace ValueRef

def isKeyedFact : ValueRef → Bool
  | keyedFact .. => true
  | _ => false

def isTable : ValueRef → Bool
  | table .. => true
  | _ => false

/-- Two `table` reads of one row: the same table, key field and pins. -/
def sameTableRow : ValueRef → ValueRef → Bool
  | table leftTable leftKey leftPins _ _ _, table rightTable rightKey rightPins _ _ _ =>
    leftTable == rightTable && leftKey == rightKey && leftPins.length == rightPins.length &&
      leftPins.all fun pin => rightPins.contains pin
  | _, _ => false

def declaresAbsent : ValueRef → Bool
  | table _ _ _ _ _ (some _) => true
  | _ => false

def declaresFallback : ValueRef → Bool
  | table _ _ _ _ (some _) _ => true
  | _ => false

end ValueRef

inductive LookupKey
  | integer (value : Int)
  | boolean (value : Bool)
  | string (value : String)
deriving DecidableEq

structure LookupEntry where
  key : LookupKey
  valueMilli : Int

inductive Transform
  | identity
  | threshold (atLeast thenMilli otherwiseMilli : Int)
  | lookup (entries : List LookupEntry) (defaultMilli : Option Int)

inductive TermUnknownHandling
  | dropCandidate
  | abortEvaluation
  | substituteMilli (valueMilli : Int)
deriving DecidableEq

inductive GateUnknownHandling
  | dropCandidate
  | abortEvaluation
  | substituteVerdict (passes : Bool)
deriving DecidableEq

def GateUnknownHandling.substitutes : GateUnknownHandling → Bool
  | substituteVerdict _ => true
  | _ => false

def TermUnknownHandling.substitutes : TermUnknownHandling → Bool
  | substituteMilli _ => true
  | _ => false

inductive IntegerCompareOp
  | eq
  | ne
  | lt
  | le
  | gt
  | ge

def IntegerCompareOp.holds : IntegerCompareOp → Int → Int → Bool
  | eq, left, right => left = right
  | ne, left, right => left ≠ right
  | lt, left, right => left < right
  | le, left, right => left ≤ right
  | gt, left, right => left > right
  | ge, left, right => left ≥ right

inductive Predicate
  | integerAtLeast (value : ValueRef) (threshold : Int)
  | integerAtMost (value : ValueRef) (threshold : Int)
  | integerEquals (value : ValueRef) (expected : Int)
  | booleanEquals (value : ValueRef) (expected : Bool)
  | stringIn (value : ValueRef) (allowed : List String)
  | integerCompare (left : ValueRef) (op : IntegerCompareOp) (right : ValueRef)
      (mul : Option Nat) (add : Option Int)
  | all (of : List Predicate)
  | any (of : List Predicate)
  | not (of : Predicate)

mutual

/-- Every value the predicate reads, in document order. -/
def Predicate.values : Predicate → List ValueRef
  | .integerAtLeast value _ => [value]
  | .integerAtMost value _ => [value]
  | .integerEquals value _ => [value]
  | .booleanEquals value _ => [value]
  | .stringIn value _ => [value]
  | .integerCompare left _ right _ _ => [left, right]
  | .all of => Predicate.valuesOf of
  | .any of => Predicate.valuesOf of
  | .not of => of.values

def Predicate.valuesOf : List Predicate → List ValueRef
  | [] => []
  | inner :: rest => inner.values ++ Predicate.valuesOf rest

end

def Predicate.readsKeyedFact (predicate : Predicate) : Bool :=
  predicate.values.any ValueRef.isKeyedFact

def Predicate.readsTable (predicate : Predicate) : Bool := predicate.values.any ValueRef.isTable

structure HardGate where
  gateId : String
  predicate : Predicate
  onUnknown : GateUnknownHandling

/-- The contribution is `transform output * weightMilli / 1000`, truncated toward zero. -/
structure ScoringTerm where
  termId : String
  value : ValueRef
  transform : Transform
  weightMilli : Int
  onUnknown : TermUnknownHandling

inductive SelectionMode
  | topK
  | exactlyOne
  | noneAllowed

structure SelectionRequirement where
  mode : SelectionMode
  requiredCount : Nat

inductive SortDirection
  | highestFirst
  | lowestFirst
deriving DecidableEq

inductive TieBreakKey
  | value (value : ValueRef) (direction : SortDirection)
  | candidateId (direction : SortDirection)
deriving DecidableEq

def TieBreakKey.reads : TieBreakKey → Option ValueRef
  | value read _ => some read
  | candidateId _ => none

structure SelectionPolicy where
  schemaVersion : String
  policyId : String
  appliesTo : AppliesTo
  fields : List FieldDeclaration
  facts : List FactDeclaration
  tables : List TableDeclaration
  gates : List HardGate
  scoring : List ScoringTerm
  selection : SelectionRequirement
  tieBreak : List TieBreakKey

namespace SelectionPolicy

variable (policy : SelectionPolicy)

def usesTables : Bool := !policy.tables.isEmpty

/-- Every value the gates, the terms and the tie-break keys read, in document order. -/
def valueRefs : List ValueRef :=
  policy.gates.flatMap (fun gate => gate.predicate.values) ++
    policy.scoring.map (fun term => term.value) ++ policy.tieBreak.filterMap TieBreakKey.reads

/-- The candidate fields the document's `table` reads key their rows by. -/
def tableKeyFields : List String :=
  policy.valueRefs.filterMap fun value =>
    match value with
    | .table _ keyField _ _ _ _ => some keyField
    | _ => none

end SelectionPolicy

end Selection
