import ActingCommand.Selection.Schema

/-!
# The checks of a document

`validate` refuses a document with the first rule it breaks. What a passed document
guarantees to the evaluator is stated once, as `WellTyped` and `Validated`, and every
later proof reads it from there.
-/

namespace Selection

open List Except Std Predicate

/-- A rule of the document that ends the check. -/
abbrev refuseIf (condition : Prop) [Decidable condition] (code : SelectionErrorCode)
    (detail : String) : Except SelectionError Unit :=
  Call.failIf condition (SelectionError.mk code detail)

abbrev requireSome {α : Type} (value : Option α) (code : SelectionErrorCode) (detail : String) :
    Except SelectionError α :=
  Call.okOr value (SelectionError.mk code detail)

def checkId (value label : String) : Except SelectionError Unit := do
  refuseIf (value.isEmpty = true) .missingRequiredField s!"{label} is empty"
  refuseIf (value.utf8ByteSize > maxIdBytes)
    .limitExceeded s!"{label} exceeds {maxIdBytes} bytes"

def checkLimit (actual limit : Nat) (label : String) : Except SelectionError Unit :=
  refuseIf (actual > limit)
    .limitExceeded s!"{label} holds {actual} entries above the {limit} limit"

/-- A table id or a column name: 1 to 64 bytes, `^[a-z][a-z0-9_]*$`. -/
def standardPackTableId (id : String) : Bool :=
  decide (id.utf8ByteSize ≤ maxStandardPackPageIdBytes) &&
    match id.toList with
    | [] => false
    | first :: rest => first.isLower && rest.all fun c => c.isLower || c.isDigit || c == '_'

def checkEnumMembers (owner : String) : List String → List String → Except SelectionError Unit
  | [], _ => pure ()
  | member :: rest, seen => do
    checkId member "enum_string member"
    refuseIf (member ∈ seen)
      .duplicateId s!"`{owner}` repeats enum_string member `{member}`"
    checkEnumMembers owner rest (member :: seen)

mutual

def checkValueType : ValueType → String → Except SelectionError Unit
  | .integer, _ => pure ()
  | .boolean, _ => pure ()
  | .enumString allowed, owner => do
    checkLimit allowed.length maxEnumValues owner
    refuseIf (allowed.isEmpty = true)
      .missingRequiredField s!"`{owner}` declares an empty enum_string"
    checkEnumMembers owner allowed []
  | .recordList keyColumn columns, owner => do
    checkId keyColumn "key_column"
    checkLimit columns.length maxRecordListColumns owner
    checkColumns keyColumn columns owner

def checkColumns (keyColumn : String) : Columns → String → Except SelectionError Unit
  | [], _ => pure ()
  | (column, columnType) :: rest, owner => do
    checkId column "column name"
    refuseIf (column = keyColumn) .duplicateId s!"fact={owner} column={column} key_column"
    refuseIf (columnType.isRecordList = true)
      .typeMismatch s!"fact={owner} column={column} value_type=record_list"
    checkValueType columnType owner
    checkColumns keyColumn rest owner

end

/-! ## Declarations -/

def checkFields : List FieldDeclaration → ExtTreeMap String ValueType →
    Except SelectionError (ExtTreeMap String ValueType)
  | [], fields => pure fields
  | declaration :: rest, fields => do
    let name := declaration.name
    checkId name "field name"
    refuseIf (declaration.valueType.isRecordList = true)
      .typeMismatch s!"field={name} value_type=record_list"
    checkValueType declaration.valueType name
    refuseIf (name ∈ fields) .duplicateId s!"field `{name}` is declared twice"
    checkFields rest (fields.insert name declaration.valueType)

def checkFacts : List FactDeclaration → ExtTreeMap String ValueType →
    Except SelectionError (ExtTreeMap String ValueType)
  | [], facts => pure facts
  | declaration :: rest, facts => do
    let factKey := declaration.factKey
    checkId factKey "fact_key"
    checkValueType declaration.valueType factKey
    refuseIf (declaration.maxAgeMs = 0)
      .missingRequiredField s!"fact `{factKey}` declares a zero max_age_ms"
    refuseIf (declaration.minimumConfidenceMilli > 1000)
      .integerOutOfRange s!"fact `{factKey}` declares a confidence above one thousand milli"
    refuseIf (factKey ∈ facts) .duplicateId s!"fact `{factKey}` is declared twice"
    checkFacts rest (facts.insert factKey declaration.valueType)

def checkRowKey (tableId : String) : List String → List String → Except SelectionError Unit
  | [], _ => pure ()
  | column :: rest, seen => do
    refuseIf (standardPackTableId column = false)
      .invalidArguments s!"table={tableId} declaration=row_key"
    refuseIf (column ∈ seen) .duplicateId s!"table={tableId} declaration=row_key"
    checkRowKey tableId rest (column :: seen)

def checkTableColumns (tableId : String) (rowKey : List String) :
    Columns → Except SelectionError Unit
  | [] => pure ()
  | (column, valueType) :: rest => do
    refuseIf (standardPackTableId column = false)
      .invalidArguments s!"table={tableId} declaration=column"
    refuseIf (rowKey.head? = some column)
      .duplicateId s!"table={tableId} declaration=key_column"
    refuseIf (valueType.isRecordList = true)
      .typeMismatch s!"table={tableId} declaration=column"
    checkValueType valueType tableId
    checkTableColumns tableId rowKey rest

def checkTableDeclaration (declaration : TableDeclaration) : Except SelectionError Unit := do
  let tableId := declaration.tableId
  refuseIf (standardPackTableId tableId = false)
    .invalidArguments s!"table={tableId} declaration=table_id"
  refuseIf (declaration.path ≠ s!"tables/{tableId}.json")
    .invalidArguments s!"table={tableId} declaration=path"
  refuseIf (declaration.rowKey.isEmpty = true)
    .invalidArguments s!"table={tableId} declaration=row_key"
  checkLimit declaration.rowKey.length maxStandardPackTableRowKey "row_key"
  checkLimit declaration.columns.length maxStandardPackTableColumns "columns"
  checkRowKey tableId declaration.rowKey []
  checkTableColumns tableId declaration.rowKey declaration.columns
  refuseIf ((declaration.rowKey.drop 1).any
      (fun column => (declaration.columns.lookup column).isNone) = true)
    .danglingReference s!"table={tableId} declaration=row_key"

def checkTables : List TableDeclaration → ExtTreeMap String TableDeclaration →
    Except SelectionError (ExtTreeMap String TableDeclaration)
  | [], tables => pure tables
  | declaration :: rest, tables => do
    let tableId := declaration.tableId
    checkTableDeclaration declaration
    refuseIf (tableId ∈ tables) .duplicateId s!"table `{tableId}` is declared twice"
    checkTables rest (tables.insert tableId declaration)

/-! ## References -/

structure Scope where
  fields : ExtTreeMap String ValueType
  facts : ExtTreeMap String ValueType
  tables : ExtTreeMap String TableDeclaration

/-- Enumerated types need not list one set. -/
def sameScalarKind : ValueType → ValueType → Bool
  | .integer, .integer => true
  | .boolean, .boolean => true
  | .enumString _, .enumString _ => true
  | _, _ => false

namespace Scope

variable (scope : Scope)

def field (field owner : String) : Except SelectionError ValueType :=
  requireSome scope.fields[field]?
    .danglingReference s!"`{owner}` reads undeclared field `{field}`"

def fact (factKey owner : String) : Except SelectionError ValueType :=
  requireSome scope.facts[factKey]?
    .danglingReference s!"`{owner}` reads undeclared fact `{factKey}`"

def checkPinFact (factKey : String) (column : ValueType) (owner : String) :
    Except SelectionError Unit := do
  let declared ← scope.fact factKey owner
  let holds := match declared, column with
    | .integer, .integer => true
    | .boolean, .boolean => true
    | .enumString fact, .enumString allowed => fact.all fun member => allowed.contains member
    | _, _ => false
  refuseIf (holds = false)
    .typeMismatch s!"owner={owner} fact={factKey} table_read=pin_fact"

def checkPinValue (tableId owner : String) (pin : TablePin) (column : ValueType) :
    Except SelectionError Unit :=
  match pin.equals, pin.equalsFact, pin.otherwise with
  | some literal, none, none =>
    refuseIf (literal.matchesType column = false)
      .typeMismatch s!"owner={owner} table={tableId} table_read=pin_equals"
  | none, some factKey, otherwise => do
    scope.checkPinFact factKey column owner
    match otherwise with
    | none => pure ()
    | some ⟨some literal, none⟩ =>
      refuseIf (literal.matchesType column = false)
        .typeMismatch s!"owner={owner} table={tableId} table_read=otherwise"
    | some ⟨none, some factKey⟩ => scope.checkPinFact factKey column owner
    | some _ =>
      throw ⟨.invalidArguments, s!"owner={owner} table={tableId} table_read=otherwise"⟩
  | _, _, _ => throw ⟨.invalidArguments, s!"owner={owner} table={tableId} table_read=pin"⟩

def checkEachPin (table : TableDeclaration) (owner : String) (wanted : List String) :
    List TablePin → List String → Except SelectionError (List String)
  | [], seen => pure seen
  | pin :: rest, seen => do
    let tableId := table.tableId
    refuseIf (pin.column ∉ wanted)
      .typeMismatch s!"owner={owner} table={tableId} table_read=pin_column"
    refuseIf (pin.column ∈ seen)
      .duplicateId s!"owner={owner} table={tableId} table_read=pin_column"
    let column ← requireSome (table.columns.lookup pin.column)
      .danglingReference s!"owner={owner} table={tableId} table_read=pin_column"
    scope.checkPinValue tableId owner pin column
    checkEachPin table owner wanted rest (pin.column :: seen)

/-- A read's pins name exactly the row key's columns but the key, each once. -/
def checkPins (table : TableDeclaration) (pins : List TablePin) (owner : String) :
    Except SelectionError Unit := do
  let tableId := table.tableId
  checkLimit pins.length maxTablePins owner
  let wanted := (table.rowKey.drop 1).dedup
  let seen ← scope.checkEachPin table owner wanted pins []
  refuseIf (seen.length ≠ wanted.length)
    .typeMismatch s!"owner={owner} table={tableId} table_read=pins_incomplete"

def resolveKeyedFact (factKey keyField valueColumn : String) (rowFilter : Option RowFilter)
    (absent : ScalarValue) (owner : String) : Except SelectionError ValueType := do
  match ← scope.fact factKey owner with
  | .recordList _ columns =>
    let key ← scope.field keyField owner
    refuseIf (key.isEnumString = false)
      .typeMismatch s!"owner={owner} fact={factKey} keyed_fact=key_field"
    let column ← requireSome (columns.lookup valueColumn)
      .danglingReference s!"owner={owner} fact={factKey} keyed_fact=value_column"
    match rowFilter with
    | none => pure ()
    | some filter =>
      match columns.lookup filter.column with
      | none => throw ⟨.danglingReference, s!"owner={owner} fact={factKey} keyed_fact=where"⟩
      | some (.enumString allowed) =>
        refuseIf (filter.equals ∉ allowed)
          .typeMismatch s!"owner={owner} fact={factKey} keyed_fact=where"
      | some _ => throw ⟨.typeMismatch, s!"owner={owner} fact={factKey} keyed_fact=where"⟩
    refuseIf (absent.matchesType column = false)
      .typeMismatch s!"owner={owner} fact={factKey} keyed_fact=absent"
    pure column
  | _ => throw ⟨.typeMismatch, s!"owner={owner} fact={factKey} keyed_fact=fact_key"⟩

def resolveTable (tableId keyField : String) (pins : List TablePin) (valueColumn : String)
    (fallbackColumn : Option String) (absent : Option ScalarValue) (owner : String) :
    Except SelectionError ValueType := do
  let table ← requireSome scope.tables[tableId]?
    .danglingReference s!"owner={owner} table={tableId} table_read=table_id"
  let key ← scope.field keyField owner
  refuseIf (key.isEnumString = false)
    .typeMismatch s!"owner={owner} table={tableId} table_read=key_field"
  scope.checkPins table pins owner
  let column ← requireSome (table.columns.lookup valueColumn)
    .danglingReference s!"owner={owner} table={tableId} table_read=value_column"
  match fallbackColumn with
  | none => pure ()
  | some fallback =>
    let other ← requireSome (table.columns.lookup fallback)
      .danglingReference s!"owner={owner} table={tableId} table_read=fallback_column"
    refuseIf (fallback = valueColumn ∨ sameScalarKind other column = false)
      .typeMismatch s!"owner={owner} table={tableId} table_read=fallback_column"
  refuseIf (absent.any (fun value => !value.matchesType column) = true)
    .typeMismatch s!"owner={owner} table={tableId} table_read=absent"
  pure column

def resolve (reference : ValueRef) (owner : String) : Except SelectionError ValueType :=
  match reference with
  | .field field => scope.field field owner
  | .fact factKey => do
    let declared ← scope.fact factKey owner
    refuseIf (declared.isRecordList = true)
      .typeMismatch s!"owner={owner} fact={factKey} value_type=record_list"
    pure declared
  | .keyedFact factKey keyField valueColumn rowFilter absent =>
    scope.resolveKeyedFact factKey keyField valueColumn rowFilter absent owner
  | .table tableId keyField pins valueColumn fallbackColumn absent =>
    scope.resolveTable tableId keyField pins valueColumn fallbackColumn absent owner

end Scope

/-! ## Gates, terms and tie-break keys -/

/-- The three kinds a predicate may expect of a value. -/
inductive ExpectedKind
  | integer
  | boolean
  | string

namespace ExpectedKind

def name : ExpectedKind → String
  | integer => "integer"
  | boolean => "boolean"
  | string => "string"

def accepts : ExpectedKind → ValueType → Bool
  | integer, .integer => true
  | boolean, .boolean => true
  | string, .enumString _ => true
  | _, _ => false

end ExpectedKind

/-- The checks of one predicate node, with the number of nodes met so far. -/
def enterPredicate (owner : String) (depth nodes : Nat) : Except SelectionError Nat := do
  refuseIf (depth > maxPredicateDepth) .limitExceeded
    s!"gate `{owner}` nests deeper than {maxPredicateDepth}"
  refuseIf (nodes + 1 > maxPredicateNodes) .limitExceeded
    s!"gate `{owner}` holds more than {maxPredicateNodes} nodes"
  pure (nodes + 1)

def expectKind (scope : Scope) (owner : String) (value : ValueRef) (wanted : ExpectedKind) :
    Except SelectionError Unit := do
  let valueType ← scope.resolve value owner
  let kind := wanted.name
  refuseIf (wanted.accepts valueType = false) .typeMismatch
    s!"gate `{owner}` compares a non-{kind} value"

def checkListedMembers (owner : String) (declared : List String) :
    List String → Except SelectionError Unit
  | [] => pure ()
  | member :: rest => do
    refuseIf (member ∉ declared) .typeMismatch
      s!"gate `{owner}` lists `{member}` outside the value type"
    checkListedMembers owner declared rest

mutual

def checkPredicate (scope : Scope) (owner : String) :
    Predicate → Nat → Nat → Except SelectionError Nat
  | .integerAtLeast value _, depth, nodes => do
    let nodes ← enterPredicate owner depth nodes
    expectKind scope owner value .integer
    pure nodes
  | .integerAtMost value _, depth, nodes => do
    let nodes ← enterPredicate owner depth nodes
    expectKind scope owner value .integer
    pure nodes
  | .integerEquals value _, depth, nodes => do
    let nodes ← enterPredicate owner depth nodes
    expectKind scope owner value .integer
    pure nodes
  | .booleanEquals value _, depth, nodes => do
    let nodes ← enterPredicate owner depth nodes
    expectKind scope owner value .boolean
    pure nodes
  | .integerCompare left _ right mul add, depth, nodes => do
    let nodes ← enterPredicate owner depth nodes
    expectKind scope owner left .integer
    expectKind scope owner right .integer
    refuseIf (mul.any (fun mul => !(1 ≤ mul && mul ≤ maxIntegerCompareMul)) = true)
      .integerOutOfRange s!"gate={owner} integer_compare=mul"
    refuseIf (add.any (fun add => maxIntegerCompareAdd < add.natAbs) = true)
      .integerOutOfRange s!"gate={owner} integer_compare=add"
    pure nodes
  | .stringIn value allowed, depth, nodes => do
    let nodes ← enterPredicate owner depth nodes
    expectKind scope owner value .string
    checkLimit allowed.length maxEnumValues owner
    match ← scope.resolve value owner with
    | .enumString declared => checkListedMembers owner declared allowed
    | _ => pure ()
    pure nodes
  | .all of, depth, nodes => do
    let nodes ← enterPredicate owner depth nodes
    refuseIf (of.isEmpty = true) .missingRequiredField
      s!"gate `{owner}` holds an empty predicate list"
    checkPredicates scope owner of (depth + 1) nodes
  | .any of, depth, nodes => do
    let nodes ← enterPredicate owner depth nodes
    refuseIf (of.isEmpty = true) .missingRequiredField
      s!"gate `{owner}` holds an empty predicate list"
    checkPredicates scope owner of (depth + 1) nodes
  | .not of, depth, nodes => do
    let nodes ← enterPredicate owner depth nodes
    checkPredicate scope owner of (depth + 1) nodes

def checkPredicates (scope : Scope) (owner : String) :
    List Predicate → Nat → Nat → Except SelectionError Nat
  | [], _, nodes => pure nodes
  | inner :: rest, depth, nodes => do
    let nodes ← checkPredicate scope owner inner depth nodes
    checkPredicates scope owner rest depth nodes

end

def LookupKey.matchesType : LookupKey → ValueType → Bool
  | integer _, .integer => true
  | boolean _, .boolean => true
  | string member, .enumString allowed => allowed.contains member
  | _, _ => false

def checkLookupEntries (valueType : ValueType) (owner : String) :
    List LookupEntry → List LookupKey → Except SelectionError Unit
  | [], _ => pure ()
  | entry :: rest, seen => do
    refuseIf (entry.key ∈ seen) .duplicateId s!"term `{owner}` repeats a lookup key"
    refuseIf (entry.key.matchesType valueType = false) .typeMismatch
      s!"term `{owner}` declares a lookup key outside the value type"
    checkLookupEntries valueType owner rest (entry.key :: seen)

def ValueType.isInteger : ValueType → Bool
  | integer => true
  | _ => false

def checkTransform (transform : Transform) (valueType : ValueType) (owner : String) :
    Except SelectionError Unit :=
  match transform with
  | .lookup entries _ => do
    checkLimit entries.length maxLookupEntries owner
    refuseIf (entries.isEmpty = true) .missingRequiredField
      s!"term `{owner}` declares an empty lookup"
    checkLookupEntries valueType owner entries []
  | _ =>
    refuseIf (valueType.isInteger = false) .typeMismatch
      s!"term `{owner}` needs a lookup for a non-integer value"

/-- A pinned `table` read declares `absent` itself, or follows a gate of `earlier` that reads the
same row with one. -/
def checkClassGate (value : ValueRef) (earlier : List HardGate) (owner : String) :
    Except SelectionError Unit :=
  match value with
  | .table _ _ pins _ _ absent =>
    if pins.isEmpty || absent.isSome then pure ()
    else
      refuseIf ((earlier.any fun gate =>
          gate.predicate.values.any fun read => read.sameTableRow value && read.declaresAbsent) =
          false)
        .typeMismatch s!"owner={owner} table_read=class_gate"
  | _ => pure ()

def checkGateReads (earlier : List HardGate) (gateId : String) :
    List ValueRef → Except SelectionError Unit
  | [] => pure ()
  | value :: rest => do
    refuseIf (value.declaresFallback = true) .typeMismatch
      s!"gate={gateId} table_read=fallback_column"
    checkClassGate value earlier gateId
    checkGateReads earlier gateId rest

def checkGates (scope : Scope) : List HardGate → List HardGate → Except SelectionError Unit
  | _, [] => pure ()
  | earlier, gate :: rest => do
    let gateId := gate.gateId
    checkId gateId "gate_id"
    refuseIf (gateId ∈ earlier.map (·.gateId)) .duplicateId
      s!"gate `{gateId}` is declared twice"
    let _ ← checkPredicate scope gateId gate.predicate 1 0
    refuseIf (gate.predicate.readsKeyedFact = true ∧ gate.onUnknown ≠ .abortEvaluation)
      .typeMismatch s!"gate={gateId} reads=keyed_fact on_unknown"
    refuseIf (gate.predicate.readsTable = true ∧ gate.onUnknown.substitutes = true)
      .typeMismatch s!"gate={gateId} reads=table on_unknown"
    checkGateReads earlier gateId gate.predicate.values
    checkGates scope (earlier ++ [gate]) rest

def checkScoring (scope : Scope) (gates : List HardGate) :
    List ScoringTerm → List String → Except SelectionError Unit
  | [], _ => pure ()
  | term :: rest, seen => do
    let termId := term.termId
    checkId termId "term_id"
    refuseIf (termId ∈ seen) .duplicateId s!"term `{termId}` is declared twice"
    let valueType ← scope.resolve term.value termId
    checkTransform term.transform valueType termId
    refuseIf (term.value.isKeyedFact = true ∧ term.onUnknown ≠ .abortEvaluation)
      .typeMismatch s!"term={termId} reads=keyed_fact on_unknown"
    refuseIf (term.value.isTable = true ∧ term.onUnknown.substitutes = true)
      .typeMismatch s!"term={termId} reads=table on_unknown"
    refuseIf (term.value.declaresAbsent = true) .typeMismatch
      s!"term={termId} table_read=absent"
    checkClassGate term.value gates termId
    checkScoring scope gates rest (termId :: seen)

variable (policy : SelectionPolicy)

/-- A tie-break may read a table only where a gate or a term reads the same row. -/
def checkTableTieBreak (value : ValueRef) : Except SelectionError Unit := do
  refuseIf (value.declaresAbsent = true ∨ value.declaresFallback = true) .typeMismatch
    "tie_break table_read=absent_or_fallback"
  checkClassGate value policy.gates "tie_break"
  refuseIf
    (((policy.gates.any fun gate =>
        gate.predicate.values.any fun read => read.sameTableRow value) ||
      policy.scoring.any fun term => term.value.sameTableRow value) = false)
    .typeMismatch "tie_break table_read=row_unread"

def checkTieBreak (policy : SelectionPolicy) (scope : Scope) :
    List TieBreakKey → Except SelectionError Unit
  | [] => pure ()
  | .candidateId _ :: rest => checkTieBreak policy scope rest
  | .value value _ :: rest => do
    if value.isTable then checkTableTieBreak policy value
    let valueType ← scope.resolve value "tie_break"
    refuseIf (valueType.isEnumString = true) .typeMismatch
      "a tie-break key cannot order an enum_string value"
    checkTieBreak policy scope rest

def checkRequirement (selection : SelectionRequirement) : Except SelectionError Unit := do
  match selection.mode with
  | .topK =>
    refuseIf (selection.requiredCount = 0) .missingRequiredField
      "top_k requires a required_count of at least one"
  | .exactlyOne =>
    refuseIf (selection.requiredCount ≠ 1) .typeMismatch
      "exactly_one requires a required_count of one"
  | .noneAllowed => pure ()
  refuseIf (selection.requiredCount > maxCandidates) .limitExceeded
    s!"required_count exceeds the {maxCandidates} candidate limit"

def checkOutcomeKeys : List String → Except SelectionError Unit
  | [] => pure ()
  | key :: rest => do
    checkId key "outcome_key"
    checkOutcomeKeys rest

def checkHeader : Except SelectionError Unit := do
  let version := policy.schemaVersion
  refuseIf (version ≠ selectionPolicySchemaVersion) .unsupportedSchemaVersion
    s!"`{version}` is not `{selectionPolicySchemaVersion}`"
  checkId policy.policyId "policy_id"
  checkId policy.appliesTo.candidateLayoutId "candidate_layout_id"
  checkOutcomeKeys policy.appliesTo.outcomeKeys.each
  checkLimit policy.fields.length maxFields "fields"
  checkLimit policy.facts.length maxFacts "facts"
  checkLimit policy.gates.length maxGates "gates"
  checkLimit policy.scoring.length maxScoringTerms "scoring"
  checkLimit policy.tieBreak.length maxTieBreakKeys "tie_break"

def SelectionPolicy.validate : Except SelectionError Unit := do
  checkHeader policy
  let fields ← checkFields policy.fields ∅
  let facts ← checkFacts policy.facts ∅
  checkLimit policy.tables.length maxTables "tables"
  let tables ← checkTables policy.tables ∅
  let scope : Scope := ⟨fields, facts, tables⟩
  checkGates scope [] policy.gates
  checkScoring scope policy.gates policy.scoring []
  checkTieBreak policy scope policy.tieBreak
  checkRequirement policy.selection

/-! ## What a passed document guarantees -/

/-- The field a reference reads or keys its row by is declared, a key as an enumerated string. -/
def SelectionPolicy.Declares : ValueRef → Prop
  | .field field => ∃ declaration ∈ policy.fields, declaration.name = field
  | .fact _ => True
  | .keyedFact _ keyField _ _ _ | .table _ keyField _ _ _ _ =>
    ∃ declaration ∈ policy.fields,
      declaration.name = keyField ∧ declaration.valueType.isEnumString = true

structure SelectionPolicy.Validated (policy : SelectionPolicy) : Prop where
  fieldNames : (policy.fields.map (·.name)).Nodup
  gateReads : ∀ gate ∈ policy.gates, ∀ value ∈ gate.predicate.values, policy.Declares value
  termReads : ∀ term ∈ policy.scoring, policy.Declares term.value
  /-- Missing table data never stands in for a verdict. -/
  tableGates : ∀ gate ∈ policy.gates,
    gate.predicate.readsTable = true → gate.onUnknown.substitutes = false
  lookups : ∀ term ∈ policy.scoring, ∀ entries defaultMilli,
    term.transform = .lookup entries defaultMilli → (entries.map (·.key)).Nodup

/-- The map `after` is `before` with the members under their names, and no two share one. -/
structure Inserted {α β : Type} (name : α → String) (value : α → β) (members : List α)
    (before after : ExtTreeMap String β) : Prop where
  nodup : (members.map name).Nodup
  fresh : ∀ member ∈ members, name member ∉ before
  origin : ∀ key found, after[key]? = some found → before[key]? = some found ∨
    ∃ member ∈ members, name member = key ∧ value member = found

lemma Inserted.nil {α β : Type} {name} {value : α → β}
    (map : ExtTreeMap String β) : Inserted name value [] map map :=
  ⟨nodup_nil, by simp, fun _ _ known => Or.inl known⟩

lemma Inserted.cons {α β : Type} {name} {value : α → β} {first : α} {rest : List α}
    {before after} (new : name first ∉ before)
    (later : Inserted name value rest (before.insert (name first) (value first)) after) :
    Inserted name value (first :: rest) before after := by
  obtain ⟨nodup, fresh, origin⟩ := later
  simp only [ExtTreeMap.mem_insert, not_or] at fresh
  refine ⟨?_, ?_, ?_⟩
  · rw [map_cons, nodup_cons]
    refine ⟨fun repeated => ?_, nodup⟩
    obtain ⟨other, listed, same⟩ := List.mem_map.mp repeated
    exact (fresh other listed).1 (by rw [same]; exact ReflCmp.compare_self)
  · rintro other (_ | ⟨_, listed⟩)
    · exact new
    · exact (fresh other listed).2
  intro key found known
  rcases origin key found known with earlier | ⟨other, listed, named⟩
  · rw [ExtTreeMap.getElem?_insert] at earlier
    split at earlier
    · rename_i same
      have equal := LawfulEqCmp.eq_of_compare same
      exact Or.inr ⟨first, mem_cons_self, equal, Option.some.inj earlier⟩
    · exact Or.inl earlier
  · exact Or.inr ⟨other, mem_cons_of_mem _ listed, named⟩

lemma checkFields_ok {declarations before fields}
    (passed : checkFields declarations before = .ok fields) :
    Inserted (·.name) (·.valueType) declarations before fields := by
  induction declarations generalizing before with
  | nil =>
    cases passed
    exact .nil _
  | cons declaration rest ih =>
    simp only [checkFields, bind_ok_iff, failIf_ok_iff] at passed
    obtain ⟨-, -, -, -, -, -, -, new, passed⟩ := passed
    exact (ih passed).cons new

/-- The reference's field, as the scope declares it. -/
def Scope.Declares (scope : Scope) : ValueRef → Prop
  | .field field => ∃ valueType, scope.fields[field]? = some valueType
  | .fact _ => True
  | .keyedFact _ keyField _ _ _ | .table _ keyField _ _ _ _ =>
    ∃ valueType, scope.fields[keyField]? = some valueType ∧ valueType.isEnumString = true

lemma Scope.resolve_declares {scope : Scope} {reference} {owner : String} {valueType}
    (resolved : scope.resolve reference owner = .ok valueType) : scope.Declares reference := by
  cases reference with
  | field field => exact ⟨valueType, okOr_ok_iff.mp resolved⟩
  | fact factKey => exact trivial
  | keyedFact factKey keyField valueColumn rowFilter absent =>
    simp only [Scope.resolve, Scope.resolveKeyedFact, bind_ok_iff] at resolved
    obtain ⟨declared, -, resolved⟩ := resolved
    cases declared with
    | recordList keyColumn columns =>
      simp only [bind_ok_iff, failIf_ok_iff] at resolved
      obtain ⟨key, found, -, enumerated, -⟩ := resolved
      exact ⟨key, okOr_ok_iff.mp found, by simpa using enumerated⟩
    | integer | boolean | enumString _ => cases resolved
  | table tableId keyField pins valueColumn fallbackColumn absent =>
    simp only [Scope.resolve, Scope.resolveTable, bind_ok_iff, failIf_ok_iff]
      at resolved
    obtain ⟨table, -, key, found, -, enumerated, -⟩ := resolved
    exact ⟨key, okOr_ok_iff.mp found, by simpa using enumerated⟩

/-- Some rule of the document has the type of what the reference reads. -/
def Scope.Resolves (scope : Scope) (reference : ValueRef) : Prop :=
  ∃ owner valueType, scope.resolve reference owner = .ok valueType

lemma Scope.Resolves.declares {scope : Scope} {reference}
    (resolves : scope.Resolves reference) : scope.Declares reference := by
  obtain ⟨_, _, resolved⟩ := resolves
  exact Scope.resolve_declares resolved

lemma expectKind_resolves {scope : Scope} {owner : String} {value wanted}
    (passed : expectKind scope owner value wanted = .ok ()) : scope.Resolves value := by
  simp only [expectKind, bind_ok_iff] at passed
  obtain ⟨valueType, resolved, -⟩ := passed
  exact ⟨owner, valueType, resolved⟩

lemma Predicate.mem_valuesOf {of : List Predicate} {value} :
    value ∈ valuesOf of ↔ ∃ inner ∈ of, value ∈ inner.values := by
  induction of with
  | nil => simp [valuesOf]
  | cons inner rest ih => simp [valuesOf, ih]

section

variable {scope : Scope} {owner : String}

lemma checkPredicates_each {of : List Predicate} {depth nodes met : Nat}
    (passed : checkPredicates scope owner of depth nodes = .ok met) :
    ∀ inner ∈ of, ∃ before after, checkPredicate scope owner inner depth before = .ok after := by
  induction of generalizing nodes with
  | nil => simp
  | cons first rest ih =>
    simp only [checkPredicates, bind_ok_iff] at passed
    obtain ⟨after, own, others⟩ := passed
    exact forall_mem_cons.mpr ⟨⟨nodes, after, own⟩, ih others⟩

lemma checkPredicate_resolves : ∀ (predicate : Predicate) {depth nodes met : Nat},
    checkPredicate scope owner predicate depth nodes = .ok met →
      ∀ value ∈ predicate.values, scope.Resolves value
  | .integerAtLeast _ _, _, _, _, passed
  | .integerAtMost _ _, _, _, _, passed
  | .integerEquals _ _, _, _, _, passed
  | .booleanEquals _ _, _, _, _, passed
  | .stringIn _ _, _, _, _, passed => by
    simp only [checkPredicate, bind_ok_iff] at passed
    obtain ⟨_, -, _, expected, -⟩ := passed
    simpa [values] using expectKind_resolves expected
  | .integerCompare _ _ _ _ _, _, _, _, passed => by
    simp only [checkPredicate, bind_ok_iff] at passed
    obtain ⟨_, -, _, first, _, second, -⟩ := passed
    simpa [values] using ⟨expectKind_resolves first, expectKind_resolves second⟩
  | .all of, _, _, _, passed
  | .any of, _, _, _, passed => by
    simp only [checkPredicate, bind_ok_iff] at passed
    obtain ⟨_, -, _, -, members⟩ := passed
    simp only [values, mem_valuesOf]
    rintro value ⟨inner, inside, read⟩
    obtain ⟨_, _, own⟩ := checkPredicates_each members inner inside
    exact checkPredicate_resolves inner own value read
  | .not of, _, _, _, passed => by
    simp only [checkPredicate, bind_ok_iff] at passed
    obtain ⟨_, -, negated⟩ := passed
    simpa only [values] using checkPredicate_resolves of negated

end

lemma checkGates_ok {scope : Scope} {earlier gates}
    (passed : checkGates scope earlier gates = .ok ()) :
    ∀ gate ∈ gates, (∀ value ∈ gate.predicate.values, scope.Resolves value) ∧
      (gate.predicate.readsTable = true → gate.onUnknown.substitutes = false) := by
  induction gates generalizing earlier with
  | nil => simp
  | cons gate rest ih =>
    simp only [checkGates, bind_ok_iff, failIf_ok_iff] at passed
    obtain ⟨_, -, _, -, nodes, checked, _, -, _, apart, _, -, passed⟩ := passed
    rintro other (_ | ⟨_, listed⟩)
    · exact ⟨checkPredicate_resolves _ checked, by simpa using apart⟩
    · exact ih passed other listed

lemma checkLookupEntries_nodup {valueType} {owner : String} {entries seen}
    (passed : checkLookupEntries valueType owner entries seen = .ok ()) :
    (entries.map (·.key)).Nodup ∧ ∀ entry ∈ entries, entry.key ∉ seen := by
  induction entries generalizing seen with
  | nil => simp
  | cons entry rest ih =>
    simp only [checkLookupEntries, bind_ok_iff, failIf_ok_iff] at passed
    obtain ⟨-, new, -, -, passed⟩ := passed
    obtain ⟨nodup, fresh⟩ := ih passed
    simp only [mem_cons, not_or] at fresh
    refine ⟨?_, ?_⟩
    · rw [map_cons, nodup_cons]
      refine ⟨fun repeated => ?_, nodup⟩
      obtain ⟨other, listed, same⟩ := List.mem_map.mp repeated
      exact (fresh other listed).1 same
    · rintro other (_ | ⟨_, listed⟩)
      · exact new
      · exact (fresh other listed).2

lemma checkScoring_ok {scope : Scope} {gates terms seen}
    (passed : checkScoring scope gates terms seen = .ok ()) :
    ∀ term ∈ terms, scope.Resolves term.value ∧ ∀ entries defaultMilli,
      term.transform = .lookup entries defaultMilli → (entries.map (·.key)).Nodup := by
  induction terms generalizing seen with
  | nil => simp
  | cons term rest ih =>
    simp only [checkScoring, bind_ok_iff] at passed
    obtain ⟨_, -, _, -, valueType, resolved, _, transformed, _, -, _, -, _, -, _, -, passed⟩ :=
      passed
    rintro other (_ | ⟨_, listed⟩)
    · refine ⟨⟨_, valueType, resolved⟩, fun entries defaultMilli looked => ?_⟩
      rw [looked] at transformed
      simp only [checkTransform, bind_ok_iff] at transformed
      obtain ⟨_, -, _, -, listed⟩ := transformed
      exact (checkLookupEntries_nodup listed).1
    · exact ih passed other listed

lemma SelectionPolicy.validate_ok {policy : SelectionPolicy} (passed : policy.validate = .ok ()) :
    policy.Validated := by
  simp only [SelectionPolicy.validate, bind_ok_iff] at passed
  obtain ⟨_, -, fields, named, facts, -, _, -, tables, -, _, gates, _, terms, -⟩ := passed
  obtain ⟨nodup, -, origin⟩ := checkFields_ok named
  have gatesOk := checkGates_ok gates
  have termsOk := checkScoring_ok terms
  have declared : ∀ value, (Scope.mk fields facts tables).Declares value →
      policy.Declares value := by
    -- A declared name of the scope was inserted by one of the document's declarations.
    have listed : ∀ name valueType, fields[name]? = some valueType →
        ∃ declaration ∈ policy.fields, declaration.name = name ∧
          declaration.valueType = valueType := by
      intro name valueType known
      rcases origin name valueType known with empty | found
      · simp at empty
      · exact found
    intro value known
    cases value with
    | field field =>
      obtain ⟨valueType, known⟩ := known
      obtain ⟨declaration, inside, same, -⟩ := listed _ _ known
      exact ⟨declaration, inside, same⟩
    | fact factKey => exact trivial
    | keyedFact factKey keyField valueColumn rowFilter absent
    | table tableId keyField pins valueColumn fallbackColumn absent =>
      obtain ⟨valueType, known, enumerated⟩ := known
      obtain ⟨declaration, inside, same, rfl⟩ := listed _ _ known
      exact ⟨declaration, inside, same, enumerated⟩
  exact
    { fieldNames := nodup
      gateReads := fun gate inside value read =>
        declared value ((gatesOk gate inside).1 value read).declares
      termReads := fun term inside => declared term.value (termsOk term inside).1.declares
      tableGates := fun gate inside => (gatesOk gate inside).2
      lookups := fun term inside => (termsOk term inside).2 }

/-! ## What a passed document guarantees to a table read -/

lemma checkTieBreak_ok {policy} {scope : Scope} {keys}
    (passed : checkTieBreak policy scope keys = .ok ()) :
    ∀ value ∈ keys.filterMap TieBreakKey.reads, scope.Resolves value := by
  induction keys with
  | nil => simp
  | cons key rest ih =>
    cases key with
    | candidateId direction => simpa [TieBreakKey.reads] using ih passed
    | value value direction =>
      have checked : ∃ valueType, scope.resolve value "tie_break" = .ok valueType ∧
          checkTieBreak policy scope rest = .ok () := by
        simp only [checkTieBreak] at passed
        by_cases reads : value.isTable = true
        · simp only [reads, if_true, bind_ok_iff] at passed
          obtain ⟨_, -, valueType, resolved, _, -, later⟩ := passed
          exact ⟨valueType, resolved, later⟩
        simp only [if_neg reads, bind_ok_iff] at passed
        obtain ⟨valueType, resolved, _, -, later⟩ := passed
        exact ⟨valueType, resolved, later⟩
      obtain ⟨valueType, resolved, later⟩ := checked
      exact forall_mem_cons.mpr ⟨⟨_, valueType, resolved⟩, ih later⟩

/-- Every reference of the document resolves in the scope its rules are checked in. -/
theorem valueRefs_resolve {policy} {scope : Scope}
    (gates : checkGates scope [] policy.gates = .ok ())
    (terms : checkScoring scope policy.gates policy.scoring [] = .ok ())
    (keys : checkTieBreak policy scope policy.tieBreak = .ok ()) :
    ∀ value ∈ policy.valueRefs, scope.Resolves value := by
  intro value listed
  rcases mem_append.mp listed with ruled | tied
  · rcases mem_append.mp ruled with gated | scored
    · obtain ⟨gate, inside, read⟩ := mem_flatMap.mp gated
      exact (checkGates_ok gates gate inside).1 value read
    · obtain ⟨term, inside, rfl⟩ := List.mem_map.mp scored
      exact (checkScoring_ok terms term inside).1
  · exact checkTieBreak_ok keys value tied

lemma checkTables_ok {declarations before tables}
    (passed : checkTables declarations before = .ok tables) :
    Inserted (·.tableId) id declarations before tables := by
  induction declarations generalizing before with
  | nil =>
    cases passed
    exact .nil _
  | cons declaration rest ih =>
    simp only [checkTables, bind_ok_iff, failIf_ok_iff] at passed
    obtain ⟨_, -, _, new, passed⟩ := passed
    exact (ih passed).cons new

end Selection
