import ActingCommand.Machine
import ActingCommand.Selection.Tables

/-!
# What a rule reads

Every declared record list is read whole before any candidate; a reference is then a
known value or the reason it is unknown, and the reads of one gate or term note what
its verdict must report.
-/

namespace Selection

open Machine Std

/-! ## Record lists -/

/-- The rows of one list under one filter, by the row's key column. -/
abbrev RowIndex := ExtTreeMap String RecordRow

/-- The rows each `keyed_fact` reference reads, by its record list and its filter. -/
abbrev ListIndex := List ((String × Option RowFilter) × RowIndex)

structure ListUnreadable where
  reason : UnknownReason
  detail : String

/-- Every declared record list, read whole, in document order. -/
def readDeclaredLists (facts : SelectionFactSnapshot) (nowUnixMs : Nat) :
    List FactDeclaration → ExtTreeMap String (String × List RecordRow) →
      Except ListUnreadable (ExtTreeMap String (String × List RecordRow))
  | [], lists => pure lists
  | declaration :: rest, lists =>
    let factKey := declaration.factKey
    match declaration.valueType with
    | .recordList keyColumn _ =>
      match facts.resolveList declaration nowUnixMs with
      | .error reason => throw ⟨reason, s!"fact_key={factKey}"⟩
      | .ok rows => readDeclaredLists facts nowUnixMs rest (lists.insert factKey (keyColumn, rows))
    | _ => readDeclaredLists facts nowUnixMs rest lists

def RowFilter.selects (filter : RowFilter) (row : RecordRow) : Bool :=
  row[filter.column]? = some (.string filter.equals)

def indexRows (factKey keyColumn : String) (rowFilter : Option RowFilter) :
    List RecordRow → RowIndex → Except ListUnreadable RowIndex
  | [], keyed => pure keyed
  | row :: rest, keyed =>
    if rowFilter.any fun filter => !filter.selects row then
      indexRows factKey keyColumn rowFilter rest keyed
    else
      match row[keyColumn]? with
      | some (.string key) =>
        if key ∈ keyed then
          throw ⟨.typeMismatch, s!"fact_key={factKey} duplicated_key={key}"⟩
        else indexRows factKey keyColumn rowFilter rest (keyed.insert key row)
      | _ => throw ⟨.typeMismatch, s!"fact_key={factKey}"⟩

def indexLists (lists : ExtTreeMap String (String × List RecordRow)) :
    List ValueRef → ListIndex → Except ListUnreadable ListIndex
  | [], index => pure index
  | .keyedFact factKey _ _ rowFilter _ :: rest, index =>
    if (index.lookup (factKey, rowFilter)).isSome then indexLists lists rest index
    else
      match lists[factKey]? with
      | none => throw ⟨.typeMismatch, s!"fact_key={factKey}"⟩
      | some (keyColumn, rows) => do
        let keyed ← indexRows factKey keyColumn rowFilter rows ∅
        indexLists lists rest (((factKey, rowFilter), keyed) :: index)
  | _ :: rest, index => indexLists lists rest index

/-- The check of every declared list before any candidate is assessed. -/
def readLists (policy : SelectionPolicy) (facts : SelectionFactSnapshot) (nowUnixMs : Nat) :
    Except ListUnreadable ListIndex := do
  let lists ← readDeclaredLists facts nowUnixMs policy.facts ∅
  indexLists lists policy.valueRefs []

/-! ## Reading values -/

structure Resolver where
  fields : ExtTreeMap String ValueType
  facts : ExtTreeMap String FactDeclaration
  snapshot : SelectionFactSnapshot
  lists : ListIndex
  tables : SelectionTables
  nowUnixMs : Nat

namespace Resolver

def new (policy : SelectionPolicy) (snapshot : SelectionFactSnapshot) (lists : ListIndex)
    (tables : SelectionTables) (nowUnixMs : Nat) : Resolver where
  fields := ExtTreeMap.ofList (policy.fields.map fun d => (d.name, d.valueType))
  facts := ExtTreeMap.ofList (policy.facts.map fun d => (d.factKey, d))
  snapshot := snapshot
  lists := lists
  tables := tables
  nowUnixMs := nowUnixMs

variable (resolver : Resolver)

def readFact (factKey : String) : Except UnknownReason ScalarValue :=
  match resolver.facts[factKey]? with
  | none => .error .factMissing
  | some declared => resolver.snapshot.resolve declared resolver.nowUnixMs

def readField (field : String) (candidate : Candidate) : Except UnknownReason ScalarValue :=
  match resolver.fields[field]?, candidate.fields[field]? with
  | some declared, some value =>
    if value.matchesType declared then .ok value else .error .typeMismatch
  | _, _ => .error .fieldMissing

def readKey (keyField : String) (candidate : Candidate) : Except UnknownReason String :=
  match resolver.readField keyField candidate with
  | .error reason => .error reason
  | .ok (.string key) => .ok key
  | .ok _ => .error .typeMismatch

variable (reference : ValueRef) (candidate : Candidate)

/-- An error is a key the candidate does not carry, which is no fact about the table. -/
def tableReading : Except UnknownReason TableReading :=
  match reference with
  | .table _ keyField _ _ _ _ =>
    (resolver.readKey keyField candidate).map fun key =>
      resolver.tables.read reference key resolver.readFact
  | _ => .error .typeMismatch

/-- The value a list's rows give for a key: no row is a known value. -/
def rowValue (rows : RowIndex) (key valueColumn : String) (absent : ScalarValue) :
    Except UnknownReason ScalarValue :=
  match rows[key]? with
  | none => .ok absent
  | some row => Call.okOr row[valueColumn]? UnknownReason.typeMismatch

def read : Except UnknownReason ScalarValue :=
  match reference with
  | .field field => resolver.readField field candidate
  | .fact factKey => resolver.readFact factKey
  | .table .. => do
    let reading ← resolver.tableReading reference candidate
    reading.value
  | .keyedFact factKey keyField valueColumn rowFilter absent => do
    let key ← resolver.readKey keyField candidate
    let rows ← Call.okOr (resolver.lists.lookup (factKey, rowFilter)) UnknownReason.factMissing
    rowValue rows key valueColumn absent

/-- The last instant a `fact` read stays known. -/
def knownUntil : Option Nat :=
  match reference with
  | .fact factKey =>
    match resolver.facts[factKey]?, resolver.snapshot.facts[factKey]? with
    | some declared, some (.published _ publication) =>
      let freshUntil := saturatingAdd publication.publishedAtUnixMs declared.maxAgeMs
      some (publication.expiresAtUnixMs.elim freshUntil fun expiry => min expiry freshUntil)
    | _, _ => none
  | _ => none

end Resolver

/-! ## What the reads of a rule noted -/

/-- The marks of the `table` reads of one gate or term, and whether anything else was unknown. -/
structure TableMarks where
  usedFallback : Bool
  otherwiseColumn : Option String
  staticUnknown : Bool
  otherUnknown : Bool

structure KnownInput where
  input : ValueRef
  knownUntilUnixMs : Option Nat

structure Reads where
  recording : Bool
  known : List KnownInput
  unknown : List (ValueRef × UnknownReason)
  marks : TableMarks

def TableMarks.empty : TableMarks := ⟨false, none, false, false⟩

def TableMarks.onlyStatic (marks : TableMarks) : Bool :=
  marks.staticUnknown && !marks.otherUnknown

namespace Reads

def ignored : Reads := ⟨false, [], [], .empty⟩

variable (reads : Reads)

def noteOther : Reads :=
  { reads with marks := { reads.marks with otherUnknown := true } }

def noteTable (reading : TableReading) : Reads :=
  let isUnknown := match reading.value with
    | .ok _ => false
    | .error _ => true
  { reads with
    marks :=
      { usedFallback := reads.marks.usedFallback || reading.usedFallback
        otherwiseColumn := reads.marks.otherwiseColumn.or reading.otherwiseColumn
        staticUnknown := reads.marks.staticUnknown || (isUnknown && reading.staticUnknown)
        otherUnknown := reads.marks.otherUnknown || (isUnknown && !reading.staticUnknown) } }

def recordKnown (resolver : Resolver) (input : ValueRef) : Reads :=
  if reads.recording && !reads.known.any (fun known => known.input = input) then
    { reads with known := reads.known ++ [⟨input, resolver.knownUntil input⟩] }
  else reads

def recordUnknown (input : ValueRef) (reason : UnknownReason) : Reads :=
  if reads.recording then { reads with unknown := reads.unknown ++ [(input, reason)] } else reads

/-- The unknown inputs of members that did not matter are dropped. -/
def truncateUnknown (length : Nat) : Reads :=
  { reads with unknown := reads.unknown.take length }

end Reads

def Resolver.readNoting (resolver : Resolver) (reference : ValueRef) (candidate : Candidate)
    (reads : Reads) : Except UnknownReason ScalarValue × Reads :=
  if reference.isTable then
    match resolver.tableReading reference candidate with
    | .ok reading => (reading.value, reads.noteTable reading)
    | .error reason => (.error reason, reads.noteOther)
  else
    match resolver.read reference candidate with
    | .ok value => (.ok value, reads)
    | .error reason => (.error reason, reads.noteOther)

end Selection
