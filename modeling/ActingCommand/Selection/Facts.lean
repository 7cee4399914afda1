import ActingCommand.Selection.Schema

/-!
# Candidates and the fact snapshot

The two inputs an evaluation reads, both passed in whole. A fact that is absent,
expired, stale, below the declared confidence or not of its declared type resolves to
a typed reason; a record list is read whole or not at all.
-/

namespace Selection

/-- One row of a record list, by column name. -/
abbrev RecordRow := Std.ExtTreeMap String ScalarValue

structure Candidate where
  candidateId : String
  fields : Std.ExtTreeMap String ScalarValue

/-- Why an input could not be read as a known value. -/
inductive UnknownReason
  | factMissing
  | factExpired
  | factStale
  | factLowConfidence
  | factNotScalar
  | fieldMissing
  | typeMismatch
  | lookupMiss
deriving DecidableEq

def UnknownReason.debug : UnknownReason → String
  | factMissing => "FactMissing"
  | factExpired => "FactExpired"
  | factStale => "FactStale"
  | factLowConfidence => "FactLowConfidence"
  | factNotScalar => "FactNotScalar"
  | fieldMissing => "FieldMissing"
  | typeMismatch => "TypeMismatch"
  | lookupMiss => "LookupMiss"

/-- When a fact was published, until when it holds, and how sure its detector was. -/
structure Publication where
  publishedAtUnixMs : Nat
  expiresAtUnixMs : Option Nat
  confidenceMilli : Nat

inductive SelectionFactEntry
  | published (value : ScalarValue) (publication : Publication)
  | unusable (reason : UnknownReason)
  | recordList (rows : List RecordRow) (publication : Publication)

structure SelectionFactSnapshot where
  snapshotId : String
  snapshotAtUnixMs : Nat
  facts : Std.ExtTreeMap String SelectionFactEntry

/-- Expiry, the document's freshness bound and its confidence floor, in that order. -/
def checkFreshness (declaration : FactDeclaration) (nowUnixMs : Nat) (publication : Publication) :
    Except UnknownReason Unit := do
  Call.failIf (publication.expiresAtUnixMs.any (fun expiry => expiry < nowUnixMs) = true)
    UnknownReason.factExpired
  Call.failIf (nowUnixMs - publication.publishedAtUnixMs > declaration.maxAgeMs)
    UnknownReason.factStale
  Call.failIf (publication.confidenceMilli < declaration.minimumConfidenceMilli ∨
      publication.confidenceMilli = 0) UnknownReason.factLowConfidence

namespace SelectionFactSnapshot

variable (snapshot : SelectionFactSnapshot) (declaration : FactDeclaration)

def resolve (nowUnixMs : Nat) : Except UnknownReason ScalarValue :=
  match snapshot.facts[declaration.factKey]? with
  | none => throw .factMissing
  | some (.unusable reason) => throw reason
  | some (.recordList _ _) => throw .factNotScalar
  | some (.published value publication) => do
    checkFreshness declaration nowUnixMs publication
    Call.failIf (value.matchesType declaration.valueType = false) UnknownReason.typeMismatch
    pure value

/-- The row holds a string key and every declared column with its declared type. -/
def rowWellFormed (keyColumn : String) (columns : Columns) (row : RecordRow) : Bool :=
  (match row[keyColumn]? with
    | some (.string _) => true
    | _ => false) &&
    columns.all fun column => (row[column.1]?).any fun cell => cell.matchesType column.2

def resolveList (nowUnixMs : Nat) : Except UnknownReason (List RecordRow) :=
  match declaration.valueType with
  | .recordList keyColumn columns =>
    match snapshot.facts[declaration.factKey]? with
    | none => throw .factMissing
    | some (.unusable .factNotScalar) => throw .typeMismatch
    | some (.unusable reason) => throw reason
    | some (.published _ publication) => do
      checkFreshness declaration nowUnixMs publication
      throw .typeMismatch
    | some (.recordList rows publication) => do
      checkFreshness declaration nowUnixMs publication
      Call.failIf (rows.all (rowWellFormed keyColumn columns) = false) UnknownReason.typeMismatch
      pure rows
  | _ => throw .typeMismatch

end SelectionFactSnapshot

end Selection
