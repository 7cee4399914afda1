import ActingCommand.Call
import ActingCommand.Machine

/-!
# Runtime fact records and sealed snapshots

What the runtime records about itself: a typed value under a scope and a key, with the
checks a record passes before it reaches the ledger or the store, and the sealed image of
the store, whole or one part of a set.
-/

namespace RuntimeFacts

open Machine Except Std

abbrev InstanceId := TypedId "instance_"

inductive OriginModule
  | provider
  | actingctl
  | actinglab
  | runtime
  | scheduler
  | policy
  | deviceProxy
  | capture
  | capturePipeline
  | recognition
  | resourceTooling
  | artifactStore
  | evidenceExporter
  | globalLedger
  | performanceMonitor
  | factStore
  | runtimeFacts
  | governance
  | agentDispatcher
  | processTest
deriving DecidableEq

inductive FactScalar
  | boolean (value : Bool)
  | integer (value : Int)
  | string (value : String)
  | timestampMs (value : Nat)
  | durationMs (value : Nat)
deriving DecidableEq

inductive FactValue
  | boolean (value : Bool)
  | integer (value : Int)
  | string (value : String)
  | timestampMs (value : Nat)
  | durationMs (value : Nat)
  | recordList (records : List (ExtTreeMap String FactScalar))
deriving DecidableEq

inductive RuntimeFactScope
  | runtime
  | instance (instanceId : InstanceId)
deriving DecidableEq

inductive SanitizationCode
  | invalidRuntimeFactKey
  | runtimeFactFamilyUnknown
  | runtimeFactRecordListTooLarge
  | invalidRuntimeFactTtl
  | runtimeFactSchemaVersionMismatch
  | runtimeFactLedgerPositionInvalid
  | runtimeFactSnapshotPartInvalid
  | runtimeFactSnapshotTooLarge
  | runtimeFactSnapshotPayloadTooLarge
deriving DecidableEq

def SanitizationCode.asStr : SanitizationCode → String
  | invalidRuntimeFactKey => "invalid_runtime_fact_key"
  | runtimeFactFamilyUnknown => "runtime_fact_family_unknown"
  | runtimeFactRecordListTooLarge => "runtime_fact_record_list_too_large"
  | invalidRuntimeFactTtl => "invalid_runtime_fact_ttl"
  | runtimeFactSchemaVersionMismatch => "runtime_fact_schema_version_mismatch"
  | runtimeFactLedgerPositionInvalid => "runtime_fact_ledger_position_invalid"
  | runtimeFactSnapshotPartInvalid => "runtime_fact_snapshot_part_invalid"
  | runtimeFactSnapshotTooLarge => "runtime_fact_snapshot_too_large"
  | runtimeFactSnapshotPayloadTooLarge => "runtime_fact_snapshot_payload_too_large"

structure SanitizationError where
  code : SanitizationCode
  field : String
deriving DecidableEq

def runtimeFactSchemaVersion : String := "actingcommand.runtime-fact.v1"

def maxRuntimeFacts : Nat := 16384

def maxRuntimeFactKeyBytes : Nat := 128

def maxRuntimeFactRecordRows : Nat := 256

def maxRuntimeFactRecordFields : Nat := 64

def maxRuntimeFactSnapshotBytes : Nat := 512 * 1024

def runtimeFactFamilies : List String :=
  ["device.", "backend.", "task.", "host.", "lease.", "config.", "provider.", "eligible.",
    "application."]

variable (c : Char) (record : RuntimeFactRecord)

/-- `char::is_control`: the general category Cc. -/
def isControl : Bool := c.toNat ≤ 0x1f || (0x7f ≤ c.toNat && c.toNat ≤ 0x9f)

/-- `char::is_whitespace`: the property White_Space. -/
def isWhitespace : Bool :=
  (0x9 ≤ c.toNat && c.toNat ≤ 0xd) || c.toNat = 0x20 || c.toNat = 0x85 || c.toNat = 0xa0 ||
    c.toNat = 0x1680 || (0x2000 ≤ c.toNat && c.toNat ≤ 0x200a) || c.toNat = 0x2028 ||
    c.toNat = 0x2029 || c.toNat = 0x202f || c.toNat = 0x205f || c.toNat = 0x3000

def validateRuntimeFactKey (key : String) : Except SanitizationError Unit := do
  Call.failIf (key.isEmpty ∨ key.utf8ByteSize > maxRuntimeFactKeyBytes ∨
      key.toList.any fun c => isControl c || isWhitespace c)
    (SanitizationError.mk .invalidRuntimeFactKey "key")
  Call.failIf (¬ runtimeFactFamilies.any fun family => key.startsWith family)
    (SanitizationError.mk .runtimeFactFamilyUnknown "key")

structure RuntimeFactRecord where
  scope : RuntimeFactScope
  key : String
  value : FactValue
  observedAtUnixMs : Nat
  source : OriginModule
  ttlMs : Option Nat
deriving DecidableEq

def FactValue.tooLarge : FactValue → Bool
  | recordList records =>
    records.length > maxRuntimeFactRecordRows ||
      records.any fun record => record.size > maxRuntimeFactRecordFields
  | _ => false

def RuntimeFactRecord.validate : Except SanitizationError Unit := do
  validateRuntimeFactKey record.key
  Call.failIf record.value.tooLarge (SanitizationError.mk .runtimeFactRecordListTooLarge "value")
  Call.failIf (record.ttlMs = some 0) (SanitizationError.mk .invalidRuntimeFactTtl "ttl_ms")

inductive RuntimeFactInvalidationReason
  | runtimeTakeover
  | deviceClosed
  | adbUnreachable
  | expired
  | operator
deriving DecidableEq

structure RuntimeFactInvalidation where
  scope : RuntimeFactScope
  key : String
  reason : RuntimeFactInvalidationReason
  atUnixMs : Nat
deriving DecidableEq

def RuntimeFactInvalidation.validate (invalidation : RuntimeFactInvalidation) :
    Except SanitizationError Unit :=
  validateRuntimeFactKey invalidation.key

/-! ## Keys -/

/-- A scope and a key, in the order of the store's map. -/
abbrev FactKey := RuntimeFactScope × String

def RuntimeFactRecord.factKey : FactKey := (record.scope, record.key)

/-- The process scope first, then the instances by their identifiers. -/
def RuntimeFactScope.cmp : RuntimeFactScope → RuntimeFactScope → Ordering
  | runtime, runtime => .eq
  | runtime, .instance _ => .lt
  | .instance _, runtime => .gt
  | .instance a, .instance b => compare a b

instance : Ord RuntimeFactScope := ⟨RuntimeFactScope.cmp⟩

lemma RuntimeFactScope.compare_def (a b : RuntimeFactScope) :
    compare a b = RuntimeFactScope.cmp a b := rfl

instance : OrientedOrd RuntimeFactScope where
  eq_swap {a b} := by
    cases a <;> cases b <;>
      simp [RuntimeFactScope.compare_def, RuntimeFactScope.cmp, Ordering.swap]
    exact OrientedCmp.eq_swap

instance : TransOrd RuntimeFactScope where
  isLE_trans {a b c} ab bc := by
    cases a <;> cases b <;> cases c <;>
      simp [RuntimeFactScope.compare_def, RuntimeFactScope.cmp, Ordering.isLE_eq,
        Ordering.isLE_lt, Ordering.isLE_gt] at ab bc ⊢
    exact TransCmp.isLE_trans ab bc

instance : LawfulEqOrd RuntimeFactScope where
  compare_self {a} := by
    cases a with
    | runtime => rfl
    | «instance» instanceId => exact ReflCmp.compare_self
  eq_of_compare {a b} same := by
    cases a with
    | runtime => cases b with
      | runtime => rfl
      | «instance» => cases same
    | «instance» left => cases b with
      | runtime => cases same
      | «instance» right =>
        have ids : compare left right = .eq := same
        rw [LawfulEqCmp.eq_of_compare ids]

def FactKey.cmp : FactKey → FactKey → Ordering :=
  compareLex (compareOn Prod.fst) (compareOn Prod.snd)

instance : TransCmp FactKey.cmp :=
  inferInstanceAs (TransCmp (compareLex (compareOn (Prod.fst : FactKey → RuntimeFactScope))
    (compareOn Prod.snd)))

instance : LawfulEqCmp FactKey.cmp where
  compare_self {a} := ReflCmp.compare_self
  eq_of_compare {a b} same := by
    rw [FactKey.cmp, compareLex_eq_eq] at same
    have scopes : a.1 = b.1 := LawfulEqCmp.eq_of_compare same.1
    have keys : a.2 = b.2 := LawfulEqCmp.eq_of_compare same.2
    exact Prod.ext scopes keys

/-! ## Snapshots -/

/-- Sealed image of the store at one ledger position: the whole store, or one part of a set. -/
structure RuntimeFactSnapshot where
  schemaVersion : String
  ledgerPosition : Nat
  takenAtUnixMs : Nat
  snapshotId : Nat
  part : Nat
  parts : Nat
  records : List RuntimeFactRecord
deriving DecidableEq

def validateRecords : List RuntimeFactRecord → Except SanitizationError Unit
  | [] => pure ()
  | record :: rest => do
    record.validate
    validateRecords rest

namespace RuntimeFactSnapshot

def validate (snapshot : RuntimeFactSnapshot) : Except SanitizationError Unit := do
  Call.failIf (snapshot.schemaVersion ≠ runtimeFactSchemaVersion)
    (SanitizationError.mk .runtimeFactSchemaVersionMismatch "schema_version")
  Call.failIf (snapshot.ledgerPosition = 0)
    (SanitizationError.mk .runtimeFactLedgerPositionInvalid "ledger_position")
  Call.failIf (snapshot.part = 0 ∨ snapshot.part > snapshot.parts)
    (SanitizationError.mk .runtimeFactSnapshotPartInvalid "part")
  Call.failIf (snapshot.records.length > maxRuntimeFacts)
    (SanitizationError.mk .runtimeFactSnapshotTooLarge "records")
  validateRecords snapshot.records

end RuntimeFactSnapshot

/-- The lengths of the compact JSON of a record and of a snapshot. -/
structure Encoding where
  recordBytes : RuntimeFactRecord → Nat
  snapshotBytes : RuntimeFactSnapshot → Nat

def RuntimeFactSnapshot.validateForAppend (encoding : Encoding) (snapshot : RuntimeFactSnapshot) :
    Except SanitizationError Unit := do
  snapshot.validate
  Call.failIf (encoding.snapshotBytes snapshot > maxRuntimeFactSnapshotBytes)
    (SanitizationError.mk .runtimeFactSnapshotPayloadTooLarge "records")

lemma validateRecords_ok_iff {records} :
    validateRecords records = .ok () ↔ ∀ record ∈ records, record.validate = .ok () := by
  induction records with
  | nil => simp [validateRecords, pure, Except.pure]
  | cons record rest ih =>
    simp only [validateRecords, bind_ok_iff, ih, List.forall_mem_cons]
    constructor
    · rintro ⟨_, own, later⟩
      exact ⟨own, later⟩
    · rintro ⟨own, later⟩
      exact ⟨(), own, later⟩

lemma RuntimeFactSnapshot.validate_ok_iff {snapshot : RuntimeFactSnapshot} :
    snapshot.validate = .ok () ↔ snapshot.schemaVersion = runtimeFactSchemaVersion ∧
      snapshot.ledgerPosition ≠ 0 ∧ 0 < snapshot.part ∧ snapshot.part ≤ snapshot.parts ∧
      snapshot.records.length ≤ maxRuntimeFacts ∧
      ∀ record ∈ snapshot.records, record.validate = .ok () := by
  simp only [validate, bind_ok_iff, failIf_ok_iff, validateRecords_ok_iff]
  constructor
  · rintro ⟨_, schema, _, position, _, part, _, length, each⟩
    refine ⟨not_not.mp schema, position, ?_, ?_, by omega, each⟩ <;> omega
  · rintro ⟨schema, position, first, last, length, each⟩
    exact ⟨(), not_not.mpr schema, (), position, (), by omega, (), by omega, each⟩

end RuntimeFacts
