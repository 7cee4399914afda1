import ActingCommand.Machine

/-!
# Leases, claims and queue entries

The data of the per-instance write scheduler: lease tokens and the witnesses of
in-flight steps, who claims an instance and which gate holds the claim back, the
entries of the queue, what a call answers and how it is refused.
-/

namespace Scheduler

open Machine

abbrev InstanceId := TypedId "instance_"
abbrev RequestId := TypedId "request_"
abbrev LeaseId := TypedId "lease_"
abbrev OwnerEpoch := TypedId "epoch_"
abbrev HolderId := TypedId "holder_"

structure ConnectionId where
  value : Nat
  nonzero : value ≠ 0
deriving DecidableEq

/-- A `NonZeroU64` step number. -/
structure StepId where
  value : Nat
  nonzero : value ≠ 0
deriving DecidableEq

def StepId.new (value : Nat) : Option StepId :=
  if h : value ≠ 0 then some ⟨value, h⟩ else none

structure LeaseToken where
  ownerEpoch : OwnerEpoch
  leaseId : LeaseId
  instanceId : InstanceId
  holderId : HolderId
  expiresAtMonotonicMs : Nat
deriving DecidableEq

/-- `LeaseToken::new`: a token that expires at instant zero is invalid. -/
def LeaseToken.new (ownerEpoch : OwnerEpoch) (leaseId : LeaseId) (instanceId : InstanceId)
    (holderId : HolderId) (expiresAtMonotonicMs : Nat) : Option LeaseToken :=
  if expiresAtMonotonicMs = 0 then none
  else some ⟨ownerEpoch, leaseId, instanceId, holderId, expiresAtMonotonicMs⟩

inductive FencedWritePurpose
  | business
  | resourceClose
deriving DecidableEq

/-- The scheduler admission carried through one in-flight execution step. -/
structure FencedWrite where
  token : LeaseToken
  connectionId : Nat
  stepId : StepId
  purpose : FencedWritePurpose
deriving DecidableEq

inductive LeasePriority
  | normal
  | high
deriving DecidableEq, Ord

namespace LeasePriority

def rank : LeasePriority → Nat
  | normal => 0
  | high => 1

instance : LT LeasePriority := ⟨fun a b => a.rank < b.rank⟩

instance (a b : LeasePriority) : Decidable (a < b) := inferInstanceAs (Decidable (a.rank < b.rank))

end LeasePriority

inductive LeaseReleaseReason
  | explicit
  | preempted
  | disconnect
  | expired
  | backendFailure
  | hostShutdown
  | instancePaused
  | connectionPrepared
deriving DecidableEq

inductive LeaseTransferReason
  | preempted
  | explicitRelease
  | disconnect
  | expired
  | backendFailure
  | hostShutdown
deriving DecidableEq

def transferReleaseReason : LeaseTransferReason → LeaseReleaseReason
  | .preempted => .preempted
  | .explicitRelease => .explicit
  | .disconnect => .disconnect
  | .expired => .expired
  | .backendFailure => .backendFailure
  | .hostShutdown => .hostShutdown

/-- Who holds or waits on an instance. -/
inductive ClaimKind
  | policyDispatch
  | ladder
  | ladderContinuation
  | startupPackage
  | autostart
  | directTaskRun
  | emulatorControl
  | inputLifecycle
  | resumeReconnect
  | selfCheck
  | backendSwitch
  | daemonStartPreparation
  | labOperation
  | clientLease
  | resourceClose
deriving DecidableEq

inductive ClaimClass
  | routine
  | holderOwned
  | operator
  | hostInternal
deriving DecidableEq

namespace ClaimKind

def claimClass : ClaimKind → ClaimClass
  | policyDispatch | ladder | startupPackage => .routine
  | ladderContinuation => .holderOwned
  | directTaskRun | emulatorControl | inputLifecycle | resumeReconnect | selfCheck
  | backendSwitch | labOperation | clientLease => .operator
  | autostart | daemonStartPreparation | resourceClose => .hostInternal

def gatedByPause (kind : ClaimKind) : Bool := kind.claimClass == .routine

def holderOwned (kind : ClaimKind) : Bool := kind.claimClass == .holderOwned

end ClaimKind

/-- The routine gate of one instance, read by the caller at the moment of the decision. -/
inductive ClaimGate
  | open
  | routineHeld
  | silenced (isRoutineHeld autostart : Bool)

def ClaimGate.holds : ClaimGate → ClaimKind → Bool
  | .open, _ => false
  | .routineHeld, kind => kind.gatedByPause
  | .silenced isRoutineHeld autostart, kind =>
    (isRoutineHeld && kind.gatedByPause) || kind == .startupPackage ||
      (autostart && kind == .autostart)

/-- A Runtime-internal claim: queued with no deadline, never requesting a preemption. -/
structure ClaimRequest where
  requestId : RequestId
  instanceId : InstanceId
  holderId : HolderId
  connectionId : ConnectionId
  kind : ClaimKind
  priority : LeasePriority
  leaseTtlMs : Nat

structure QueueLeaseRequest where
  requestId : RequestId
  instanceId : InstanceId
  holderId : HolderId
  connectionId : ConnectionId
  priority : LeasePriority
  timeoutMs : Nat

/-- The deadline of an internal claim: never. -/
def claimNoDeadlineMonotonicMs : Nat := u64Max

inductive SchedulerError
  | invalidConfig
  | invalidConnection
  | identifierIssuance
  | expiryOverflow
  | busy (holderId : HolderId) (leaseId : LeaseId) (expiresAtMonotonicMs : Nat)
  | cooldown (retryAfterMs : Nat)
  | staleOwnerEpoch
  | leaseMismatch
  | instanceMismatch
  | holderMismatch
  | connectionMismatch
  | leaseExpired
  | leaseNotExpired
  | leaseMissing
  | queueFull
  | queueExpired
  | queueMissing
  | queueConnectionMismatch
  | queueRequestMismatch
  | queueTimeoutInvalid
  | queueSequenceOverflow
  | stepSequenceOverflow
  | transferNotSafe
  | destructiveStateMismatch
  | resourceCloseOnly
  | queueAhead (kind : ClaimKind) (position : Nat)
  | gateHeld
deriving DecidableEq

/-- The errors after which the host halts. -/
def SchedulerError.isFatal : SchedulerError → Bool
  | .invalidConfig | .invalidConnection | .identifierIssuance | .expiryOverflow
  | .queueSequenceOverflow | .stepSequenceOverflow => true
  | _ => false

abbrev SchedulerResult (α : Type) := Except SchedulerError α

def ConnectionId.new (value : Nat) : SchedulerResult ConnectionId :=
  if h : value = 0 then .error .invalidConnection else .ok ⟨value, h⟩

structure SchedulerConfig where
  maximumClientHeartbeatIntervalMs : Nat
  takeoverCooldownMs : Nat
  leaseTtlMs : Nat
  maximumQueueTimeoutMs : Nat
  maxQueueDepthPerInstance : Nat
deriving DecidableEq

def maxLeaseQueueTimeoutMs : Nat := 3600000

def maxQueueDepthPerInstanceLimit : Nat := 4096

/-- `ContainedTaskRequest::MAX_RESPONSE_DEADLINE_MS`. -/
def maxResponseDeadlineMs : Nat := 1800000

def SchedulerConfig.validate (config : SchedulerConfig) : SchedulerResult SchedulerConfig :=
  if config.maximumClientHeartbeatIntervalMs = 0
      ∨ config.takeoverCooldownMs ≤ config.maximumClientHeartbeatIntervalMs
      ∨ config.leaseTtlMs ≤ config.maximumClientHeartbeatIntervalMs
      ∨ config.maximumQueueTimeoutMs = 0
      ∨ config.maximumQueueTimeoutMs > maxLeaseQueueTimeoutMs
      ∨ config.maxQueueDepthPerInstance = 0
      ∨ config.maxQueueDepthPerInstance > maxQueueDepthPerInstanceLimit then
    .error .invalidConfig
  else .ok config

def SchedulerConfig.default : SchedulerConfig where
  maximumClientHeartbeatIntervalMs := 5000
  takeoverCooldownMs := 6000
  leaseTtlMs := 120000
  maximumQueueTimeoutMs := 60000
  maxQueueDepthPerInstance := 64

lemma SchedulerConfig.default_valid :
    SchedulerConfig.default.validate = .ok SchedulerConfig.default := by decide

structure ReleasedLease where
  token : LeaseToken
  reason : LeaseReleaseReason
deriving DecidableEq

structure PreparedLease where
  token : LeaseToken
  connectionId : ConnectionId
  acquireRequestId : RequestId
  priority : LeasePriority
  resourceCloseOnly : Bool
  kind : ClaimKind
  /-- A grant of the queued entry `acquireRequestId` on a free instance. -/
  fromQueue : Bool
deriving DecidableEq

inductive LeasePreparation
  | existing (token : LeaseToken)
  | new (prepared : PreparedLease)
deriving DecidableEq

structure LeaseAcquisitionPolicy where
  priority : LeasePriority
  leaseTtlMs : Nat
  kind : ClaimKind
  gate : ClaimGate

structure RenewRecord where
  requestId : RequestId
  submittedToken : LeaseToken
  renewedToken : LeaseToken
deriving DecidableEq

structure ReleaseRecord where
  requestId : RequestId
  submittedToken : LeaseToken
  connectionId : ConnectionId
  released : ReleasedLease

structure LeaseEntry where
  token : LeaseToken
  connectionId : ConnectionId
  resourceCloseOnly : Bool
  acquireRequestId : RequestId
  lastRenew : Option RenewRecord
  priority : LeasePriority
  destructiveStep : Option (StepId × FencedWritePurpose)
  preemptRequested : Bool
  kind : ClaimKind
deriving DecidableEq

structure QueueEntry where
  requestId : RequestId
  holderId : HolderId
  connectionId : ConnectionId
  priority : LeasePriority
  deadlineMonotonicMs : Nat
  arrivalSequence : Nat
  kind : ClaimKind
  leaseTtlMs : Nat
  /-- Only a client request asks for a preemption. -/
  mayPreempt : Bool
deriving DecidableEq

/-- Not expired, and not an entry the gate holds back. -/
def QueueEntry.eligible (entry : QueueEntry) (gate : ClaimGate) (now : Nat) : Bool :=
  entry.deadlineMonotonicMs > now && !gate.holds entry.kind

structure QueuedLease where
  requestId : RequestId
  instanceId : InstanceId
  holderId : HolderId
  connectionId : ConnectionId
  priority : LeasePriority
  position : Nat
  deadlineMonotonicMs : Nat
  preemptRequested : Bool
  kind : ClaimKind
deriving DecidableEq

structure ActiveLease where
  token : LeaseToken
  connectionId : ConnectionId
  priority : LeasePriority
  destructiveStepActive : Bool
  preemptRequested : Bool
  kind : ClaimKind

inductive QueueAdmissionDecision
  | lease (preparation : LeasePreparation)
  | queued (queued : QueuedLease)
deriving DecidableEq

structure QueueAdmissionOutcome where
  decision : QueueAdmissionDecision
  expired : List QueuedLease
deriving DecidableEq

inductive QueuePoll
  | granted (token : LeaseToken)
  | pending (queued : QueuedLease)
deriving DecidableEq

structure PreparedLeaseTransfer where
  source : LeaseEntry
  queued : QueueEntry
  toToken : LeaseToken
  reason : LeaseTransferReason
  releaseRequestId : Option RequestId
  /-- The receiver was never queued; the transfer leaves the queue as it is. -/
  handOff : Bool
deriving DecidableEq

inductive TransferPreparation
  | noCandidate
  | deferred
  | ready (prepared : PreparedLeaseTransfer)
deriving DecidableEq

/-- Mints identifiers from one namespace and a sequence that never repeats. -/
structure IdentifierIssuer where
  nameSpace : Nat
  nextSequence : Nat

namespace IdentifierIssuer

variable (issuer : IdentifierIssuer)

/-- The eight bytes of the namespace, then the eight bytes of the sequence. -/
def leaseIdAt (sequence : Nat) : LeaseId :=
  ⟨issuer.nameSpace * 2 ^ 64 + sequence⟩

/-- `mint_lease_id`: the sequence number is taken unless its successor overflows. -/
def mintLeaseId : Option (LeaseId × IdentifierIssuer) :=
  (checkedAdd issuer.nextSequence 1).map fun next =>
    (issuer.leaseIdAt issuer.nextSequence, { issuer with nextSequence := next })

lemma leaseIdAt_injective {a b : Nat} (h : issuer.leaseIdAt a = issuer.leaseIdAt b) : a = b := by
  have same := congrArg TypedId.bytes h
  simp only [leaseIdAt] at same
  omega

end IdentifierIssuer

end Scheduler
