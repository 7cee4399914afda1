import ActingCommand.Scheduler.State

/-!
# The operations of the scheduler

Every function the source gives an exclusive reference to the scheduler. What an
operation has written when it fails stays written, as in the source.
-/

namespace Scheduler

open Machine Call SchedulerError

abbrev SchedulerM (α : Type) := Call SeedScheduler SchedulerError α

/-- `SeedScheduler::new`. The identifier issuer draws its namespace from the clock, the
process and a nonce; `nameSpace` is `none` when that fails. -/
def SeedScheduler.new (ownerEpoch : OwnerEpoch) (config : SchedulerConfig)
    (takeoverInstances : List InstanceId) (nameSpace : Option Nat) (now : Nat) :
    SchedulerResult SeedScheduler := do
  let config ← config.validate
  let cooldownUntil ← okOr (checkedAdd now config.takeoverCooldownMs) expiryOverflow
  let nameSpace ← okOr nameSpace identifierIssuance
  return {
    ownerEpoch := ownerEpoch
    config := config
    leaseIssuer := { nameSpace := nameSpace, nextSequence := 1 }
    instances := takeoverInstances.foldl
      (fun instances instanceId =>
        instances.insertIfNew instanceId { cooldownUntilMonotonicMs := cooldownUntil }) ∅
    leaseLocations := ∅
    nextArrivalSequence := 1
    nextStepId := 1 }

namespace SchedulerM

def setInstance (instanceId : InstanceId) (state : InstanceState) : SchedulerM Unit :=
  modify fun s => s.setInstance instanceId state

def mintLeaseId : SchedulerM LeaseId := do
  let s ← get
  let minted ← okOr s.leaseIssuer.mintLeaseId identifierIssuance
  set { s with leaseIssuer := minted.2 }
  return minted.1

variable (token : LeaseToken) (requestId : RequestId) (submittedToken : LeaseToken)
  (instanceId : InstanceId) (holderId : HolderId) (connectionId : ConnectionId)

variable (kind : ClaimKind) (policy : LeaseAcquisitionPolicy) (reason : LeaseTransferReason)
  (releaseRequestId : Option RequestId) (claim : ClaimRequest) (leaseTtlMs : Nat)
  (request : QueueLeaseRequest) (gate : ClaimGate) (immediateAllowed : Bool)
  (prepared : PreparedLeaseTransfer) (now : Nat) (state : InstanceState) (lease : LeaseEntry)

/-- A fresh token: its expiry, its minted identifier, and the checked constructor. -/
def mintToken : SchedulerM LeaseToken := do
  let s ← get
  let expiresAt ← read (SeedScheduler.expiryFromTtl now leaseTtlMs)
  let leaseId ← mintLeaseId
  okOr (LeaseToken.new s.ownerEpoch leaseId instanceId holderId expiresAt)
    invalidConfig

/-! ## Acquiring -/

/-- The part of an acquisition after the instance's cooldown is found over: the holder's own
replay, or a fresh lease on a free instance where no eligible entry waits. A policy dispatch
is never queued, so the gate does not hold it here. -/
def prepareSettled (now : Nat) : SchedulerM LeasePreparation :=
  match state.lease with
  | some lease => do
    failIf (lease.token.expiresAtMonotonicMs ≤ now) leaseExpired
    failIf (¬ (lease.acquireRequestId = requestId ∧ lease.connectionId = connectionId ∧
        lease.token.holderId = holderId))
      (busy lease.token.holderId lease.token.leaseId
        lease.token.expiresAtMonotonicMs)
    return .existing lease.token
  | none =>
    match firstEligible state policy.gate now with
    | some ahead => throw (queueAhead state ahead)
    | none => do
      failIf (policy.gate.holds policy.kind = true ∧ policy.kind ≠ .policyDispatch)
        gateHeld
      let token ← mintToken instanceId holderId policy.leaseTtlMs now
      return .new {
        token := token
        connectionId := connectionId
        acquireRequestId := requestId
        priority := policy.priority
        resourceCloseOnly := false
        kind := policy.kind
        fromQueue := false }

def prepareAcquireWithPolicy : SchedulerM LeasePreparation := do
  modify fun s => s.ensureInstance instanceId
  let s ← get
  let state := s.stateAt instanceId
  failIf (state.cooldownUntilMonotonicMs > now)
    (cooldown (state.cooldownUntilMonotonicMs - now))
  setInstance instanceId { state with cooldownUntilMonotonicMs := 0 }
  prepareSettled requestId instanceId holderId connectionId policy state now

/-- The policy of a client lease's immediate try: normal priority and the gate open. -/
def clientPolicy : LeaseAcquisitionPolicy where
  priority := .normal
  leaseTtlMs := leaseTtlMs
  kind := .clientLease
  gate := .open

def prepareAcquire : SchedulerM LeasePreparation := do
  let s ← get
  prepareAcquireWithPolicy requestId instanceId holderId connectionId
    (clientPolicy s.config.leaseTtlMs) now

def prepareAcquireWithTtl : SchedulerM LeasePreparation := do
  let s ← get
  read (s.validateClaimTtl leaseTtlMs)
  prepareAcquireWithPolicy requestId instanceId holderId connectionId
    (clientPolicy leaseTtlMs) now

def prepareClaimAcquire : SchedulerM LeasePreparation := do
  let s ← get
  read (s.validateClaimTtl claim.leaseTtlMs)
  prepareAcquireWithPolicy claim.requestId claim.instanceId claim.holderId claim.connectionId
    { priority := claim.priority, leaseTtlMs := claim.leaseTtlMs, kind := claim.kind,
      gate := gate } now

/-- A dedicated lease permits the retirement of resources only. -/
def prepareDedicatedLease : SchedulerM LeasePreparation := do
  let s ← get
  failIf (s.refusingCount instanceId gate now > 0) transferNotSafe
  let preparation ← prepareAcquireWithPolicy requestId instanceId holderId connectionId
    { priority := .normal, leaseTtlMs := s.config.leaseTtlMs, kind := kind, gate := .open } now
  match preparation with
  | .new prepared => return .new { prepared with resourceCloseOnly := true }
  | .existing _ => throw resourceCloseOnly

def prepareResourceClose : SchedulerM LeasePreparation :=
  prepareDedicatedLease requestId instanceId holderId connectionId .resourceClose .open now

/-- The lease a committed grant puts on its instance. -/
def grantedLease (prepared : PreparedLease) : LeaseEntry where
  token := prepared.token
  connectionId := prepared.connectionId
  resourceCloseOnly := prepared.resourceCloseOnly
  acquireRequestId := prepared.acquireRequestId
  lastRenew := none
  priority := prepared.priority
  destructiveStep := none
  preemptRequested := false
  kind := prepared.kind

/-- The queue a grant leaves: without the granted entry, if it was queued. -/
def queueAfterGrant (prepared : PreparedLease) (queue : List QueueEntry) :
    Option (List QueueEntry) :=
  if prepared.fromQueue then
    (queue.findIdx? fun entry => entry.requestId = prepared.acquireRequestId).map
      fun position => queue.eraseIdx position
  else some queue

def commitAcquireNew (prepared : PreparedLease) (now : Nat) : SchedulerM LeaseToken := do
  let s ← get
  read (s.validateEpoch prepared.token)
  failIf (prepared.token.expiresAtMonotonicMs ≤ now) leaseExpired
  let instanceId := prepared.token.instanceId
  let state ← okOr s.instances[instanceId]? leaseMissing
  failIf (state.cooldownUntilMonotonicMs > now)
    (cooldown (state.cooldownUntilMonotonicMs - now))
  match state.lease with
  | some lease =>
    throw (busy lease.token.holderId lease.token.leaseId
      lease.token.expiresAtMonotonicMs)
  | none =>
    let queue ← okOr (queueAfterGrant prepared state.queue) queueMissing
    let granted := refreshPreemptRequested
      { state with queue := queue, lease := some (grantedLease prepared) }
    set { s.setInstance instanceId { granted with lastRelease := none } with
      leaseLocations := s.leaseLocations.insert prepared.token.leaseId instanceId }
    return prepared.token

def commitAcquire (preparation : LeasePreparation) (now : Nat) : SchedulerM LeaseToken :=
  match preparation with
  | .existing token => return token
  | .new prepared => commitAcquireNew prepared now

def acquire : SchedulerM LeaseToken := do
  let preparation ← prepareAcquire requestId instanceId holderId connectionId now
  commitAcquire preparation now

/-! ## Queueing -/

/-- One of the removal loops: every entry `drop` selects leaves the queue and is reported. -/
def sweepInstance (drop : QueueEntry → Bool) (instanceId : InstanceId) :
    SchedulerM (List QueuedLease) := do
  let s ← get
  match s.instances[instanceId]? with
  | none => return []
  | some state =>
    let swept := sweepQueue drop state instanceId [] state.queue []
    setInstance instanceId { state with queue := swept.2 }
    let removed ← read swept.1
    setInstance instanceId (refreshPreemptRequested { state with queue := swept.2 })
    return removed

def sweepInstances (drop : QueueEntry → Bool) : List InstanceId → SchedulerM (List QueuedLease)
  | [] => return []
  | instanceId :: rest => do
    let removed ← sweepInstance drop instanceId
    let later ← sweepInstances drop rest
    return removed ++ later

def takeExpiredForInstance : SchedulerM (List QueuedLease) :=
  sweepInstance (fun entry => entry.deadlineMonotonicMs ≤ now) instanceId

def takeExpiredQueued : SchedulerM (List QueuedLease) := do
  let s ← get
  sweepInstances (fun entry => entry.deadlineMonotonicMs ≤ now) s.instances.keys

def removeQueuedForConnection : SchedulerM (List QueuedLease) := do
  let s ← get
  sweepInstances (fun entry => entry.connectionId = connectionId) s.instances.keys

def removeQueuedForConnectionOnInstance : SchedulerM (List QueuedLease) :=
  sweepInstance (fun entry => entry.connectionId = connectionId) instanceId

def removeQueuedForInstance : SchedulerM (List QueuedLease) :=
  sweepInstance (fun _ => true) instanceId

/-- An install drain keeps the holder-owned continuation. -/
def removeQueuedForDrain : SchedulerM (List QueuedLease) :=
  sweepInstance (fun entry => !entry.kind.holderOwned) instanceId

def insertQueueEntry (entry : QueueEntry) : SchedulerM QueuedLease := do
  let s ← get
  let next ← okOr (checkedAdd s.nextArrivalSequence 1) queueSequenceOverflow
  modify fun s => s.ensureInstance instanceId
  let state := s.stateAt instanceId
  failIf (state.queue.length ≥ s.config.maxQueueDepthPerInstance) queueFull
  let queued := refreshPreemptRequested {
    state with
    queue := sortQueue
      (state.queue ++ [{ entry with arrivalSequence := s.nextArrivalSequence }]) }
  set { s.setInstance instanceId queued with nextArrivalSequence := next }
  read (queuedByRequest queued instanceId entry.requestId)

/-- Removes the entry at a position found by its request. -/
def removeAt (position : Nat) : SchedulerM Unit :=
  setInstance instanceId
    (refreshPreemptRequested { state with queue := state.queue.eraseIdx position })

def removeQueuedRequest : SchedulerM Unit := do
  let s ← get
  let located ← okOr (s.locateQueued requestId) queueMissing
  let state ← okOr s.instances[located.1]? queueMissing
  removeAt located.1 state located.2

/-- The entry a client request waits as: it alone may preempt. -/
def clientEntry (deadline leaseTtlMs : Nat) : QueueEntry where
  requestId := request.requestId
  holderId := request.holderId
  connectionId := request.connectionId
  priority := request.priority
  deadlineMonotonicMs := deadline
  arrivalSequence := 0
  kind := .clientLease
  leaseTtlMs := leaseTtlMs
  mayPreempt := true

/-- The entry a Runtime-internal claim waits as: no deadline, no preemption. -/
def claimEntry : QueueEntry where
  requestId := claim.requestId
  holderId := claim.holderId
  connectionId := claim.connectionId
  priority := claim.priority
  deadlineMonotonicMs := claimNoDeadlineMonotonicMs
  arrivalSequence := 0
  kind := claim.kind
  leaseTtlMs := claim.leaseTtlMs
  mayPreempt := false

/-- A request the scheduler has not seen: an immediate lease or a place in the queue. -/
def admitQueued : SchedulerM QueueAdmissionDecision := do
  modify fun s => s.ensureInstance request.instanceId
  let s ← get
  let state := s.stateAt request.instanceId
  failIf (state.lease = none ∧ state.cooldownUntilMonotonicMs > now)
    (cooldown (state.cooldownUntilMonotonicMs - now))
  if state.lease = none ∧ immediateAllowed = true ∧ firstEligible state gate now = none then
    let preparation ← prepareAcquireWithPolicy request.requestId request.instanceId
      request.holderId request.connectionId
      { priority := request.priority, leaseTtlMs := s.config.leaseTtlMs, kind := .clientLease,
        gate := gate } now
    return .lease preparation
  else
    let deadline ← okOr (checkedAdd now request.timeoutMs) expiryOverflow
    let queued ← insertQueueEntry request.instanceId
      (clientEntry request deadline s.config.leaseTtlMs)
    return .queued queued

/-- Whether a replayed decision is an entry whose deadline has passed. -/
def replayExpired (decision : QueueAdmissionDecision) (now : Nat) : Bool :=
  match decision with
  | .queued queued => queued.deadlineMonotonicMs ≤ now
  | .lease _ => false

def requestQueuedGated : SchedulerM QueueAdmissionOutcome := do
  let s ← get
  failIf (request.timeoutMs = 0 ∨ request.timeoutMs > s.config.maximumQueueTimeoutMs)
    queueTimeoutInvalid
  let replayed ← read (s.replayQueueRequest request)
  match replayed with
  | some decision =>
    if replayExpired decision now then
      removeQueuedRequest request.requestId
      throw queueExpired
    else return { decision := decision, expired := [] }
  | none =>
    let expired ← takeExpiredForInstance request.instanceId now
    let decision ← admitQueued request gate immediateAllowed now
    return { decision := decision, expired := expired }

def requestQueued : SchedulerM QueueAdmissionOutcome :=
  requestQueuedGated request .open true now

def enqueueClaim (_now : Nat) : SchedulerM QueuedLease := do
  let s ← get
  read (s.validateClaimTtl claim.leaseTtlMs)
  failIf (s.requestKnown claim.requestId = true) queueRequestMismatch
  read (s.validateContinuation claim)
  insertQueueEntry claim.instanceId (claimEntry claim)

/-- The grant of the first eligible entry on a free instance, if there is one. -/
def prepareQueuedGrant : SchedulerM (Option PreparedLease) := do
  let s ← get
  let state := s.stateAt instanceId
  if state.lease ≠ none ∨ state.cooldownUntilMonotonicMs > now then return none
  else
    match firstEligible state gate now with
    | none => return none
    | some position =>
      let entry := state.queue[position]
      let token ← mintToken instanceId entry.holderId entry.leaseTtlMs now
      return some {
        token := token
        connectionId := entry.connectionId
        acquireRequestId := entry.requestId
        priority := entry.priority
        resourceCloseOnly := false
        kind := entry.kind
        fromQueue := true }

def pollQueued : SchedulerM QueuePoll := do
  let s ← get
  match s.findLease requestId with
  | some lease =>
    failIf (lease.connectionId ≠ connectionId) queueConnectionMismatch
    return .granted lease.token
  | none =>
    let located ← okOr (s.locateQueued requestId) queueMissing
    let state ← okOr s.instances[located.1]? queueMissing
    let entry ← okOr state.queue[located.2]? queueMissing
    failIf (entry.connectionId ≠ connectionId) queueConnectionMismatch
    if entry.deadlineMonotonicMs ≤ now then
      removeAt located.1 state located.2
      throw queueExpired
    else
      let queued ← read (queuedAtPosition state located.1 located.2)
      return .pending queued

def cancelQueued : SchedulerM QueuedLease := do
  let s ← get
  let located ← okOr (s.locateQueued requestId) queueMissing
  let state ← okOr s.instances[located.1]? queueMissing
  let entry ← okOr state.queue[located.2]? queueMissing
  failIf (entry.connectionId ≠ connectionId) queueConnectionMismatch
  let queued ← read (queuedAtPosition state located.1 located.2)
  removeAt located.1 state located.2
  return queued

/-! ## Destructive steps -/

/-- Takes the next step number and marks the lease with it. -/
def openStep (purpose : FencedWritePurpose) : SchedulerM FencedWrite := do
  let s ← get
  let next ← okOr (checkedAdd s.nextStepId 1) stepSequenceOverflow
  let stepId ← okOr (StepId.new s.nextStepId) stepSequenceOverflow
  set { s.setInstance token.instanceId
      { state with lease := some { lease with destructiveStep := some (stepId, purpose) } } with
    nextStepId := next }
  return {
    token := token
    connectionId := connectionId.value
    stepId := stepId
    purpose := purpose }

def beginDestructiveStep : SchedulerM FencedWrite := do
  let s ← get
  read (s.validateWrite token connectionId now)
  let state ← okOr s.instances[token.instanceId]? leaseMissing
  let lease ← okOr state.lease leaseMissing
  failIf (lease.destructiveStep ≠ none) destructiveStateMismatch
  failIf (lease.preemptRequested = true) transferNotSafe
  openStep token connectionId state lease .business

def beginResourceClose : SchedulerM FencedWrite := do
  let s ← get
  let _ ← read (s.validateCurrentLease token connectionId now)
  let state ← okOr s.instances[token.instanceId]? leaseMissing
  let lease ← okOr state.lease leaseMissing
  failIf (lease.destructiveStep ≠ none) destructiveStateMismatch
  openStep token connectionId state lease .resourceClose

def finishDestructiveStep (witness : FencedWrite) (connectionId : ConnectionId) :
    SchedulerM Unit := do
  let s ← get
  let located ← read (s.locateLease witness.token)
  failIf (located.2.token ≠ witness.token ∨ located.2.connectionId ≠ connectionId ∨
      witness.connectionId ≠ connectionId.value)
    connectionMismatch
  failIf (located.2.destructiveStep ≠ some (witness.stepId, witness.purpose))
    destructiveStateMismatch
  setInstance witness.token.instanceId
    { located.1 with lease := some { located.2 with destructiveStep := none } }

/-! ## Transfers -/

def preparedTransfer (source : LeaseEntry) (queued : QueueEntry) (reason : LeaseTransferReason)
    (releaseRequestId : Option RequestId) (handOff : Bool) (now : Nat) :
    SchedulerM TransferPreparation := do
  let toToken ← mintToken source.token.instanceId queued.holderId queued.leaseTtlMs now
  return .ready {
    source := source
    queued := queued
    toToken := toToken
    reason := reason
    releaseRequestId := releaseRequestId
    handOff := handOff }

/-- A preemption only goes to a client entry of higher priority. -/
def prepareTransferGated : SchedulerM TransferPreparation := do
  let s ← get
  failIf (decide (reason = .explicitRelease) ≠ releaseRequestId.isSome)
    queueRequestMismatch
  let lease ← read (s.transferableLease token connectionId)
  if lease.destructiveStep ≠ none then return .deferred
  else
    let state ← okOr s.instances[token.instanceId]? leaseMissing
    match firstEligible state gate now with
    | none => return .noCandidate
    | some position =>
      let queued := state.queue.get position
      if reason = .preempted ∧ ¬ (queued.mayPreempt = true ∧ lease.priority < queued.priority)
      then return .noCandidate
      else preparedTransfer lease queued reason releaseRequestId false now

def prepareTransfer : SchedulerM TransferPreparation :=
  prepareTransferGated token connectionId reason releaseRequestId .open now

/-- The claim bypasses the queue. Behind a closed gate there is no hand-off. -/
def prepareClaimHandOff : SchedulerM TransferPreparation := do
  let s ← get
  read (s.validateClaimTtl claim.leaseTtlMs)
  failIf (claim.instanceId ≠ token.instanceId) instanceMismatch
  let lease ← read (s.transferableLease token connectionId)
  if lease.destructiveStep ≠ none then return .deferred
  else if gate.holds claim.kind = true then return .noCandidate
  else
    failIf (s.requestKnown claim.requestId = true) queueRequestMismatch
    preparedTransfer lease (claimEntry claim) reason releaseRequestId true now

def prepareHandOff : SchedulerM TransferPreparation := do
  failIf (reason = .explicitRelease) queueRequestMismatch
  prepareClaimHandOff token connectionId reason none claim gate now

def prepareReleaseHandOff (releaseRequestId : RequestId) (claim : ClaimRequest) (gate : ClaimGate)
    (now : Nat) : SchedulerM TransferPreparation :=
  prepareClaimHandOff token connectionId .explicitRelease (some releaseRequestId) claim gate now

/-- A granted continuation is its ladder's hold again. -/
def transferredKind : ClaimKind :=
  if kind = .ladderContinuation then .ladder else kind

/-- The lease the receiver of a transfer holds. -/
def receivedLease : LeaseEntry where
  token := prepared.toToken
  connectionId := prepared.queued.connectionId
  resourceCloseOnly := false
  acquireRequestId := prepared.queued.requestId
  lastRenew := none
  priority := prepared.queued.priority
  destructiveStep := none
  preemptRequested := false
  kind := transferredKind prepared.queued.kind

/-- The queue a transfer leaves: without the receiver, which a hand-off never queued. -/
def queueAfterTransfer (queue : List QueueEntry) : Option (List QueueEntry) :=
  if prepared.handOff then
    if queue.any fun entry => entry.requestId = prepared.queued.requestId then none
    else some queue
  else
    (queue.findIdx? fun entry => entry = prepared.queued).map
      fun position => queue.eraseIdx position

/-- The replay a transfer at an explicit release keeps. -/
def transferRecord : Option ReleaseRecord :=
  prepared.releaseRequestId.map fun requestId => {
    requestId := requestId
    submittedToken := prepared.source.token
    connectionId := prepared.source.connectionId
    released := {
      token := prepared.source.token
      reason := transferReleaseReason prepared.reason } }

def commitTransfer : SchedulerM LeaseToken := do
  let s ← get
  read (s.validateEpoch prepared.source.token)
  read (s.validateEpoch prepared.toToken)
  failIf (prepared.toToken.expiresAtMonotonicMs ≤ now) leaseExpired
  let instanceId := prepared.source.token.instanceId
  let state ← okOr s.instances[instanceId]? leaseMissing
  failIf (state.lease ≠ some prepared.source) leaseMismatch
  let queue ← okOr (queueAfterTransfer prepared state.queue) queueRequestMismatch
  let transferred := refreshPreemptRequested {
    state with
    queue := queue
    lastRelease := transferRecord prepared
    lease := some (receivedLease prepared) }
  set { s.setInstance instanceId transferred with
    leaseLocations := (s.leaseLocations.erase prepared.source.token.leaseId).insert
      prepared.toToken.leaseId instanceId }
  return prepared.toToken

/-! ## Renewing -/

/-- The same lease with a later expiry. -/
def renewToken (instanceId : InstanceId) (ownerEpoch : OwnerEpoch) (expiresAt : Nat) :
    Option LeaseToken :=
  LeaseToken.new ownerEpoch lease.token.leaseId instanceId lease.token.holderId expiresAt

def renewWithTtl : SchedulerM LeaseToken := do
  let s ← get
  read (s.validateClaimTtl leaseTtlMs)
  read (s.validateEpoch submittedToken)
  let expiresAt ← read (SeedScheduler.expiryFromTtl now leaseTtlMs)
  let state ← okOr s.instances[submittedToken.instanceId]? leaseMissing
  let lease ← okOr (state.lease.filter fun lease => lease.token.leaseId = submittedToken.leaseId)
    leaseMissing
  read (validateActiveLease lease submittedToken connectionId now)
  let renewed ← okOr (renewToken lease submittedToken.instanceId s.ownerEpoch expiresAt)
    invalidConfig
  setInstance submittedToken.instanceId
    { state with lease := some { lease with token := renewed } }
  return renewed

def renew : SchedulerM LeaseToken := do
  let s ← get
  let replayed ← read (s.replayedRenew requestId submittedToken connectionId)
  match replayed with
  | some renewed => return renewed
  | none =>
    read (s.validateEpoch submittedToken)
    let instanceId ← read (s.locateTokenInstance submittedToken)
    let expiresAt ← read (SeedScheduler.expiryFromTtl now s.config.leaseTtlMs)
    let state ← okOr s.instances[instanceId]? leaseMissing
    let lease ← okOr state.lease leaseMissing
    read (validateActiveLease lease submittedToken connectionId now)
    let renewed ← okOr (renewToken lease instanceId s.ownerEpoch expiresAt)
      invalidConfig
    setInstance instanceId { state with lease := some {
      lease with
      token := renewed
      lastRenew := some {
        requestId := requestId
        submittedToken := submittedToken
        renewedToken := renewed } } }
    return renewed

/-! ## Ending a lease -/

/-- Takes the lease off its instance and out of the index. -/
def endLease (leaseId : LeaseId) (record : Option ReleaseRecord) : SchedulerM Unit :=
  modify fun s => { s.setInstance instanceId
    { state with lease := none, lastRelease := record } with
    leaseLocations := s.leaseLocations.erase leaseId }

def release : SchedulerM ReleasedLease := do
  let s ← get
  let replayed ← read (s.replayedRelease requestId submittedToken connectionId)
  match replayed with
  | some released => return released
  | none =>
    let located ← read (s.locateLease submittedToken)
    read (validateActiveLease located.2 submittedToken connectionId now)
    let released : ReleasedLease := { token := located.2.token, reason := .explicit }
    endLease submittedToken.instanceId located.1 submittedToken.leaseId (some {
      requestId := requestId
      submittedToken := submittedToken
      connectionId := connectionId
      released := released })
    return released

def expireToken : SchedulerM ReleasedLease := do
  let s ← get
  let located ← read (s.locateLease submittedToken)
  failIf (located.2.token ≠ submittedToken) leaseMismatch
  failIf (located.2.token.expiresAtMonotonicMs > now) leaseNotExpired
  endLease submittedToken.instanceId located.1 located.2.token.leaseId none
  return { token := located.2.token, reason := .expired }

/-- A lease end the Runtime owns; an explicit release and an expiry are refused here. -/
def releaseOwned (reason : LeaseReleaseReason) : SchedulerM ReleasedLease := do
  let s ← get
  failIf (reason = .explicit ∨ reason = .expired) leaseMismatch
  let located ← read (s.locateLease submittedToken)
  failIf (located.2.token ≠ submittedToken) leaseMismatch
  failIf (located.2.connectionId ≠ connectionId) connectionMismatch
  endLease submittedToken.instanceId located.1 located.2.token.leaseId none
  return { token := located.2.token, reason := reason }

def rollbackLease : SchedulerM Unit := do
  let s ← get
  let located ← read (s.locateLease token)
  failIf (located.2.token ≠ token) leaseMismatch
  endLease token.instanceId located.1 token.leaseId none

/-- One instance's part of `clear_elapsed_cooldowns`. -/
def clearCooldown : InstanceState :=
  if state.cooldownUntilMonotonicMs ≠ 0 ∧ state.cooldownUntilMonotonicMs ≤ now then
    { state with cooldownUntilMonotonicMs := 0 }
  else state

def clearElapsedCooldowns : SchedulerM Bool := do
  let s ← get
  set { s with instances := s.instances.map fun _ state => clearCooldown now state }
  return s.instances.toList.any fun located =>
    located.2.cooldownUntilMonotonicMs ≠ 0 && located.2.cooldownUntilMonotonicMs ≤ now

end SchedulerM

end Scheduler
