import ActingCommand.Call
import ActingCommand.Scheduler.Types

/-!
# The scheduler's state and what it answers without changing it

One record per instance (its lease, its last release, its takeover cooldown and its
queue), the index from lease identifiers to instances, and the counters. The
functions here are the ones the source gives a shared reference to the scheduler:
they validate, locate and report.
-/

namespace Scheduler

open Machine Call SchedulerError

structure InstanceState where
  lease : Option LeaseEntry := none
  lastRelease : Option ReleaseRecord := none
  cooldownUntilMonotonicMs : Nat := 0
  queue : List QueueEntry := []

/-- The record a map of instances gives; one it does not hold has the default record. -/
def recordAt (instances : Std.ExtTreeMap InstanceId InstanceState) (instanceId : InstanceId) :
    InstanceState :=
  instances[instanceId]?.getD {}

structure SeedScheduler where
  ownerEpoch : OwnerEpoch
  config : SchedulerConfig
  leaseIssuer : IdentifierIssuer
  instances : Std.ExtTreeMap InstanceId InstanceState
  leaseLocations : Std.ExtTreeMap LeaseId InstanceId
  nextArrivalSequence : Nat
  nextStepId : Nat

/-! ## One instance -/

/-- The holder-owned continuation first, then high before normal, then arrival order. -/
def compareQueued (left right : QueueEntry) : Ordering :=
  ((compare right.kind.holderOwned left.kind.holderOwned).then
    (compare right.priority left.priority)).then
    (compare left.arrivalSequence right.arrivalSequence)

variable (lease : LeaseEntry) (queue : List QueueEntry) (state : InstanceState)

/-- A stable sort, as `sort_by` is. -/
def sortQueue : List QueueEntry :=
  queue.insertionSort (fun left right => compareQueued left right ≠ .gt)

def firstEligible (gate : ClaimGate) (now : Nat) : Option (Fin state.queue.length) :=
  state.queue.findFinIdx? (fun entry => entry.eligible gate now)

/-- `u32::try_from(position)` and then `checked_add(1)`. -/
def oneBased (position : Nat) : Option Nat :=
  if position + 1 ≤ u32Max then some (position + 1) else none

def queueAhead (position : Fin state.queue.length) : SchedulerError :=
  .queueAhead state.queue[position].kind ((oneBased position).getD u32Max)

/-- Whether the head of the queue asks for the lease: only a client entry does. -/
def preemptWanted : Bool :=
  match queue.head? with
  | some queued => queued.mayPreempt && decide (lease.priority < queued.priority)
  | none => false

def refreshPreemptRequested : InstanceState :=
  { state with lease := state.lease.map fun lease =>
      { lease with preemptRequested := preemptWanted lease state.queue } }

/-- The description of a waiting entry at its one-based position. -/
def describeQueued (instanceId : InstanceId) (entry : QueueEntry) (position : Nat) :
    QueuedLease where
  requestId := entry.requestId
  instanceId := instanceId
  holderId := entry.holderId
  connectionId := entry.connectionId
  priority := entry.priority
  position := position
  deadlineMonotonicMs := entry.deadlineMonotonicMs
  preemptRequested := entry.mayPreempt &&
    state.lease.any fun lease => decide (lease.priority < entry.priority)
  kind := entry.kind

def queuedAtPosition (instanceId : InstanceId) (position : Nat) : SchedulerResult QueuedLease := do
  let entry ← okOr state.queue[position]? queueMissing
  let position ← okOr (oneBased position) queueSequenceOverflow
  return describeQueued state instanceId entry position

def queuedByRequest (instanceId : InstanceId) (requestId : RequestId) :
    SchedulerResult QueuedLease := do
  let position ← okOr (state.queue.findIdx? fun entry => entry.requestId = requestId)
    queueMissing
  queuedAtPosition state instanceId position

/-- The removal loop over one queue: `kept` is the part before the loop's position, the
second list the part from it on. A failure leaves the queue as the loop found it. -/
def sweepQueue (drop : QueueEntry → Bool) (state : InstanceState) (instanceId : InstanceId) :
    List QueueEntry → List QueueEntry → List QueuedLease →
      SchedulerResult (List QueuedLease) × List QueueEntry
  | kept, [], removed => (.ok removed, kept)
  | kept, entry :: rest, removed =>
    if drop entry then
      match queuedAtPosition { state with queue := kept ++ entry :: rest } instanceId
          kept.length with
      | .error e => (.error e, kept ++ entry :: rest)
      | .ok queued => sweepQueue drop state instanceId kept rest (removed ++ [queued])
    else sweepQueue drop state instanceId (kept ++ [entry]) rest removed

def validateActiveLease (submittedToken : LeaseToken) (connectionId : ConnectionId) (now : Nat) :
    SchedulerResult Unit := do
  failIf (lease.token.instanceId ≠ submittedToken.instanceId) instanceMismatch
  failIf (lease.token.leaseId ≠ submittedToken.leaseId) leaseMismatch
  failIf (lease.token.holderId ≠ submittedToken.holderId) holderMismatch
  failIf (lease.connectionId ≠ connectionId) connectionMismatch
  failIf (lease.token.expiresAtMonotonicMs ≤ now) leaseExpired
  failIf (lease.token ≠ submittedToken) leaseMismatch

namespace SeedScheduler

variable (s : SeedScheduler)

variable (instanceId : InstanceId)

def setInstance (state : InstanceState) : SeedScheduler :=
  { s with instances := s.instances.insert instanceId state }

/-- `instances.entry(instance_id).or_default()`, as far as it writes. -/
def ensureInstance : SeedScheduler :=
  { s with instances := s.instances.insertIfNew instanceId {} }

def stateAt : InstanceState := recordAt s.instances instanceId

/-- The lease held on an instance. -/
def leaseOf : Option LeaseEntry :=
  (s.instances[instanceId]?).bind (·.lease)

/-! ## Validation -/

/-- A requested TTL lies above the heartbeat interval and at most one heartbeat interval
above the longest response deadline. -/
def validateClaimTtl (leaseTtlMs : Nat) : SchedulerResult Unit := do
  let maximumLeaseTtlMs ← okOr
    (checkedAdd maxResponseDeadlineMs s.config.maximumClientHeartbeatIntervalMs)
    expiryOverflow
  failIf (leaseTtlMs ≤ s.config.maximumClientHeartbeatIntervalMs ∨ leaseTtlMs > maximumLeaseTtlMs)
    invalidConfig

variable (gate : ClaimGate) (now : Nat) (requestId : RequestId) (submittedToken token : LeaseToken)
  (connectionId : ConnectionId)

def expiryFromTtl (leaseTtlMs : Nat) : SchedulerResult Nat :=
  okOr (checkedAdd now leaseTtlMs) expiryOverflow

def validateEpoch : SchedulerResult Unit :=
  failIf (token.ownerEpoch ≠ s.ownerEpoch) staleOwnerEpoch

def locateTokenInstance : SchedulerResult InstanceId := do
  let located ← okOr s.leaseLocations[token.leaseId]?
    (if s.instances[token.instanceId]?.any fun state => state.cooldownUntilMonotonicMs > 0 then
      leaseMissing
    else leaseMismatch)
  failIf (located ≠ token.instanceId) instanceMismatch
  return located

/-- Whether the instance, if the scheduler knows it, is out of its cooldown. -/
def validateCooled : SchedulerResult Unit :=
  match s.instances[instanceId]? with
  | some state =>
    failIf (state.cooldownUntilMonotonicMs > now)
      (cooldown (state.cooldownUntilMonotonicMs - now))
  | none => pure ()

def validateCurrentLease (now : Nat) : SchedulerResult LeaseEntry := do
  s.validateEpoch token
  s.validateCooled token.instanceId now
  let instanceId ← s.locateTokenInstance token
  let state ← okOr s.instances[instanceId]? leaseMissing
  failIf (state.cooldownUntilMonotonicMs > now)
    (cooldown (state.cooldownUntilMonotonicMs - now))
  let lease ← okOr state.lease leaseMissing
  validateActiveLease lease token connectionId now
  return lease

def validateWrite (now : Nat) : SchedulerResult Unit := do
  let lease ← s.validateCurrentLease token connectionId now
  failIf (lease.resourceCloseOnly = true) resourceCloseOnly

def validateDestructiveStep (witness : FencedWrite) (connectionId : ConnectionId) (now : Nat) :
    SchedulerResult Unit := do
  let lease ← s.validateCurrentLease witness.token connectionId now
  failIf (witness.connectionId ≠ connectionId.value ∨
      lease.destructiveStep ≠ some (witness.stepId, witness.purpose))
    destructiveStateMismatch

/-- The instance and the lease a token names: its epoch, its place in the index and the
lease found there. -/
def locateLease : SchedulerResult (InstanceState × LeaseEntry) := do
  s.validateEpoch token
  let instanceId ← s.locateTokenInstance token
  let state ← okOr s.instances[instanceId]? leaseMissing
  let lease ← okOr state.lease leaseMissing
  return (state, lease)

def transferableLease : SchedulerResult LeaseEntry := do
  let located ← s.locateLease token
  failIf (located.2.token ≠ token) leaseMismatch
  failIf (located.2.connectionId ≠ connectionId) connectionMismatch
  return located.2

/-- A ladder continuation is queued only by the current holder of its instance. -/
def validateContinuation (claim : ClaimRequest) : SchedulerResult Unit :=
  if claim.kind.holderOwned = true then do
    let holder ← okOr (s.leaseOf claim.instanceId) leaseMissing
    failIf (holder.token.holderId ≠ claim.holderId) holderMismatch
  else pure ()

/-! ## Replays -/

/-- The most recent matching renew result. -/
def replayedRenew : SchedulerResult (Option LeaseToken) := do
  s.validateEpoch submittedToken
  match s.leaseOf submittedToken.instanceId with
  | none => return none
  | some lease =>
    match lease.lastRenew.filter fun record => record.requestId = requestId with
    | none => return none
    | some record =>
      failIf (record.submittedToken ≠ submittedToken) leaseMismatch
      failIf (lease.connectionId ≠ connectionId) connectionMismatch
      return some record.renewedToken

/-- The most recent matching release result. -/
def replayedRelease : SchedulerResult (Option ReleasedLease) := do
  s.validateEpoch submittedToken
  match ((s.instances[submittedToken.instanceId]?).bind (·.lastRelease)).filter
      fun record => record.requestId = requestId with
  | none => return none
  | some record =>
    failIf (record.submittedToken ≠ submittedToken) leaseMismatch
    failIf (record.connectionId ≠ connectionId) connectionMismatch
    return some record.released

/-- What a queue request already came to on one of these instances, in instance order: the
lease it holds or the entry it waits as. -/
def replayQueueRequestIn (request : QueueLeaseRequest) :
    List (InstanceId × InstanceState) → SchedulerResult (Option QueueAdmissionDecision)
  | [] => pure none
  | (candidate, state) :: rest =>
    match state.lease.filter fun lease => lease.acquireRequestId = request.requestId with
    | some lease => do
      failIf (candidate ≠ request.instanceId ∨ lease.token.holderId ≠ request.holderId ∨
          lease.priority ≠ request.priority)
        queueRequestMismatch
      failIf (lease.connectionId ≠ request.connectionId) queueConnectionMismatch
      return some (.lease (.existing lease.token))
    | none =>
      match state.queue.findFinIdx? fun entry => entry.requestId = request.requestId with
      | some position => do
        let queued := state.queue[position]
        failIf (candidate ≠ request.instanceId ∨ queued.holderId ≠ request.holderId ∨
            queued.priority ≠ request.priority)
          queueRequestMismatch
        failIf (queued.connectionId ≠ request.connectionId)
          queueConnectionMismatch
        let queued ← queuedAtPosition state candidate position
        return some (.queued queued)
      | none => replayQueueRequestIn request rest

def replayQueueRequest (request : QueueLeaseRequest) :
    SchedulerResult (Option QueueAdmissionDecision) :=
  replayQueueRequestIn request s.instances.toList

/-! ## Where a request holds or waits -/

def findLease : Option LeaseEntry :=
  s.instances.toList.findSome? fun located =>
    located.2.lease.filter fun lease => lease.acquireRequestId = requestId

def locateQueued : Option (InstanceId × Nat) :=
  s.instances.toList.findSome? fun located =>
    (located.2.queue.findIdx? fun entry => entry.requestId = requestId).map
      fun position => (located.1, position)

/-- Whether some lease was acquired by the request or some queue holds it. -/
def requestKnown : Bool :=
  s.instances.toList.any fun located =>
    located.2.lease.any (fun lease => lease.acquireRequestId = requestId) ||
      located.2.queue.any fun entry => entry.requestId = requestId

/-! ## Reports -/

def activeLease : Option ActiveLease :=
  (s.leaseOf instanceId).map fun lease =>
    { token := lease.token
      connectionId := lease.connectionId
      priority := lease.priority
      destructiveStepActive := lease.destructiveStep.isSome
      preemptRequested := lease.preemptRequested
      kind := lease.kind }

/-- The kind of the first entry the gate lets through, whether or not the instance is held. -/
def firstEligibleKind : Option ClaimKind :=
  (s.instances[instanceId]?).bind fun state =>
    (firstEligible state gate now).map fun position => state.queue[position].kind

/-- What is read of the entry the pump would grant now: the instance is free and out of its
cooldown, and an eligible entry waits. -/
def grantCandidateOf {α : Type} (read : QueueEntry → α) (instanceId : InstanceId)
    (gate : ClaimGate) (now : Nat) : Option α :=
  (s.instances[instanceId]?).bind fun state =>
    if state.lease ≠ none ∨ state.cooldownUntilMonotonicMs > now then none
    else (firstEligible state gate now).map fun position => read state.queue[position]

def grantCandidate : Option ClaimKind :=
  s.grantCandidateOf QueueEntry.kind instanceId gate now

def grantCandidateRequest : Option RequestId :=
  s.grantCandidateOf QueueEntry.requestId instanceId gate now

/-- How long the takeover cooldown still runs, if it does. -/
def cooldownRemainingMs : Option Nat :=
  ((s.instances[instanceId]?).bind fun state =>
    if now ≤ state.cooldownUntilMonotonicMs then some (state.cooldownUntilMonotonicMs - now)
    else none).filter fun remainingMs => remainingMs > 0

def eligibleCount : Nat :=
  (s.instances[instanceId]?).elim 0 fun state =>
    state.queue.countP fun entry => entry.eligible gate now

/-- The entries that refuse a dedicated lease: those the gate lets through, except the
holding ladder's own continuation. -/
def refusingCount : Nat :=
  (s.instances[instanceId]?).elim 0 fun state =>
    state.queue.countP fun entry => entry.eligible gate now && !entry.kind.holderOwned

end SeedScheduler

end Scheduler
