import ActingCommand.Scheduler.Operations

/-!
# Runs of the scheduler

A command is one call of a public operation with its arguments. A prepared lease or
transfer can be committed once: the source moves it into the commit and cannot copy
it. A world keeps the ones not yet committed, and every call with its answer.
-/

namespace Scheduler

open SchedulerM

inductive Command
  | acquire (requestId : RequestId) (instanceId : InstanceId) (holderId : HolderId)
      (connectionId : ConnectionId) (now : Nat)
  | prepareAcquire (requestId : RequestId) (instanceId : InstanceId) (holderId : HolderId)
      (connectionId : ConnectionId) (now : Nat)
  | prepareAcquireWithTtl (requestId : RequestId) (instanceId : InstanceId)
      (holderId : HolderId) (connectionId : ConnectionId) (leaseTtlMs now : Nat)
  | prepareClaimAcquire (claim : ClaimRequest) (gate : ClaimGate) (now : Nat)
  | prepareResourceClose (requestId : RequestId) (instanceId : InstanceId)
      (holderId : HolderId) (connectionId : ConnectionId) (now : Nat)
  | prepareDedicatedLease (requestId : RequestId) (instanceId : InstanceId)
      (holderId : HolderId) (connectionId : ConnectionId) (kind : ClaimKind) (gate : ClaimGate)
      (now : Nat)
  | commitAcquire (preparation : LeasePreparation) (now : Nat)
  | requestQueued (request : QueueLeaseRequest) (now : Nat)
  | requestQueuedGated (request : QueueLeaseRequest) (gate : ClaimGate)
      (immediateAllowed : Bool) (now : Nat)
  | enqueueClaim (claim : ClaimRequest) (now : Nat)
  | prepareQueuedGrant (instanceId : InstanceId) (gate : ClaimGate) (now : Nat)
  | pollQueued (requestId : RequestId) (connectionId : ConnectionId) (now : Nat)
  | cancelQueued (requestId : RequestId) (connectionId : ConnectionId)
  | takeExpiredQueued (now : Nat)
  | takeExpiredForInstance (instanceId : InstanceId) (now : Nat)
  | removeQueuedForConnection (connectionId : ConnectionId)
  | removeQueuedForConnectionOnInstance (instanceId : InstanceId) (connectionId : ConnectionId)
  | removeQueuedForInstance (instanceId : InstanceId)
  | removeQueuedForDrain (instanceId : InstanceId)
  | beginDestructiveStep (token : LeaseToken) (connectionId : ConnectionId) (now : Nat)
  | beginResourceClose (token : LeaseToken) (connectionId : ConnectionId) (now : Nat)
  | finishDestructiveStep (witness : FencedWrite) (connectionId : ConnectionId)
  | prepareTransfer (token : LeaseToken) (connectionId : ConnectionId)
      (reason : LeaseTransferReason) (releaseRequestId : Option RequestId) (now : Nat)
  | prepareTransferGated (token : LeaseToken) (connectionId : ConnectionId)
      (reason : LeaseTransferReason) (releaseRequestId : Option RequestId) (gate : ClaimGate)
      (now : Nat)
  | prepareHandOff (token : LeaseToken) (connectionId : ConnectionId)
      (reason : LeaseTransferReason) (claim : ClaimRequest) (gate : ClaimGate) (now : Nat)
  | prepareReleaseHandOff (token : LeaseToken) (connectionId : ConnectionId)
      (releaseRequestId : RequestId) (claim : ClaimRequest) (gate : ClaimGate) (now : Nat)
  | commitTransfer (prepared : PreparedLeaseTransfer) (now : Nat)
  | renewWithTtl (submittedToken : LeaseToken) (connectionId : ConnectionId)
      (leaseTtlMs now : Nat)
  | renew (requestId : RequestId) (submittedToken : LeaseToken) (connectionId : ConnectionId)
      (now : Nat)
  | release (requestId : RequestId) (submittedToken : LeaseToken) (connectionId : ConnectionId)
      (now : Nat)
  | expireToken (submittedToken : LeaseToken) (now : Nat)
  | releaseOwned (submittedToken : LeaseToken) (connectionId : ConnectionId)
      (reason : LeaseReleaseReason)
  | rollbackLease (token : LeaseToken)
  | clearElapsedCooldowns (now : Nat)

inductive Response
  | token (token : LeaseToken)
  | prepared (preparation : LeasePreparation)
  | admitted (outcome : QueueAdmissionOutcome)
  | queued (queued : QueuedLease)
  | grant (prepared : Option PreparedLease)
  | polled (poll : QueuePoll)
  | cancelled (queued : QueuedLease)
  | removed (removed : List QueuedLease)
  | opened (witness : FencedWrite)
  | transfer (preparation : TransferPreparation)
  | released (released : ReleasedLease)
  | cleared (changed : Bool)
  | done
deriving DecidableEq

def exec : Command → SchedulerM Response
  | .acquire requestId instanceId holderId connectionId now =>
    .token <$> acquire requestId instanceId holderId connectionId now
  | .prepareAcquire requestId instanceId holderId connectionId now =>
    .prepared <$> prepareAcquire requestId instanceId holderId connectionId now
  | .prepareAcquireWithTtl requestId instanceId holderId connectionId leaseTtlMs now =>
    .prepared <$> prepareAcquireWithTtl requestId instanceId holderId connectionId leaseTtlMs now
  | .prepareClaimAcquire claim gate now => .prepared <$> prepareClaimAcquire claim gate now
  | .prepareResourceClose requestId instanceId holderId connectionId now =>
    .prepared <$> prepareResourceClose requestId instanceId holderId connectionId now
  | .prepareDedicatedLease requestId instanceId holderId connectionId kind gate now =>
    .prepared <$> prepareDedicatedLease requestId instanceId holderId connectionId kind gate now
  | .commitAcquire preparation now => .token <$> commitAcquire preparation now
  | .requestQueued request now => .admitted <$> requestQueued request now
  | .requestQueuedGated request gate immediateAllowed now =>
    .admitted <$> requestQueuedGated request gate immediateAllowed now
  | .enqueueClaim claim now => .queued <$> enqueueClaim claim now
  | .prepareQueuedGrant instanceId gate now => .grant <$> prepareQueuedGrant instanceId gate now
  | .pollQueued requestId connectionId now => .polled <$> pollQueued requestId connectionId now
  | .cancelQueued requestId connectionId => .cancelled <$> cancelQueued requestId connectionId
  | .takeExpiredQueued now => .removed <$> takeExpiredQueued now
  | .takeExpiredForInstance instanceId now => .removed <$> takeExpiredForInstance instanceId now
  | .removeQueuedForConnection connectionId => .removed <$> removeQueuedForConnection connectionId
  | .removeQueuedForConnectionOnInstance instanceId connectionId =>
    .removed <$> removeQueuedForConnectionOnInstance instanceId connectionId
  | .removeQueuedForInstance instanceId => .removed <$> removeQueuedForInstance instanceId
  | .removeQueuedForDrain instanceId => .removed <$> removeQueuedForDrain instanceId
  | .beginDestructiveStep token connectionId now =>
    .opened <$> beginDestructiveStep token connectionId now
  | .beginResourceClose token connectionId now =>
    .opened <$> beginResourceClose token connectionId now
  | .finishDestructiveStep witness connectionId =>
    (fun _ => .done) <$> finishDestructiveStep witness connectionId
  | .prepareTransfer token connectionId reason releaseRequestId now =>
    .transfer <$> prepareTransfer token connectionId reason releaseRequestId now
  | .prepareTransferGated token connectionId reason releaseRequestId gate now =>
    .transfer <$> prepareTransferGated token connectionId reason releaseRequestId gate now
  | .prepareHandOff token connectionId reason claim gate now =>
    .transfer <$> prepareHandOff token connectionId reason claim gate now
  | .prepareReleaseHandOff token connectionId releaseRequestId claim gate now =>
    .transfer <$> prepareReleaseHandOff token connectionId releaseRequestId claim gate now
  | .commitTransfer prepared now => .token <$> commitTransfer prepared now
  | .renewWithTtl submittedToken connectionId leaseTtlMs now =>
    .token <$> renewWithTtl submittedToken connectionId leaseTtlMs now
  | .renew requestId submittedToken connectionId now =>
    .token <$> renew requestId submittedToken connectionId now
  | .release requestId submittedToken connectionId now =>
    .released <$> release requestId submittedToken connectionId now
  | .expireToken submittedToken now => .released <$> expireToken submittedToken now
  | .releaseOwned submittedToken connectionId reason =>
    .released <$> releaseOwned submittedToken connectionId reason
  | .rollbackLease token => (fun _ => .done) <$> rollbackLease token
  | .clearElapsedCooldowns now => .cleared <$> clearElapsedCooldowns now

/-- The instant a command is called at; the commands that read no clock have none. -/
def Command.instant : Command → Option Nat
  | .acquire _ _ _ _ now | .prepareAcquire _ _ _ _ now | .prepareAcquireWithTtl _ _ _ _ _ now
  | .prepareClaimAcquire _ _ now | .prepareResourceClose _ _ _ _ now
  | .prepareDedicatedLease _ _ _ _ _ _ now | .commitAcquire _ now | .requestQueued _ now
  | .requestQueuedGated _ _ _ now | .enqueueClaim _ now | .prepareQueuedGrant _ _ now
  | .pollQueued _ _ now | .takeExpiredQueued now | .takeExpiredForInstance _ now
  | .beginDestructiveStep _ _ now | .beginResourceClose _ _ now | .prepareTransfer _ _ _ _ now
  | .prepareTransferGated _ _ _ _ _ now | .prepareHandOff _ _ _ _ _ now
  | .prepareReleaseHandOff _ _ _ _ _ now | .commitTransfer _ now | .renewWithTtl _ _ _ now
  | .renew _ _ _ now | .release _ _ _ now | .expireToken _ now
  | .clearElapsedCooldowns now => some now
  | .cancelQueued _ _ | .removeQueuedForConnection _ | .removeQueuedForConnectionOnInstance _ _
  | .removeQueuedForInstance _ | .removeQueuedForDrain _ | .finishDestructiveStep _ _
  | .releaseOwned _ _ _ | .rollbackLease _ => none

/-! ## Worlds -/

/-- A prepared grant or transfer that no commit has consumed. -/
inductive Outstanding
  | lease (prepared : PreparedLease)
  | transfer (prepared : PreparedLeaseTransfer)
deriving DecidableEq

/-- The identifier the preparation minted. -/
def Outstanding.leaseId : Outstanding → LeaseId
  | .lease prepared => prepared.token.leaseId
  | .transfer prepared => prepared.toToken.leaseId

/-- What a commit moves out of the caller's hands. -/
def Command.consumes : Command → List Outstanding
  | .commitAcquire (.new prepared) _ => [.lease prepared]
  | .commitTransfer prepared _ => [.transfer prepared]
  | _ => []

/-- What an answer puts into the caller's hands. -/
def Response.produces : Response → List Outstanding
  | .prepared (.new held) => [.lease held]
  | .admitted ⟨.lease (.new held), _⟩ => [.lease held]
  | .grant (some held) => [.lease held]
  | .transfer (.ready held) => [.transfer held]
  | _ => []

def produced : SchedulerResult Response → List Outstanding
  | .ok response => response.produces
  | .error _ => []

structure World where
  scheduler : SeedScheduler
  outstanding : List Outstanding
  /-- Every call with its answer, the newest first. -/
  history : List (Command × SchedulerResult Response)

namespace World

def start (scheduler : SeedScheduler) : World := ⟨scheduler, [], []⟩

variable (w : World) (command : Command)

/-- The caller holds what the command consumes. -/
def Legal : Prop :=
  ∀ o ∈ command.consumes, o ∈ w.outstanding

instance (w : World) (command : Command) : Decidable (w.Legal command) :=
  inferInstanceAs (Decidable (∀ o ∈ command.consumes, o ∈ w.outstanding))

def answer : SchedulerResult Response :=
  ((exec command).runOn w.scheduler).1

def step : World where
  scheduler := ((exec command).runOn w.scheduler).2
  outstanding := produced (w.answer command) ++ w.outstanding.diff command.consumes
  history := (command, w.answer command) :: w.history

lemma step_steps :
    Call.Steps (exec command) w.scheduler (w.answer command) (w.step command).scheduler := rfl

variable {w command} in
lemma steps_of_answer {α : Type} {m : SchedulerM α} {wrap : α → Response} {response}
    (runs : exec command = wrap <$> m) (answered : w.answer command = .ok response) :
    ∃ a, wrap a = response ∧ Call.Steps m w.scheduler (.ok a) (w.step command).scheduler := by
  have ran := w.step_steps command
  rw [runs, answered] at ran
  obtain ⟨q, step, same⟩ := Call.steps_map.mp ran
  cases q with
  | error => cases same
  | ok a => exact ⟨a, (Except.ok.inj same).symm, step⟩

/-- The second world follows the first by legal commands. -/
inductive Continues (w : World) : World → Prop
  | refl : Continues w w
  | step {v : World} {command : Command} (run : Continues w v) (legal : v.Legal command) :
      Continues w (v.step command)

lemma Continues.trans {u v w : World} (first : Continues u v) (second : Continues v w) :
    Continues u w := by
  induction second with
  | refl => exact first
  | step _ legal ih => exact ih.step legal

def run (w : World) : List Command → World
  | [] => w
  | command :: rest => (w.step command).run rest

def LegalRun (w : World) : List Command → Prop
  | [] => True
  | command :: rest => w.Legal command ∧ (w.step command).LegalRun rest

instance decidableLegalRun : (w : World) → (commands : List Command) →
    Decidable (w.LegalRun commands)
  | _, [] => inferInstanceAs (Decidable True)
  | w, command :: rest =>
    have := decidableLegalRun (w.step command) rest
    inferInstanceAs (Decidable (w.Legal command ∧ (w.step command).LegalRun rest))

lemma continues_run {w : World} {commands : List Command} (legal : w.LegalRun commands) :
    Continues w (w.run commands) := by
  induction commands generalizing w with
  | nil => exact .refl
  | cons command rest ih =>
    obtain ⟨here, later⟩ := legal
    exact (Continues.refl.step here).trans (ih later)

/-- The worlds of every run from `new`. -/
def Reachable : Prop :=
  ∃ (ownerEpoch : OwnerEpoch) (config : SchedulerConfig) (takeover : List InstanceId)
    (nameSpace : Option Nat) (now : Nat) (s : SeedScheduler),
    SeedScheduler.new ownerEpoch config takeover nameSpace now = .ok s ∧ Continues (start s) w

lemma Reachable.step {w : World} {command : Command} (reachable : Reachable w)
    (legal : w.Legal command) : Reachable (w.step command) := by
  obtain ⟨epoch, config, takeover, nameSpace, now, s, made, run⟩ := reachable
  exact ⟨epoch, config, takeover, nameSpace, now, s, made, run.step legal⟩

lemma Reachable.continues {w v : World} (reachable : Reachable w) (run : Continues w v) :
    Reachable v := by
  obtain ⟨epoch, config, takeover, nameSpace, now, s, made, first⟩ := reachable
  exact ⟨epoch, config, takeover, nameSpace, now, s, made, first.trans run⟩

/-- What holds of a new scheduler and survives every legal command holds in every
reachable world. -/
theorem Reachable.invariant {w : World} (reachable : Reachable w) (Inv : World → Prop)
    (initial : ∀ ownerEpoch config takeover nameSpace now s,
      SeedScheduler.new ownerEpoch config takeover nameSpace now = .ok s → Inv (start s))
    (preserved : ∀ v command, Inv v → v.Legal command → Inv (v.step command)) : Inv w := by
  obtain ⟨epoch, config, takeover, nameSpace, now, s, made, run⟩ := reachable
  induction run with
  | refl => exact initial _ _ _ _ _ _ made
  | step _ legal ih => exact preserved _ _ ih legal

end World

/-! ## A scheduler to evaluate on -/

namespace Sample

def ownerEpoch : OwnerEpoch := ⟨7⟩

def scheduler : SeedScheduler where
  ownerEpoch := ownerEpoch
  config := SchedulerConfig.default
  leaseIssuer := { nameSpace := 3, nextSequence := 1 }
  instances := ∅
  leaseLocations := ∅
  nextArrivalSequence := 1
  nextStepId := 1

def world : World := World.start scheduler

lemma new_eq :
    SeedScheduler.new ownerEpoch SchedulerConfig.default [] (some 3) 0 = .ok scheduler := rfl

def instanceId : InstanceId := ⟨1⟩

def connection : ConnectionId := ⟨1, by decide⟩

def otherConnection : ConnectionId := ⟨2, by decide⟩

/-- The token of the first lease granted at instant zero. -/
def token : LeaseToken where
  ownerEpoch := ownerEpoch
  leaseId := ⟨3 * 2 ^ 64 + 1⟩
  instanceId := instanceId
  holderId := ⟨1⟩
  expiresAtMonotonicMs := 120000

/-- A client takes the instance. -/
def acquire : Command := .acquire ⟨1⟩ instanceId ⟨1⟩ connection 0

/-- The holder gives it back. -/
def release : Command := .release ⟨3⟩ token connection 10

/-- Another client takes it afterwards. -/
def acquireNext : Command := .acquire ⟨4⟩ instanceId ⟨2⟩ otherConnection 20

/-- Another client queues for it with high priority. -/
def queueHigh : Command := .requestQueued ⟨⟨2⟩, instanceId, ⟨2⟩, otherConnection, .high, 1000⟩ 5

/-- A preemption of the holder is prepared, and the holder then closes its resources. -/
def closing : List Command :=
  [acquire, queueHigh, .prepareTransfer token connection .preempted none 10,
    .beginResourceClose token connection 20]

lemma reachable {commands : List Command} (legal : world.LegalRun commands) :
    (world.run commands).Reachable :=
  ⟨_, _, _, _, _, scheduler, new_eq, World.continues_run legal⟩

end Sample

end Scheduler
