import ActingCommand.Scheduler.Effects

/-!
# What any command comes to

Every command fails and changes nothing, settles the scheduler and hands out what it prepared,
changes one lease, takes entries out of queues, or queues one. `exec_ran` says so once for all
commands; what a call does to the leases, to the queues and to the invariants is read off from it.
-/

namespace Scheduler

open Machine Call SchedulerM List

variable {s t u : SeedScheduler} {scope : Scope} {command : Command}
  {r : SchedulerResult Response}

/-! ## What a command is about -/

section

variable (command : Command) (answer : SchedulerResult Response) (lease : LeaseEntry)

def Command.Grants (p : PreparedLease) : Prop :=
  answer = .ok (.token p.token) ∧
    ((∃ now, command = .commitAcquire (.new p) now) ∨
      (∃ requestId holderId connectionId now,
        command = .acquire requestId p.token.instanceId holderId connectionId now) ∧
        p.kind = .clientLease ∧ p.fromQueue = false)

/-- The call renews the lease it carries the token of; `renew` alone keeps a replay. -/
def Command.Renews (renewed : LeaseToken) (record : Option RenewRecord) : Prop :=
  answer = .ok (.token renewed) ∧
    ((∃ requestId now, command = .renew requestId lease.token lease.connectionId now ∧
        record = some ⟨requestId, lease.token, renewed⟩) ∨
      (∃ leaseTtlMs now, command = .renewWithTtl lease.token lease.connectionId leaseTtlMs now ∧
        record = lease.lastRenew))

/-- The call ends the lease it carries the token of; `release` alone keeps a replay. -/
def Command.Ends (record : Option ReleaseRecord) : Prop :=
  (∃ requestId now, command = .release requestId lease.token lease.connectionId now ∧
      answer = .ok (.released ⟨lease.token, .explicit⟩) ∧
      record = some ⟨requestId, lease.token, lease.connectionId, ⟨lease.token, .explicit⟩⟩) ∨
    ((∃ now, command = .expireToken lease.token now) ∨
      (∃ connectionId reason, command = .releaseOwned lease.token connectionId reason) ∨
      command = .rollbackLease lease.token) ∧ (∃ response, answer = .ok response) ∧ record = none

/-- The call opens the step. -/
def Command.Opens (witness : FencedWrite) : Prop :=
  answer = .ok (.opened witness) ∧ ∃ connectionId now,
    witness.connectionId = connectionId.value ∧
    (command = .beginDestructiveStep witness.token connectionId now ∨
      command = .beginResourceClose witness.token connectionId now)

/-- The call is a queue request at that instant, behind whatever gate. -/
def Command.Requests (request : QueueLeaseRequest) (now : Nat) : Prop :=
  command = .requestQueued request now ∨
    ∃ gate immediateAllowed, command = .requestQueuedGated request gate immediateAllowed now

/-- The entries a call answers for: the one it granted, transferred or cancelled, the ones it
lists, or the caller's own on a queue-expired error. -/
def accounted : List RequestId :=
  match command, answer with
  | .commitAcquire (.new prepared) _, .ok _ =>
    if prepared.fromQueue then [prepared.acquireRequestId] else []
  | .commitTransfer prepared _, .ok _ =>
    if prepared.handOff then [] else [prepared.queued.requestId]
  | .pollQueued requestId _ _, .error .queueExpired => [requestId]
  | .requestQueued request _, .error .queueExpired
  | .requestQueuedGated request _ _ _, .error .queueExpired => [request.requestId]
  | _, .ok (.cancelled queued) => [queued.requestId]
  | _, .ok (.removed removed) => removed.map QueuedLease.requestId
  | _, .ok (.admitted outcome) => outcome.expired.map QueuedLease.requestId
  | _, _ => []

end

/-- The request ids name the entries that left, each once. -/
abbrev Departs (s t : SeedScheduler) (requestIds : List RequestId) : Prop :=
  Keyed.Departed QueueEntry.requestId (queues s) (queues t) requestIds

/-! ## The ways a call can end -/

variable (s command r) in
inductive Ran
    (t : SeedScheduler) : Prop
  | failed (e : SchedulerError) (answer : r = .error e) (same : t = s)
      (names : accounted command r = [])
  | settled (calm : Calm s t) (consumes : command.consumes = [])
      (names : accounted command r = [])
      (handed : produced r = [] ∨
        ∃ o, produced r = [o] ∧ MintedBetween s t o.leaseId ∧ WellPrepared o)
  | granted (u : SeedScheduler) (p : PreparedLease) (queue : List QueueEntry) (now : Nat)
      (instant : command.instant = some now) (grants : command.Grants r p) (calm : Calm s u)
      (origin : command.consumes = [.lease p] ∧ u = s ∨
        command.consumes = [] ∧ p.fromQueue = false ∧ MintedBetween s u p.token.leaseId)
      (names : accounted command r = if p.fromQueue then [p.acquireRequestId] else [])
      (epoch : p.token.ownerEpoch = u.ownerEpoch)
      (cooled : (u.stateAt p.token.instanceId).cooldownUntilMonotonicMs ≤ now)
      (free : (u.stateAt p.token.instanceId).lease = none)
      (after : queueAfterGrant p (u.stateAt p.token.instanceId).queue = some queue)
      (written : t = { u.setInstance p.token.instanceId
          (grantedState (u.stateAt p.token.instanceId) p queue) with
        leaseLocations := u.leaseLocations.insert p.token.leaseId p.token.instanceId })
  | transferred (p : PreparedLeaseTransfer) (queue : List QueueEntry) (now : Nat)
      (commits : command = .commitTransfer p now) (answer : r = .ok (.token p.toToken))
      (epoch : p.toToken.ownerEpoch = s.ownerEpoch)
      (held : (s.stateAt p.source.token.instanceId).lease = some p.source)
      (after : queueAfterTransfer p (s.stateAt p.source.token.instanceId).queue = some queue)
      (written : t = { s.setInstance p.source.token.instanceId
          (transferredState (s.stateAt p.source.token.instanceId) p queue (transferRecord p)) with
        leaseLocations := (s.leaseLocations.erase p.source.token.leaseId).insert
          p.toToken.leaseId p.source.token.instanceId })
  | renewed (lease : LeaseEntry) (token : LeaseToken) (record : Option RenewRecord)
      (renews : command.Renews r lease token record) (becomes : RenewsTo lease token record s t)
  | opened (lease : LeaseEntry) (witness : FencedWrite) (opens : command.Opens r witness)
      (held : (s.stateAt witness.token.instanceId).lease = some lease)
      (idle : lease.destructiveStep = none) (next : witness.stepId.value = s.nextStepId)
      (written : t = { s.setInstance witness.token.instanceId
          { s.stateAt witness.token.instanceId with
            lease := some { lease with
              destructiveStep := some (witness.stepId, witness.purpose) } } with
        nextStepId := s.nextStepId + 1 })
  | closed (lease : LeaseEntry) (witness : FencedWrite)
      (closes : command = .finishDestructiveStep witness lease.connectionId)
      (answer : r = .ok .done) (opened : witness.Opened lease.connectionId lease)
      (held : (s.stateAt witness.token.instanceId).lease = some lease)
      (written : t = s.setInstance witness.token.instanceId
        { s.stateAt witness.token.instanceId with
          lease := some { lease with destructiveStep := none } })
  | ended (lease : LeaseEntry) (record : Option ReleaseRecord)
      (ends : command.Ends r lease record) (nothing : produced r = [])
      (names : accounted command r = [])
      (held : (s.stateAt lease.token.instanceId).lease = some lease)
      (written : t = { s.setInstance lease.token.instanceId
          { s.stateAt lease.token.instanceId with lease := none, lastRelease := record } with
        leaseLocations := s.leaseLocations.erase lease.token.leaseId })
  | dequeued (shrinks : Relation.ReflTransGen Shrinks s t) (consumes : command.consumes = [])
      (nothing : produced r = []) (expired : ∀ e, r = .error e → e = .queueExpired)
      (departs : Keyed.Distinct QueueEntry.requestId (queues s) →
        Departs s t (accounted command r))
  | enqueued (claim : ClaimRequest) (now : Nat) (q : SchedulerResult QueuedLease)
      (enqueues : command = .enqueueClaim claim now) (answer : r = q.map .queued)
      (fresh : Unqueued claim.requestId s)
      (inserts : Inserts claim.instanceId (claimEntry claim) s q t)
  | requested (request : QueueLeaseRequest) (gate : ClaimGate) (now : Nat)
      (q : SchedulerResult QueueAdmissionOutcome) (requests : command.Requests request now)
      (answer : r = q.map .admitted) (requested : QueueRequested s request gate now q t)

/-! ## Departures -/

lemma departs_none (same : ∀ i, queues t i = queues s i) : Departs s t [] :=
  Keyed.Departed.none fun i entry waiting => by rw [same i]; exact waiting

/-- An entry taken out of its record by its position departs. -/
theorem departs_erase {i} {position : Nat} {entry state}
    (distinct : Keyed.Distinct QueueEntry.requestId (queues s))
    (found : (s.stateAt i).queue[position]? = some entry)
    (written : t.instances = s.instances.insert i state)
    (erased : state.queue = (s.stateAt i).queue.eraseIdx position) :
    Departs s t [entry.requestId] := by
  have after := (writes_insert s i state).queues written
  refine Keyed.Departed.erase distinct found ?_ fun j other => ?_
  · rw [after i, if_pos rfl, erased]
    rfl
  · rw [after j, if_neg other]

variable {requestId : RequestId}

lemma Takes.departs (takes : Takes requestId s t)
    (distinct : Keyed.Distinct QueueEntry.requestId (queues s)) : Departs s t [requestId] := by
  obtain ⟨i, position, entry, found, rfl, rfl⟩ := takes
  exact departs_erase distinct found rfl rfl

lemma Ran.of_takes (takes : Takes requestId s t) (consumes : command.consumes = [])
    (nothing : produced r = []) (expired : ∀ e, r = .error e → e = .queueExpired)
    (names : accounted command r = [requestId]) : Ran s command r t :=
  .dequeued (.single takes.shrinks) consumes nothing expired
    fun distinct => names ▸ takes.departs distinct

/-- A sweep reports what it takes out. -/
theorem Ran.of_sweep {drop ids q} (bounded : Bounded s) (nodup : ids.Nodup)
    (step : Steps (sweepInstances drop ids) s q t) (consumes : command.consumes = [])
    (names : ∀ removed, accounted command (.ok (.removed removed)) =
      removed.map QueuedLease.requestId) : Ran s command (q.map .removed) t := by
  obtain ⟨removed, rfl, shrinks, swept, named⟩ := sweepInstances_steps bounded nodup step
  refine .dequeued shrinks consumes rfl (by simp [Except.map]) fun distinct => ?_
  change Departs s t (accounted command (.ok (.removed removed)))
  rw [names, named]
  exact Keyed.Departed.sweep distinct nodup swept

/-! ## Preparations and commits -/

lemma Ran.of_preparation {q : SchedulerResult LeasePreparation} (calm : Calm s t)
    (consumes : command.consumes = []) (names : accounted command (q.map .prepared) = [])
    (minted : ∀ p, q = .ok (.new p) → MintedBetween s t p.token.leaseId) :
    Ran s command (q.map .prepared) t := by
  refine .settled calm consumes names ?_
  match q, minted with
  | .error _, _ | .ok (.existing _), _ => exact .inl rfl
  | .ok (.new p), minted => exact .inr ⟨.lease p, rfl, minted p rfl, trivial⟩

variable {connectionId : ConnectionId}

lemma Acquired.minted {instanceId holderId policy} {now : Nat} {q p}
    (acquired : Acquired s requestId instanceId holderId connectionId policy now q t)
    (made : q = .ok (.new p)) :
    FreshLease s requestId instanceId policy now p ∧ MintedBetween s t p.token.leaseId := by
  subst made
  rcases acquired with ⟨_, ⟨⟩, _⟩ | ⟨_, ⟨⟩, _⟩ | ⟨_, ⟨⟩, _⟩ | ⟨_, ⟨⟩, _⟩ | ⟨⟨⟩, _⟩ | ⟨_, ⟨⟩, _⟩ |
    ⟨p, ⟨⟩, _, fresh, minted⟩
  exact ⟨fresh, minted⟩

variable {token : LeaseToken}

lemma Ran.of_transfer {accepted nobody : Prop} {candidate reason releaseRequestId q}
    (readies : Readies accepted nobody candidate reason releaseRequestId token connectionId s q t)
    (consumes : command.consumes = []) (names : accounted command (q.map .transfer) = []) :
    Ran s command (q.map .transfer) t := by
  rcases readies with ⟨e, rfl, rfl, _⟩ | ⟨_, rfl, rfl, _⟩ | ⟨_, e, rfl, calm, _⟩ |
    ⟨_, rfl, rfl, _⟩ | ⟨p, rfl, calm, _, _, idle, _, _, _, minted, here⟩
  · exact .failed e rfl rfl names
  · exact .settled (.refl _) consumes names (.inl rfl)
  · exact .settled calm consumes names (.inl rfl)
  · exact .settled (.refl _) consumes names (.inl rfl)
  · exact .settled calm consumes names (.inr ⟨.transfer p, rfl, minted, here, idle⟩)

lemma Ran.of_opens {purpose} {now : Nat} {q} (opens : Opens token connectionId purpose s q t)
    (begins : command = .beginDestructiveStep token connectionId now ∨ command =
      .beginResourceClose token connectionId now) :
    Ran s command (q.map .opened) t := by
  rcases opens with ⟨e, rfl, rfl⟩ | ⟨lease, stepId, held, _, idle, next, rfl, rfl⟩
  · exact .failed e rfl rfl (by rcases begins with rfl | rfl <;> rfl)
  · exact .opened lease ⟨token, connectionId.value, stepId, purpose⟩
      ⟨rfl, connectionId, now, rfl, begins⟩ held idle next rfl

lemma Ran.of_endsWith {response} (ends : EndsWith token s t)
    (nothing : response.produces = []) (names : accounted command (.ok response) = [])
    (called : (∃ now, command = .expireToken token now) ∨
      (∃ connectionId reason, command = .releaseOwned token connectionId reason) ∨ command =
      .rollbackLease token) :
    Ran s command (.ok response) t := by
  obtain ⟨state, lease, located, rfl, rfl⟩ := ends
  obtain ⟨_, _, found, held⟩ := locateLease_ok_iff.mp located
  obtain rfl := SeedScheduler.stateAt_of_some found
  exact .ended lease none (.inr ⟨called, ⟨response, rfl⟩, rfl⟩) nothing names held rfl

/-! ## Any command -/

lemma instances_keys_nodup (s : SeedScheduler) : s.instances.keys.Nodup := by
  have distinct := s.instances.distinct_keys
  exact distinct.imp fun different same => different (Std.LawfulEqOrd.compare_eq_iff_eq.mpr same)

lemma exec_ran (bounded : Bounded s) (ran : Steps (exec command) s r t) : Ran s command r t := by
  cases command
  all_goals obtain ⟨q, step, rfl⟩ := steps_map.mp ran
  case acquire requestId instanceId holderId connectionId now =>
    unfold acquire prepareAcquire at step
    rcases steps_bind.mp step with ⟨e, failed, rfl⟩ | ⟨preparation, u, prepared, committed⟩
    · exact .settled (prepareAcquireWithPolicy_steps (steps_get_bind.mp failed)).1 rfl rfl
        (.inl rfl)
    obtain ⟨calm, acquired⟩ := prepareAcquireWithPolicy_steps (steps_get_bind.mp prepared)
    cases preparation with
    | existing token =>
      obtain ⟨rfl, rfl⟩ := steps_pure.mp committed
      exact .settled calm rfl rfl (.inl rfl)
    | new p =>
      obtain ⟨fresh, minted⟩ := acquired.minted rfl
      rcases commitAcquireNew_steps committed with ⟨e, rfl, rfl⟩ |
        ⟨queue, rfl, epoch, cooled, free, after, written⟩
      · exact .settled calm rfl rfl (.inl rfl)
      refine .granted u p queue now rfl ⟨rfl, .inr ⟨⟨requestId, holderId, connectionId, now,
        ?_⟩, fresh.kind, fresh.direct⟩⟩ calm (.inr ⟨rfl, fresh.direct, minted⟩) ?_ epoch cooled
        free after written
      · rw [fresh.instanceId]
      · rw [fresh.direct]
        rfl
  case prepareAcquire =>
    obtain ⟨calm, acquired⟩ := prepareAcquireWithPolicy_steps (steps_get_bind.mp step)
    exact .of_preparation calm rfl (by cases q <;> rfl) fun p made => (acquired.minted made).2
  case prepareAcquireWithTtl | prepareClaimAcquire =>
    rcases steps_read_bind.mp (steps_get_bind.mp step) with ⟨e, _, rfl, rfl⟩ | ⟨_, _, step⟩
    · exact .failed e rfl rfl rfl
    · obtain ⟨calm, acquired⟩ := prepareAcquireWithPolicy_steps step
      exact .of_preparation calm rfl (by cases q <;> rfl) fun p made => (acquired.minted made).2
  case prepareResourceClose | prepareDedicatedLease =>
    obtain ⟨calm, ⟨e, rfl⟩ | ⟨p, rfl, _, minted⟩⟩ := prepareDedicatedLease_steps step
    · exact .settled calm rfl rfl (.inl rfl)
    · exact .settled calm rfl rfl (.inr ⟨.lease p, rfl, minted, trivial⟩)
  case commitAcquire preparation now =>
    cases preparation with
    | existing token =>
      obtain ⟨rfl, rfl⟩ := steps_pure.mp step
      exact .settled (.refl _) rfl rfl (.inl rfl)
    | new p =>
      rcases commitAcquireNew_steps step with ⟨e, rfl, rfl⟩ |
        ⟨queue, rfl, epoch, cooled, free, after, written⟩
      · exact .failed e rfl rfl rfl
      · exact .granted s p queue now rfl ⟨rfl, .inl ⟨now, rfl⟩⟩ (.refl _) (.inl ⟨rfl, rfl⟩)
          rfl epoch cooled free after written
  case requestQueued request now =>
    exact .requested request .open now q (.inl rfl) rfl (requestQueuedGated_steps bounded step)
  case requestQueuedGated request gate immediateAllowed now =>
    exact .requested request gate now q (.inr ⟨gate, immediateAllowed, rfl⟩) rfl
      (requestQueuedGated_steps bounded step)
  case enqueueClaim claim now =>
    rcases enqueueClaim_steps bounded step with ⟨e, rfl, rfl⟩ | ⟨fresh, inserts⟩
    · exact .failed e rfl rfl rfl
    · exact .enqueued claim now q rfl rfl fresh inserts
  case prepareQueuedGrant =>
    obtain ⟨calm, ⟨e, rfl⟩ | ⟨_, rfl⟩ | ⟨_, p, _, _, rfl, minted, _⟩⟩ :=
      prepareQueuedGrant_steps step
    · exact .settled calm rfl rfl (.inl rfl)
    · exact .settled calm rfl rfl (.inl rfl)
    · exact .settled calm rfl rfl (.inr ⟨.lease p, rfl, minted.between, trivial⟩)
  case pollQueued =>
    rcases pollQueued_steps step with ⟨other, rfl⟩ | ⟨rfl, takes⟩
    · cases q with
      | ok poll => exact .settled (.refl _) rfl rfl (.inl rfl)
      | error e =>
        exact .failed e rfl rfl (by cases e <;> first | rfl | exact absurd rfl other)
    · exact .of_takes takes rfl rfl (fun _ same => (Except.error.inj same).symm) rfl
  case cancelQueued =>
    rcases cancelQueued_steps step with ⟨e, rfl, rfl⟩ | ⟨queued, rfl, takes⟩
    · exact .failed e rfl rfl rfl
    · exact .of_takes takes rfl rfl (by simp [Except.map]) rfl
  case takeExpiredQueued | removeQueuedForConnection =>
    exact .of_sweep bounded (instances_keys_nodup s) (steps_get_bind.mp step) rfl fun _ => rfl
  case takeExpiredForInstance | removeQueuedForConnectionOnInstance | removeQueuedForInstance
    | removeQueuedForDrain =>
    exact .of_sweep bounded (nodup_singleton _) (sweepInstance_sweeps step) rfl fun _ => rfl
  case beginDestructiveStep => exact .of_opens (beginDestructiveStep_opens step) (.inl rfl)
  case beginResourceClose => exact .of_opens (beginResourceClose_opens step) (.inr rfl)
  case finishDestructiveStep witness connectionId =>
    rcases finishDestructiveStep_steps step with ⟨⟨e, rfl⟩, rfl, _⟩ |
      ⟨state, lease, rfl, located, opened, rfl⟩
    · exact .failed e rfl rfl rfl
    obtain ⟨_, _, found, held⟩ := locateLease_ok_iff.mp located
    obtain rfl := SeedScheduler.stateAt_of_some found
    obtain rfl := opened.connection
    exact .closed lease witness rfl rfl opened held rfl
  case prepareTransfer | prepareTransferGated =>
    exact .of_transfer (prepareTransferGated_steps step) rfl (by cases q <;> rfl)
  case prepareHandOff =>
    rcases steps_failIf_bind.mp step with ⟨_, rfl, rfl⟩ | ⟨_, step⟩
    · exact .failed _ rfl rfl rfl
    · exact .of_transfer (prepareClaimHandOff_steps step) rfl (by cases q <;> rfl)
  case prepareReleaseHandOff =>
    exact .of_transfer (prepareClaimHandOff_steps step) rfl (by cases q <;> rfl)
  case commitTransfer p now =>
    rcases commitTransfer_steps step with ⟨e, rfl, rfl⟩ | ⟨queue, rfl, epoch, held, after, written⟩
    · exact .failed e rfl rfl rfl
    · exact .transferred p queue now rfl rfl epoch held after written
  case renewWithTtl token connectionId leaseTtlMs now =>
    rcases renewWithTtl_steps step with ⟨e, rfl, rfl⟩ | ⟨lease, renewed, rfl, rfl, rfl, becomes⟩
    · exact .failed e rfl rfl rfl
    · exact .renewed lease renewed _ ⟨rfl, .inr ⟨leaseTtlMs, now, rfl, rfl⟩⟩ becomes
  case renew requestId token connectionId now =>
    rcases renew_steps step with ⟨e, rfl, rfl⟩ | ⟨renewed, _, rfl, rfl⟩ |
      ⟨lease, renewed, rfl, rfl, rfl, becomes⟩
    · exact .failed e rfl rfl rfl
    · exact .settled (.refl _) rfl rfl (.inl rfl)
    · exact .renewed lease renewed _ ⟨rfl, .inl ⟨requestId, now, rfl, rfl⟩⟩ becomes
  case release requestId token connectionId now =>
    rcases release_steps step with ⟨e, rfl, rfl⟩ | ⟨released, _, rfl, rfl⟩ |
      ⟨state, lease, located, rfl, rfl, rfl, rfl⟩
    · exact .failed e rfl rfl rfl
    · exact .settled (.refl _) rfl rfl (.inl rfl)
    obtain ⟨_, _, found, held⟩ := locateLease_ok_iff.mp located
    obtain rfl := SeedScheduler.stateAt_of_some found
    exact .ended lease _ (.inl ⟨requestId, now, rfl, rfl, rfl⟩) rfl rfl held rfl
  case expireToken token now =>
    rcases expireToken_steps step with ⟨e, rfl, rfl⟩ | ⟨rfl, ends⟩
    · exact .failed e rfl rfl rfl
    · exact .of_endsWith ends rfl rfl (.inl ⟨now, rfl⟩)
  case releaseOwned token connectionId reason =>
    rcases releaseOwned_steps step with ⟨e, rfl, rfl⟩ | ⟨rfl, ends⟩
    · exact .failed e rfl rfl rfl
    · exact .of_endsWith ends rfl rfl (.inr (.inl ⟨connectionId, reason, rfl⟩))
  case rollbackLease =>
    rcases rollbackLease_steps step with ⟨e, rfl, rfl⟩ | ⟨rfl, ends⟩
    · exact .failed e rfl rfl rfl
    · exact .of_endsWith ends rfl rfl (.inr (.inr rfl))
  case clearElapsedCooldowns =>
    exact .settled (clearElapsedCooldowns_calm step) rfl (by cases q <;> rfl)
      (.inl (by cases q <;> rfl))

/-! ## A call as a sequence of changes -/

section

variable (command : Command) (answer : SchedulerResult Response)

/-- The release record a command may write: that of a release, or of a transfer at one. -/
def recordsOf (record : ReleaseRecord) : Prop :=
  match command, answer with
  | .release requestId token connectionId _, .ok (.released released) =>
    record = ⟨requestId, token, connectionId, released⟩
  | .commitTransfer prepared _, .ok _ => transferRecord prepared = some record
  | _, _ => False

/-- The lease a command may end: the one its token carries, or the one it transfers away. -/
def endsOf (leaseId : LeaseId) : Prop :=
  match command, answer with
  | .release _ token _ _, .ok _ | .expireToken token _, .ok _ | .releaseOwned token _ _, .ok _
  | .rollbackLease token, .ok _ => token.leaseId = leaseId
  | .commitTransfer prepared _, .ok _ => prepared.source.token.leaseId = leaseId
  | _, _ => False

/-- The scope leaves room for what the command may do. -/
structure Allows (scope : Scope) (command : Command) (answer : SchedulerResult Response) :
    Prop where
  timed : ∀ now, command.instant = some now → scope.now = now
  records : ∀ record, recordsOf command answer record → scope.records record
  ends : ∀ leaseId, endsOf command answer leaseId → scope.ends leaseId

def scopeOf : Scope where
  records := recordsOf command answer
  ends := endsOf command answer
  now := command.instant.getD 0

lemma scopeOf_allows : Allows (scopeOf command answer) command answer where
  timed now instant := by rw [scopeOf, instant, Option.getD_some]
  records _ recorded := recorded
  ends _ ended := ended

end

lemma Command.Ends.endsOf {lease} {record}
    (ends : command.Ends r lease record) : endsOf command r lease.token.leaseId := by
  rcases ends with ⟨_, _, rfl, rfl, _⟩ | ⟨⟨_, rfl⟩ | ⟨_, _, rfl⟩ | rfl, ⟨_, rfl⟩, _⟩
  all_goals rfl

lemma Shrinks.changes (shrinks : Relation.ReflTransGen Shrinks s t) (out : List Outstanding) :
    Changes scope (s, out) (t, out) := by
  refine shrinks.lift (·, out) ?_
  rintro s _ ⟨i, queue, m, sub, writes, rfl⟩
  exact .shrink i queue sub writes

lemma Inserts.changes {i entry q} (inserts : Inserts i entry s q t)
    (fresh : Unqueued entry.requestId s)
    (timely : entry.deadlineMonotonicMs = claimNoDeadlineMonotonicMs ∨
      (s.stateAt i).lease ≠ none ∨ (s.stateAt i).cooldownUntilMonotonicMs ≤ scope.now)
    (out : List Outstanding) : Changes scope (s, out) (t, out) := by
  rcases inserts with ⟨e, rfl, calm, _⟩ | ⟨queued, rfl, _, room, rfl⟩
  · exact .single (.calm calm)
  · exact .single (.enqueue i { entry with arrivalSequence := s.nextArrivalSequence } room rfl
      fresh timely (writes_insert s _ _))

lemma QueueRequested.changes {request gate q} (bounded : Bounded s)
    (requested : QueueRequested s request gate scope.now q t) (out : List Outstanding) :
    Changes scope (s, out) (t, produced (q.map .admitted) ++ out) := by
  rcases requested with ⟨e, rfl, rfl, _⟩ | ⟨rfl, takes⟩ | ⟨decision, rfl, rfl, found⟩ |
    ⟨u, expired, d, rfl, _, fresh, swept, admits⟩
  · exact .refl
  · exact Shrinks.changes (.single takes.shrinks) out
  · -- A replay answers the lease already held or the place already taken.
    have replay : (Response.admitted ⟨decision, []⟩).produces = [] :=
      replayQueueRequestIn_produces found
    change Changes scope (t, out) (t, (Response.admitted ⟨decision, []⟩).produces ++ out)
    rw [replay]
    exact .refl
  obtain ⟨_, m, _, rfl, writes, _⟩ := sweepInstance_steps bounded swept
  refine .head (.shrink _ _ filter_sublist writes) ?_
  rcases admits with ⟨_, rfl, calm, _⟩ | ⟨p, rfl, calm, _, _, _, acquired⟩ | ⟨rfl, calm⟩ |
    ⟨p, deadline, rfl, _, timely, inserts⟩
  · exact .single (.calm calm)
  · match p, acquired with
    | .error _, _ | .ok (.existing _), _ => exact .single (.calm calm)
    | .ok (.new p), acquired =>
      exact .single (.prepare (.lease p) calm (acquired.minted rfl).2 trivial)
  · exact .single (.calm calm)
  · have changes : Changes scope ({ s with instances := m }, out) (t, out) :=
      inserts.changes fresh (.inr timely) out
    cases p <;> exact changes

/-- Every command is a sequence of changes that takes in what it consumes and hands out what
it answers. -/
theorem exec_changes (bounded : Bounded s) (allows : Allows scope command r)
    (ran : Steps (exec command) s r t) (out : List Outstanding) :
    Changes scope (s, command.consumes ++ out) (t, produced r ++ out) := by
  cases exec_ran bounded ran with
  | failed e answer same =>
    subst answer same
    exact .single (.forget (sublist_append_right _ _).subperm)
  | settled calm consumes _ handed =>
    rw [consumes]
    rcases handed with nothing | ⟨o, made, minted, prepared⟩
    · rw [nothing]
      exact .single (.calm calm)
    · rw [made]
      exact .single (.prepare o calm minted prepared)
  | granted u p queue now instant grants calm origin _ epoch cooled free after written =>
    obtain ⟨rfl, _⟩ := grants
    subst written
    have grant : Changes scope (u, .lease p :: out) _ := .single (.grant p queue free epoch
      (allows.timed now instant ▸ cooled) (queueAfterGrant_sublist after) (writes_insert u _ _))
    rcases origin with ⟨consumes, rfl⟩ | ⟨consumes, _, minted⟩
    · rw [consumes]
      exact grant
    · rw [consumes]
      exact .head (.prepare (.lease p) calm minted trivial) grant
  | transferred p queue now commits answer epoch held after written =>
    subst commits answer written
    exact .single (.transfer p queue (transferRecord p) held epoch
      (queueAfterTransfer_sublist after) (allows.ends _ rfl) (fun _ kept =>
        ⟨allows.records _ kept, by
        obtain ⟨_, -, rfl⟩ := Option.map_eq_some_iff.mp kept
        rfl⟩) (writes_insert s _ _))
  | renewed lease token record renews becomes =>
    obtain ⟨held, _, ⟨_, renewal⟩, rfl⟩ := becomes
    have same : token.leaseId = lease.token.leaseId ∧ token.instanceId = lease.token.instanceId ∧
        token.ownerEpoch = s.ownerEpoch := by rw [renewal]; exact ⟨rfl, rfl, rfl⟩
    have keeps : ∀ kept, record = some kept →
        lease.lastRenew = some kept ∨ kept.submittedToken = lease.token := by
      obtain ⟨_, ⟨_, _, _, rfl⟩ | ⟨_, _, _, rfl⟩⟩ := renews
      · rintro _ ⟨rfl⟩
        exact .inr rfl
      · exact fun _ kept => .inl kept
    obtain ⟨rfl, ⟨_, _, rfl, _⟩ | ⟨_, _, rfl, _⟩⟩ := renews
    all_goals exact .single (.renew _ lease token record held same.1 same.2.1 same.2.2 keeps
      (writes_insert s _ _))
  | opened lease witness opens held idle next written =>
    obtain ⟨rfl, _, _, _, rfl | rfl⟩ := opens
    all_goals
      subst written
      exact .single (.openStep _ lease _ _ held idle next (writes_insert s _ _))
  | closed lease witness closes answer _ held written =>
    subst closes answer written
    exact .single (.closeStep _ lease held (writes_insert s _ _))
  | ended lease record ends nothing _ held written =>
    subst written
    have ended := allows.ends _ ends.endsOf
    rw [nothing]
    rcases ends with ⟨requestId, now, rfl, rfl, rfl⟩ | ⟨⟨_, rfl⟩ | ⟨_, _, rfl⟩ | rfl, _, rfl⟩
    · refine .single (.endLease _ lease _ held ended ?_ (writes_insert s _ _))
      rintro record ⟨rfl⟩
      exact ⟨allows.records _ rfl, rfl⟩
    all_goals
      exact .single (.endLease _ lease none held ended (fun _ => nofun) (writes_insert s _ _))
  | dequeued shrinks consumes nothing =>
    rw [consumes, nothing]
    exact Shrinks.changes shrinks out
  | enqueued claim now q enqueues answer fresh inserts =>
    subst enqueues answer
    have changes : Changes scope (s, out) (t, out) := inserts.changes fresh (.inl rfl) out
    cases q <;> exact changes
  | requested request gate now q requests answer requested =>
    subst answer
    rcases requests with rfl | ⟨_, _, rfl⟩
    all_goals
      obtain rfl := allows.timed now rfl
      exact requested.changes bounded out

end Scheduler
