import ActingCommand.Keyed
import ActingCommand.Scheduler.Change

/-!
# What each operation comes to

One lemma for each operation says what it answers and what it has then written, whether it
succeeded or failed. No later proof takes an operation apart again.
-/

namespace Scheduler

open Machine Call SchedulerM List Except SeedScheduler Std.ExtTreeMap

variable {s t u : SeedScheduler} {now leaseTtlMs : Nat} {i instanceId : InstanceId}
  {requestId : RequestId} {holderId : HolderId} {connectionId : ConnectionId}
  {policy : LeaseAcquisitionPolicy} {gate : ClaimGate} {token : LeaseToken}
  {m : Std.ExtTreeMap InstanceId InstanceState} {state : InstanceState} {lease : LeaseEntry}

/-! ## Minting -/

lemma MintedBetween.after_calm {leaseId : LeaseId} (calm : Calm s t)
    (minted : MintedBetween t u leaseId) : MintedBetween s u leaseId := by
  obtain ⟨sequence, lower, upper, rfl⟩ := minted
  refine ⟨sequence, calm.issued.trans lower, upper, ?_⟩
  rw [IdentifierIssuer.leaseIdAt, calm.nameSpace, IdentifierIssuer.leaseIdAt]

lemma LeaseToken.new_eq_some {ownerEpoch} {leaseId : LeaseId} {expiresAt : Nat}
    (made : LeaseToken.new ownerEpoch leaseId instanceId holderId expiresAt = some token) :
    token = ⟨ownerEpoch, leaseId, instanceId, holderId, expiresAt⟩ := by
  unfold LeaseToken.new at made
  split at made
  · simp at made
  · exact (Option.some.inj made).symm

/-- The counters have room for a lease: for its expiry and its identifier. -/
structure Room (s : SeedScheduler) (leaseTtlMs now : Nat) : Prop where
  positive : 0 < leaseTtlMs
  expiry : now + leaseTtlMs ≤ u64Max
  identifier : s.leaseIssuer.nextSequence + 1 ≤ u64Max

variable (s instanceId holderId) in
/-- The token was minted for the instance and its holder, in the scheduler's epoch. -/
structure Minted
    (leaseTtlMs now : Nat) (token : LeaseToken) (t : SeedScheduler) : Prop where
  between : MintedBetween s t token.leaseId
  fits : now + leaseTtlMs ≤ u64Max
  ownerEpoch : token.ownerEpoch = s.ownerEpoch
  instanceId : token.instanceId = instanceId
  holderId : token.holderId = holderId

/-- Minting fails only by exhaustion, after which the host halts. -/
theorem mintToken_steps {r} (step : Steps (mintToken instanceId holderId leaseTtlMs now) s r t) :
    Calm s t ∧ ((∃ e, r = .error e ∧ e.isFatal = true ∧ ¬ Room s leaseTtlMs now) ∨
      ∃ token, r = .ok token ∧ Minted s instanceId holderId leaseTtlMs now token t) := by
  simp only [mintToken, mintLeaseId, bind_assoc, pure_bind, steps_get_bind, steps_read_bind,
    steps_okOr_bind, steps_set_bind] at step
  rcases step with ⟨e, failed, rfl, rfl⟩ | ⟨expiresAt, expires, ⟨full, rfl, rfl⟩ |
    ⟨minted, found, built⟩⟩
  · obtain ⟨beyond, rfl⟩ := okOr_error_iff.mp failed
    refine ⟨Calm.refl _, .inl ⟨_, rfl, rfl, fun room => ?_⟩⟩
    rw [checkedAdd_eq_some_iff.mpr ⟨rfl, room.expiry⟩] at beyond
    cases beyond
  · refine ⟨Calm.refl _, .inl ⟨_, rfl, rfl, fun room => ?_⟩⟩
    rw [IdentifierIssuer.mintLeaseId, checkedAdd_eq_some_iff.mpr ⟨rfl, room.identifier⟩] at full
    cases full
  obtain ⟨rfl, fits⟩ := checkedAdd_eq_some_iff.mp (okOr_ok_iff.mp expires)
  obtain ⟨next, added, rfl⟩ := Option.map_eq_some_iff.mp found
  obtain ⟨rfl, _⟩ := checkedAdd_eq_some_iff.mp added
  obtain ⟨⟨zero, rfl⟩ | ⟨token, made, rfl⟩, rfl⟩ := steps_okOr.mp built
  all_goals refine ⟨⟨rfl, rfl, rfl, Nat.le_succ _, rfl, rfl, rfl, fun _ => rfl,
    fun _ => .inl rfl⟩, ?_⟩
  · refine .inl ⟨_, rfl, rfl, fun room => ?_⟩
    have later : now + leaseTtlMs ≠ 0 := by have := room.positive; omega
    rw [LeaseToken.new, if_neg later] at zero
    cases zero
  · rw [LeaseToken.new_eq_some made]
    exact .inr ⟨_, rfl, ⟨s.leaseIssuer.nextSequence, le_rfl, Nat.lt_succ_self _, rfl⟩, fits,
      rfl, rfl, rfl⟩

/-! ## Preparing a grant -/

variable (s requestId) in
/-- A lease prepared outside the queue: the instance is free and nobody eligible waits. -/
structure FreshLease (instanceId : InstanceId)
    (policy : LeaseAcquisitionPolicy) (now : Nat) (p : PreparedLease) : Prop where
  free : (s.stateAt instanceId).lease = none
  unclaimed : firstEligible (s.stateAt instanceId) policy.gate now = none
  fits : now + policy.leaseTtlMs ≤ u64Max
  instanceId : p.token.instanceId = instanceId
  requestId : p.acquireRequestId = requestId
  kind : p.kind = policy.kind
  direct : p.fromQueue = false

/-- The lease was acquired by this request, on this connection, for this holder. -/
def LeaseEntry.AcquiredBy (lease : LeaseEntry) (requestId : RequestId)
    (connectionId : ConnectionId) (holderId : HolderId) : Prop :=
  lease.acquireRequestId = requestId ∧ lease.connectionId = connectionId ∧
    lease.token.holderId = holderId

variable (s requestId) in
/-- What an acquisition on the record of its instance comes to. -/
inductive Acquired (instanceId : InstanceId)
    (holderId : HolderId) (connectionId : ConnectionId) (policy : LeaseAcquisitionPolicy)
    (now : Nat) (r : SchedulerResult LeasePreparation) (t : SeedScheduler) : Prop
  | cooling (e : SchedulerError) (answer : r = .error e)
      (hot : now < (s.stateAt instanceId).cooldownUntilMonotonicMs)
  | refused (e : SchedulerError) (answer : r = .error e) (lease : LeaseEntry)
      (held : (s.stateAt instanceId).lease = some lease)
      (foreign : ¬ (now < lease.token.expiresAtMonotonicMs ∧
        lease.AcquiredBy requestId connectionId holderId))
  | existing (lease : LeaseEntry) (answer : r = .ok (.existing lease.token))
      (cooled : (s.stateAt instanceId).cooldownUntilMonotonicMs ≤ now)
      (held : (s.stateAt instanceId).lease = some lease)
      (live : now < lease.token.expiresAtMonotonicMs)
      (own : lease.AcquiredBy requestId connectionId holderId)
  | behind (ahead : Fin (s.stateAt instanceId).queue.length)
      (answer : r = .error (queueAhead (s.stateAt instanceId) ahead))
      (free : (s.stateAt instanceId).lease = none)
      (first : firstEligible (s.stateAt instanceId) policy.gate now = some ahead)
  | gated (answer : r = .error .gateHeld)
      (unclaimed : firstEligible (s.stateAt instanceId) policy.gate now = none)
      (held : policy.gate.holds policy.kind = true) (kind : policy.kind ≠ .policyDispatch)
  | exhausted (e : SchedulerError) (answer : r = .error e)
      (unclaimed : firstEligible (s.stateAt instanceId) policy.gate now = none)
      (fatal : e.isFatal = true) (full : ¬ Room s policy.leaseTtlMs now)
  | new (p : PreparedLease) (answer : r = .ok (.new p))
      (cooled : (s.stateAt instanceId).cooldownUntilMonotonicMs ≤ now)
      (fresh : FreshLease s requestId instanceId policy now p)
      (minted : MintedBetween s t p.token.leaseId)

lemma prepareAcquireWithPolicy_steps {r}
    (step : Steps (prepareAcquireWithPolicy requestId instanceId holderId connectionId policy now)
      s r t) :
    Calm s t ∧ Acquired s requestId instanceId holderId connectionId policy now r t := by
  simp only [prepareAcquireWithPolicy, SchedulerM.setInstance, steps_modify_bind, steps_get_bind,
    steps_failIf_bind, stateAt_ensureInstance] at step
  have ensured := Calm.ensureInstance s instanceId
  rcases step with ⟨hot, rfl, rfl⟩ | ⟨cooled, step⟩
  · exact ⟨ensured, .cooling _ rfl hot⟩
  have settled := ensured.trans (Calm.endCooldown _ instanceId)
  rw [stateAt_ensureInstance] at settled
  have cool := not_lt.mp cooled
  unfold prepareSettled at step
  split at step
  · rename_i lease held
    simp only [steps_failIf_bind, steps_pure] at step
    rcases step with ⟨lapsed, rfl, rfl⟩ | ⟨live, ⟨foreign, rfl, rfl⟩ | ⟨own, rfl, rfl⟩⟩
    · exact ⟨settled, .refused _ rfl lease held fun both => absurd lapsed (not_le.mpr both.1)⟩
    · exact ⟨settled, .refused _ rfl lease held fun both => foreign both.2⟩
    · exact ⟨settled, .existing lease rfl cool held (not_le.mp live) (not_not.mp own)⟩
  rename_i free
  split at step
  · rename_i ahead first
    obtain ⟨rfl, rfl⟩ := steps_throw.mp step
    exact ⟨settled, .behind ahead rfl free first⟩
  rename_i unclaimed
  rcases steps_failIf_bind.mp step with ⟨held, rfl, rfl⟩ | ⟨_, step⟩
  · exact ⟨settled, .gated rfl unclaimed held.1 held.2⟩
  rcases steps_bind.mp step with ⟨e, failed, rfl⟩ | ⟨token, u, minting, done⟩
  · obtain ⟨calm, ⟨e, ⟨⟩, fatal, full⟩ | ⟨_, ⟨⟩, _⟩⟩ := mintToken_steps failed
    exact ⟨settled.trans calm, .exhausted _ rfl unclaimed fatal
      fun room => full ⟨room.positive, room.expiry, room.identifier⟩⟩
  obtain ⟨calm, ⟨_, ⟨⟩, _⟩ | ⟨token, ⟨⟩, minted⟩⟩ := mintToken_steps minting
  obtain ⟨rfl, rfl⟩ := steps_pure.mp done
  exact ⟨settled.trans calm, .new _ rfl cool
    ⟨free, unclaimed, minted.fits, minted.instanceId, rfl, rfl, rfl⟩
    (minted.between.after_calm settled)⟩

/-- A dedicated lease is refused, or it is a fresh one that nobody eligible behind an open gate
waits for. -/
theorem prepareDedicatedLease_steps {kind r}
    (step : Steps (prepareDedicatedLease requestId instanceId holderId connectionId kind gate now)
      s r t) :
    Calm s t ∧ ((∃ e, r = .error e) ∨ ∃ p, r = .ok (.new p) ∧
      FreshLease s requestId instanceId ⟨.normal, s.config.leaseTtlMs, kind, .open⟩ now p ∧
      MintedBetween s t p.token.leaseId) := by
  simp only [prepareDedicatedLease, steps_get_bind, steps_failIf_bind] at step
  rcases step with ⟨_, rfl, rfl⟩ | ⟨_, step⟩
  · exact ⟨Calm.refl _, .inl ⟨_, rfl⟩⟩
  rcases steps_bind.mp step with ⟨e, failed, rfl⟩ | ⟨preparation, u, prepared, done⟩
  · exact ⟨(prepareAcquireWithPolicy_steps failed).1, .inl ⟨e, rfl⟩⟩
  obtain ⟨calm, acquired⟩ := prepareAcquireWithPolicy_steps prepared
  rcases acquired with ⟨_, ⟨⟩, _⟩ | ⟨_, ⟨⟩, _⟩ | ⟨_, ⟨⟩, _⟩ | ⟨_, ⟨⟩, _⟩ | ⟨⟨⟩, _⟩ | ⟨_, ⟨⟩, _⟩ |
    ⟨p, ⟨⟩, _, fresh, minted⟩
  · obtain ⟨rfl, rfl⟩ := steps_throw.mp done
    exact ⟨calm, .inl ⟨_, rfl⟩⟩
  obtain ⟨rfl, rfl⟩ := steps_pure.mp done
  exact ⟨calm, .inr ⟨_, rfl, ⟨fresh.1, fresh.2, fresh.3, fresh.4, fresh.5, fresh.6,
    fresh.7⟩, minted⟩⟩

/-- The grant of the first eligible entry on a free instance. -/
theorem prepareQueuedGrant_steps {r} (step : Steps (prepareQueuedGrant i gate now) s r t) :
    Calm s t ∧ ((∃ e, r = .error e) ∨
      ((s.stateAt i).lease ≠ none ∨ (s.stateAt i).cooldownUntilMonotonicMs > now ∨
        firstEligible (s.stateAt i) gate now = none) ∧ r = .ok none ∨
      ∃ position p, ¬ ((s.stateAt i).lease ≠ none ∨ (s.stateAt i).cooldownUntilMonotonicMs > now) ∧
        firstEligible (s.stateAt i) gate now = some position ∧ r = .ok (some p) ∧
        Minted s i (s.stateAt i).queue[position].holderId (s.stateAt i).queue[position].leaseTtlMs
          now p.token t ∧
        p = ⟨p.token, (s.stateAt i).queue[position].connectionId,
          (s.stateAt i).queue[position].requestId, (s.stateAt i).queue[position].priority, false,
          (s.stateAt i).queue[position].kind, true⟩) := by
  simp only [prepareQueuedGrant, steps_get_bind] at step
  split at step
  · rename_i busy
    obtain ⟨rfl, rfl⟩ := steps_pure.mp step
    exact ⟨Calm.refl _, .inr (.inl ⟨by tauto, rfl⟩)⟩
  rename_i settled
  split at step
  · rename_i unclaimed
    obtain ⟨rfl, rfl⟩ := steps_pure.mp step
    exact ⟨Calm.refl _, .inr (.inl ⟨.inr (.inr unclaimed), rfl⟩)⟩
  rename_i position first
  rcases steps_bind.mp step with ⟨e, failed, rfl⟩ | ⟨token, u, minting, done⟩
  · exact ⟨(mintToken_steps failed).1, .inl ⟨e, rfl⟩⟩
  obtain ⟨calm, ⟨_, ⟨⟩, _⟩ | ⟨token, ⟨⟩, minted⟩⟩ := mintToken_steps minting
  obtain ⟨rfl, rfl⟩ := steps_pure.mp done
  exact ⟨calm, .inr (.inr ⟨position, _, settled, first, rfl, minted, rfl⟩)⟩

/-! ## Committing a grant -/

lemma queueAfterGrant_sublist {p} {queue left}
    (after : queueAfterGrant p queue = some left) : left.Sublist queue := by
  unfold queueAfterGrant at after
  split at after
  · obtain ⟨position, _, rfl⟩ := Option.map_eq_some_iff.mp after
    exact eraseIdx_sublist _ _
  · obtain rfl := Option.some.inj after
    exact List.Sublist.refl _

/-- A grant is applied whole or changes nothing. -/
theorem commitAcquireNew_steps {p r} (step : Steps (commitAcquireNew p now) s r t) :
    (∃ e, r = .error e ∧ t = s) ∨
    (∃ queue, r = .ok p.token ∧ p.token.ownerEpoch = s.ownerEpoch ∧
      (s.stateAt p.token.instanceId).cooldownUntilMonotonicMs ≤ now ∧
      (s.stateAt p.token.instanceId).lease = none ∧
      queueAfterGrant p (s.stateAt p.token.instanceId).queue = some queue ∧
      t = { s.setInstance p.token.instanceId
          (grantedState (s.stateAt p.token.instanceId) p queue) with
        leaseLocations := s.leaseLocations.insert p.token.leaseId p.token.instanceId }) := by
  simp only [commitAcquireNew, steps_get_bind, steps_read_bind, steps_failIf_bind,
    steps_okOr_bind] at step
  rcases step with ⟨e, _, rfl, rfl⟩ | ⟨_, epoch, ⟨_, rfl, rfl⟩ | ⟨_, ⟨_, rfl, rfl⟩ |
    ⟨state, found, ⟨_, rfl, rfl⟩ | ⟨cooled, step⟩⟩⟩⟩
  any_goals exact .inl ⟨_, rfl, rfl⟩
  rw [stateAt_of_some found]
  cases held : state.lease with
  | some lease =>
    simp only [held, steps_throw] at step
    obtain ⟨rfl, rfl⟩ := step
    exact .inl ⟨_, rfl, rfl⟩
  | none =>
    simp only [held, steps_okOr_bind, steps_set_bind, steps_pure] at step
    rcases step with ⟨_, rfl, rfl⟩ | ⟨queue, after, rfl, rfl⟩
    · exact .inl ⟨_, rfl, rfl⟩
    · exact .inr ⟨queue, rfl, validateEpoch_ok_iff.mp epoch, not_lt.mp cooled, rfl, after, rfl⟩

/-! ## Leaving the queue -/

/-- Every queue keeps to the configured depth, and that to its own limit. -/
structure Bounded (s : SeedScheduler) : Prop where
  limit : s.config.maxQueueDepthPerInstance ≤ maxQueueDepthPerInstanceLimit
  depth : ∀ j, (s.stateAt j).queue.length ≤ s.config.maxQueueDepthPerInstance

/-- The answer describes the entry at its place in the queue of the instance. -/
def Reports (state : InstanceState) (instanceId : InstanceId) (entry : QueueEntry)
    (queued : QueuedLease) : Prop :=
  ∃ index, state.queue[index]? = some entry ∧
    queued = describeQueued state instanceId entry (index + 1)

variable {position : Nat}

lemma oneBased_of_le (small : position + 1 ≤ maxQueueDepthPerInstanceLimit) :
    oneBased position = some (position + 1) := by
  have inRange : position + 1 ≤ u32Max := by
    unfold maxQueueDepthPerInstanceLimit at small
    unfold u32Max
    omega
  rw [oneBased, if_pos inRange]

/-- A position is described as the entry that waits there. -/
theorem queuedAtPosition_ok {queued} (answered : queuedAtPosition state i position = .ok queued) :
    ∃ entry, state.queue[position]? = some entry ∧
      queued = describeQueued state i entry (position + 1) := by
  simp only [queuedAtPosition, bind_ok_iff, okOr_ok_iff, pure_ok_iff] at answered
  obtain ⟨entry, found, place, based, rfl⟩ := answered
  unfold oneBased at based
  split at based
  · obtain rfl := Option.some.inj based
    exact ⟨entry, found, rfl⟩
  · cases based

lemma queuedAtPosition_eq (state : InstanceState) (instanceId : InstanceId)
    {entry} (waiting : state.queue[position]? = some entry)
    (small : position + 1 ≤ maxQueueDepthPerInstanceLimit) :
    queuedAtPosition state instanceId position =
      .ok (describeQueued state instanceId entry (position + 1)) := by
  simp only [queuedAtPosition, waiting, oneBased_of_le small]
  rfl

/-- The removal loop reports what it drops, in order, and keeps the rest. -/
theorem sweepQueue_spec (drop : QueueEntry → Bool) (state : InstanceState)
    (instanceId : InstanceId) (rest : List QueueEntry) :
    ∀ (kept : List QueueEntry) (removed : List QueuedLease),
      kept.length + rest.length ≤ maxQueueDepthPerInstanceLimit →
      ∃ reports, sweepQueue drop state instanceId kept rest removed =
          (.ok (removed ++ reports), kept ++ rest.filter fun entry => !drop entry) ∧
        reports.map QueuedLease.requestId = (rest.filter drop).map QueueEntry.requestId := by
  induction rest with
  | nil =>
    intro kept removed _
    exact ⟨[], by simp [sweepQueue], by simp⟩
  | cons entry rest ih =>
    intro kept removed small
    rw [length_cons] at small
    cases dropped : drop entry with
    | true =>
      have waiting : (kept ++ entry :: rest)[kept.length]? = some entry := by simp
      obtain ⟨queued, answered, own⟩ : ∃ queued,
          queuedAtPosition { state with queue := kept ++ entry :: rest } instanceId kept.length =
            .ok queued ∧ queued.requestId = entry.requestId :=
        ⟨_, queuedAtPosition_eq _ instanceId waiting (by omega), rfl⟩
      obtain ⟨reports, swept, named⟩ := ih kept (removed ++ [queued]) (by omega)
      refine ⟨queued :: reports, ?_, ?_⟩
      · simp only [sweepQueue, dropped, if_true, answered, swept]
        simp [dropped]
      · rw [map_cons, named, own, filter_cons_of_pos dropped, map_cons]
    | false =>
      obtain ⟨reports, swept, named⟩ := ih (kept ++ [entry]) removed (by simp; omega)
      refine ⟨reports, ?_, ?_⟩
      · simp only [sweepQueue, dropped, Bool.false_eq_true, if_false, swept]
        simp [dropped]
      · simpa [dropped] using named

variable {drop : QueueEntry → Bool}

lemma sweepInstance_steps {r} (bounded : Bounded s) (step : Steps (sweepInstance drop i) s r t) :
    ∃ removed m, r = .ok removed ∧ t = { s with instances := m } ∧
      Writes s m i (refreshPreemptRequested
        { s.stateAt i with queue := (s.stateAt i).queue.filter fun entry => !drop entry }) ∧
      removed.map QueuedLease.requestId =
        ((s.stateAt i).queue.filter drop).map QueueEntry.requestId := by
  simp only [sweepInstance, steps_get_bind] at step
  cases found : s.instances[i]? with
  | none =>
    have default : s.stateAt i = {} := by
      rw [stateAt, recordAt, found, Option.getD_none]
    simp only [found, steps_pure] at step
    obtain ⟨rfl, same⟩ := step
    refine ⟨[], s.instances, rfl, same, ?_, ?_⟩
    · have unchanged := writes_unchanged s i
      rw [default] at unchanged ⊢
      exact unchanged
    · rw [default]
      rfl
  | some state =>
    have here := stateAt_of_some found
    have small : state.queue.length ≤ maxQueueDepthPerInstanceLimit := by
      have depth := bounded.depth i
      rw [here] at depth
      exact depth.trans bounded.limit
    obtain ⟨reports, swept, described⟩ :=
      sweepQueue_spec drop state i state.queue [] [] (by simpa using small)
    simp only [nil_append] at swept
    simp only [found, swept, SchedulerM.setInstance, steps_modify_bind, steps_read_bind,
      reduceCtorEq, false_and, exists_false, ok.injEq, exists_eq_left', false_or,
      steps_pure] at step
    obtain ⟨rfl, rfl⟩ := step
    rw [here]
    exact ⟨reports, _, rfl, rfl, (writes_insert _ _ _).after_setInstance, described⟩

/-- A sweep only shortens queues, so it keeps them within their depth. -/
theorem sweepInstance_bounded {r} (bounded : Bounded s)
    (step : Steps (sweepInstance drop i) s r t) : Bounded t := by
  obtain ⟨removed, m, rfl, rfl, writes, _⟩ := sweepInstance_steps bounded step
  refine ⟨bounded.limit, fun j => ?_⟩
  have state : stateAt { s with instances := m } j = _ := writes j
  rw [state]
  split
  · exact (length_filter_le _ _).trans (bounded.depth i)
  · exact bounded.depth j

/-- One queue is shortened, and the flag of its lease follows. -/
def Shrinks (s t : SeedScheduler) : Prop :=
  ∃ i queue m, queue.Sublist (s.stateAt i).queue ∧
    Writes s m i (refreshPreemptRequested { s.stateAt i with queue := queue }) ∧
    t = { s with instances := m }

lemma Writes.queues (writes : Writes s m i state) (written : t.instances = m) (j : InstanceId) :
    queues t j = if i = j then state.queue else queues s j := by
  change (recordAt t.instances j).queue = _
  rw [written, writes j]
  split
  · rfl
  · rfl

/-- A sweep of some instances takes the selected entries out of their queues and reports them. -/
theorem sweepInstances_steps {ids} :
    ∀ {s} {r}, Bounded s → ids.Nodup →
      Steps (sweepInstances drop ids) s r t →
      ∃ removed, r = .ok removed ∧ Relation.ReflTransGen Shrinks s t ∧
        (∀ j, queues t j =
          if j ∈ ids then (queues s j).filter fun entry => !drop entry else queues s j) ∧
        removed.map QueuedLease.requestId =
          (ids.flatMap fun i => (queues s i).filter drop).map QueueEntry.requestId := by
  induction ids with
  | nil =>
    intro s r _ _ step
    obtain ⟨rfl, rfl⟩ := steps_pure.mp step
    exact ⟨[], rfl, .refl, fun j => by simp, rfl⟩
  | cons i rest ih =>
    intro s r bounded nodup step
    obtain ⟨apart, later⟩ := nodup_cons.mp nodup
    rcases steps_bind.mp step with ⟨e, failed, rfl⟩ | ⟨removed, u, first, step⟩
    · obtain ⟨_, _, answered, _⟩ := sweepInstance_steps bounded failed
      cases answered
    obtain ⟨_, m, answered, rfl, writes, reported⟩ := sweepInstance_steps bounded first
    obtain rfl := ok.inj answered
    have kept := sweepInstance_bounded bounded first
    rcases steps_bind.mp step with ⟨e, failed, rfl⟩ | ⟨more, v, second, done⟩
    · obtain ⟨_, answered, _⟩ := ih kept later failed
      cases answered
    obtain ⟨rfl, rfl⟩ := steps_pure.mp done
    obtain ⟨_, answered, shrinks, swept, named⟩ := ih kept later second
    obtain rfl := ok.inj answered
    have others : ∀ j, j ∈ rest → queues { s with instances := m } j = queues s j := by
      intro j listed
      rw [writes.queues rfl j, if_neg]
      rintro rfl
      exact apart listed
    refine ⟨_, rfl, .head ⟨i, _, m, filter_sublist, writes, rfl⟩ shrinks, fun j => ?_, ?_⟩
    · rw [swept j]
      by_cases same : i = j
      · subst j
        rw [if_neg apart, writes.queues rfl i, if_pos rfl, if_pos (mem_cons_self ..)]
        rfl
      have listed : j ∈ i :: rest ↔ j ∈ rest := by simp [Ne.symm same]
      rw [writes.queues rfl j, if_neg same]
      simp [listed]
    · rw [map_append, named, reported, flatMap_cons, map_append]
      congr 2
      exact flatMap_congr fun j listed => by rw [others j listed]

lemma sweepInstance_sweeps {r}
    (step : Steps (sweepInstance drop i) s r t) : Steps (sweepInstances drop [i]) s r t := by
  refine steps_bind.mpr ?_
  cases r with
  | error e => exact .inl ⟨e, step, rfl⟩
  | ok removed => exact .inr ⟨removed, t, step, by simp [sweepInstances]⟩

/-- The waiting entry of a request is taken out of its queue. -/
def Takes (requestId : RequestId) (s t : SeedScheduler) : Prop :=
  ∃ i position entry, (s.stateAt i).queue[position]? = some entry ∧ entry.requestId = requestId ∧
    t = s.setInstance i (refreshPreemptRequested
      { s.stateAt i with queue := (s.stateAt i).queue.eraseIdx position })

lemma Takes.shrinks (takes : Takes requestId s t) : Shrinks s t := by
  obtain ⟨i, position, _, _, _, rfl⟩ := takes
  exact ⟨i, _, _, eraseIdx_sublist _ _, writes_insert s _ _, rfl⟩

lemma removeQueuedRequest_steps {r} (step : Steps (removeQueuedRequest requestId) s r t) :
    (r = .error .queueMissing ∧ t = s) ∨ (r = .ok () ∧ Takes requestId s t) := by
  simp only [removeQueuedRequest, removeAt, SchedulerM.setInstance, steps_get_bind,
    steps_okOr_bind, steps_modify] at step
  rcases step with ⟨_, rfl, rfl⟩ | ⟨⟨i, position⟩, located,
    ⟨_, rfl, rfl⟩ | ⟨state, found, rfl, rfl⟩⟩
  · exact .inl ⟨rfl, rfl⟩
  · exact .inl ⟨rfl, rfl⟩
  obtain ⟨_, entry, here, named⟩ := locateQueued_some located
  obtain rfl := stateAt_of_some found
  exact .inr ⟨rfl, i, position, entry, here, named, rfl⟩

lemma pollQueued_steps {r} (step : Steps (pollQueued requestId connectionId now) s r t) :
    (r ≠ .error .queueExpired ∧ t = s) ∨ (r = .error .queueExpired ∧ Takes requestId s t) := by
  simp only [pollQueued, steps_get_bind] at step
  split at step
  · simp only [steps_failIf_bind, steps_pure] at step
    rcases step with ⟨_, rfl, rfl⟩ | ⟨_, rfl, rfl⟩
    all_goals exact .inl ⟨by simp, rfl⟩
  simp only [steps_okOr_bind, steps_failIf_bind] at step
  rcases step with ⟨_, rfl, rfl⟩ | ⟨⟨i, position⟩, located, ⟨_, rfl, rfl⟩ | ⟨state, found,
    ⟨_, rfl, rfl⟩ | ⟨entry, here, ⟨_, rfl, rfl⟩ | ⟨_, step⟩⟩⟩⟩
  any_goals exact .inl ⟨by simp, rfl⟩
  obtain rfl := stateAt_of_some found
  split at step
  · simp only [removeAt, SchedulerM.setInstance, steps_modify_bind, steps_throw] at step
    obtain ⟨rfl, rfl⟩ := step
    obtain ⟨_, waiting, there, named⟩ := locateQueued_some located
    exact .inr ⟨rfl, i, position, waiting, there, named, rfl⟩
  simp only [steps_read_bind, steps_pure] at step
  rcases step with ⟨e, failed, rfl, rfl⟩ | ⟨_, _, rfl, rfl⟩
  · refine .inl ⟨?_, rfl⟩
    rintro ⟨rfl⟩
    simp [queuedAtPosition, bind_error_iff, okOr_error_iff, pure, Except.pure] at failed
  · exact .inl ⟨by simp, rfl⟩

lemma cancelQueued_steps {r} (step : Steps (cancelQueued requestId connectionId) s r t) :
    (∃ e, r = .error e ∧ t = s) ∨ (∃ queued, r = .ok queued ∧ Takes queued.requestId s t) := by
  simp only [cancelQueued, removeAt, SchedulerM.setInstance, steps_get_bind, steps_okOr_bind,
    steps_failIf_bind, steps_read_bind, steps_modify_bind, steps_pure] at step
  rcases step with ⟨_, rfl, rfl⟩ | ⟨⟨i, position⟩, _, ⟨_, rfl, rfl⟩ | ⟨state, found,
    ⟨_, rfl, rfl⟩ | ⟨entry, _, ⟨_, rfl, rfl⟩ | ⟨_, ⟨_, _, rfl, rfl⟩ |
    ⟨queued, described, rfl, rfl⟩⟩⟩⟩⟩
  any_goals exact .inl ⟨_, rfl, rfl⟩
  obtain rfl := stateAt_of_some found
  obtain ⟨waiting, here, rfl⟩ := queuedAtPosition_ok described
  exact .inr ⟨_, rfl, i, position, waiting, here, rfl, rfl⟩

/-! ## Queueing an entry -/

lemma sortQueue_perm (queue : List QueueEntry) : (sortQueue queue).Perm queue :=
  perm_insertionSort _ _

/-- A request that waits once is found and reported. -/
theorem queuedByRequest_reports (state : InstanceState) (i : InstanceId) (entry : QueueEntry)
    (small : state.queue.length ≤ maxQueueDepthPerInstanceLimit) (waiting : entry ∈ state.queue)
    (alone : ∀ other ∈ state.queue, other.requestId = entry.requestId → other = entry) :
    ∃ queued, queuedByRequest state i entry.requestId = .ok queued ∧
      Reports state i entry queued := by
  cases found : state.queue.findIdx? fun other => other.requestId = entry.requestId with
  | none =>
    have absent := findIdx?_eq_none_iff.mp found entry waiting
    simp at absent
  | some position =>
    obtain ⟨inside, matched, _⟩ := findIdx?_eq_some_iff_getElem.mp found
    have same := alone _ (getElem_mem inside) (of_decide_eq_true matched)
    have here : state.queue[position]? = some entry := same ▸ getElem?_eq_getElem inside
    refine ⟨_, ?_, position, here, rfl⟩
    simp only [queuedByRequest, found]
    exact queuedAtPosition_eq state i here (by omega)

/-- No queue holds the request. -/
abbrev Unqueued (requestId : RequestId) (s : SeedScheduler) : Prop :=
  ∀ j, ∀ other ∈ (s.stateAt j).queue, other.requestId ≠ requestId

/-- The entry, under the next arrival number, is queued whole or not at all; what is then
reported is that entry. -/
def Inserts (i : InstanceId) (entry : QueueEntry) (s : SeedScheduler)
    (r : SchedulerResult QueuedLease) (t : SeedScheduler) : Prop :=
  (∃ e, r = .error e ∧ Calm s t ∧ (e = .queueSequenceOverflow ∨
    (e = .queueFull ∧ s.config.maxQueueDepthPerInstance ≤ (s.stateAt i).queue.length))) ∨
  (∃ queued, r = .ok queued ∧
    Reports (t.stateAt i) i { entry with arrivalSequence := s.nextArrivalSequence } queued ∧
    (s.stateAt i).queue.length < s.config.maxQueueDepthPerInstance ∧
    t = { s.setInstance i (refreshPreemptRequested { s.stateAt i with
        queue := sortQueue ((s.stateAt i).queue ++
          [{ entry with arrivalSequence := s.nextArrivalSequence }]) }) with
      nextArrivalSequence := s.nextArrivalSequence + 1 })

lemma insertQueueEntry_steps {entry r} (bounded : Bounded s) (fresh : Unqueued entry.requestId s)
    (step : Steps (insertQueueEntry i entry) s r t) : Inserts i entry s r t := by
  simp only [insertQueueEntry, steps_get_bind, steps_okOr_bind, steps_modify_bind,
    steps_failIf_bind, steps_set_bind, steps_read] at step
  rcases step with ⟨_, rfl, rfl⟩ | ⟨next, added, ⟨full, rfl, rfl⟩ | ⟨room, rfl, rfl⟩⟩
  · exact .inl ⟨_, rfl, Calm.refl _, .inl rfl⟩
  · exact .inl ⟨_, rfl, Calm.ensureInstance s i, .inr ⟨rfl, full⟩⟩
  obtain ⟨rfl, _⟩ := checkedAdd_eq_some_iff.mp added
  have shorter := not_le.mp room
  have permuted := sortQueue_perm ((s.stateAt i).queue ++
    [{ entry with arrivalSequence := s.nextArrivalSequence }])
  obtain ⟨queued, answered, reported⟩ := queuedByRequest_reports
    (refreshPreemptRequested { s.stateAt i with
      queue := sortQueue ((s.stateAt i).queue ++
        [{ entry with arrivalSequence := s.nextArrivalSequence }]) })
    i { entry with arrivalSequence := s.nextArrivalSequence }
    (by
      have limit := bounded.limit
      simp only [refreshPreemptRequested, permuted.length_eq, length_append, length_singleton]
      omega)
    (permuted.mem_iff.mpr (by simp))
    (by
      intro other waiting same
      rcases mem_append.mp (permuted.mem_iff.mp waiting) with older | new
      · exact absurd same (fresh i other older)
      · exact mem_singleton.mp new)
  refine .inr ⟨queued, answered, ?_, shorter, rfl⟩
  simpa [SeedScheduler.setInstance, stateAt, recordAt] using reported

lemma enqueueClaim_steps {claim r} (bounded : Bounded s)
    (step : Steps (enqueueClaim claim now) s r t) :
    (∃ e, r = .error e ∧ t = s) ∨
      (Unqueued claim.requestId s ∧ Inserts claim.instanceId (claimEntry claim) s r t) := by
  simp only [enqueueClaim, steps_get_bind, steps_read_bind, steps_failIf_bind] at step
  rcases step with ⟨_, _, rfl, rfl⟩ | ⟨_, _, ⟨_, rfl, rfl⟩ | ⟨unknown, ⟨_, _, rfl, rfl⟩ |
    ⟨_, _, step⟩⟩⟩
  any_goals exact .inl ⟨_, rfl, rfl⟩
  have fresh := requestKnown_false (Bool.eq_false_iff.mpr unknown)
  exact .inr ⟨fresh, insertQueueEntry_steps bounded fresh step⟩

/-! ## Queue requests -/

variable (s i) in
lemma ensureInstance_ensureInstance :
    (s.ensureInstance i).ensureInstance i = s.ensureInstance i := by
  unfold ensureInstance
  congr 1
  ext j : 1
  simp only [getElem?_insertIfNew, mem_insertIfNew]
  grind

variable (s i state) in
lemma setInstance_ensureInstance :
    (s.ensureInstance i).setInstance i state = s.setInstance i state := by
  unfold SeedScheduler.ensureInstance SeedScheduler.setInstance
  congr 1
  ext j : 1
  simp only [Std.ExtTreeMap.getElem?_insert, Std.ExtTreeMap.getElem?_insertIfNew]
  grind

def requestPolicy (s : SeedScheduler) (request : QueueLeaseRequest) (gate : ClaimGate) :
    LeaseAcquisitionPolicy where
  priority := request.priority
  leaseTtlMs := s.config.leaseTtlMs
  kind := .clientLease
  gate := gate

/-- What the admission of a request that waits nowhere comes to. -/
inductive Admits (s : SeedScheduler) (request : QueueLeaseRequest) (gate : ClaimGate) (now : Nat)
    (r : SchedulerResult QueueAdmissionDecision) (t : SeedScheduler) : Prop
  | cooling (remaining : Nat) (answer : r = .error (.cooldown remaining)) (calm : Calm s t)
      (hot : now < (s.stateAt request.instanceId).cooldownUntilMonotonicMs)
  | immediate (q : SchedulerResult LeasePreparation) (answer : r = q.map .lease) (calm : Calm s t)
      (free : (s.stateAt request.instanceId).lease = none)
      (cooled : (s.stateAt request.instanceId).cooldownUntilMonotonicMs ≤ now)
      (first : firstEligible (s.stateAt request.instanceId) gate now = none)
      (acquired : Acquired s request.requestId request.instanceId request.holderId
        request.connectionId (requestPolicy s request gate) now q t)
  | late (answer : r = .error .expiryOverflow) (calm : Calm s t)
  | queued (q : SchedulerResult QueuedLease) (deadline : Nat) (answer : r = q.map .queued)
      (inRange : deadline ≤ u64Max)
      (timely : (s.stateAt request.instanceId).lease ≠ none ∨
        (s.stateAt request.instanceId).cooldownUntilMonotonicMs ≤ now)
      (inserts : Inserts request.instanceId
        (clientEntry request deadline s.config.leaseTtlMs) s q t)

section Requests

variable {request : QueueLeaseRequest} {immediateAllowed : Bool}

lemma admitQueued_steps {r} (bounded : Bounded s) (fresh : Unqueued request.requestId s)
    (step : Steps (admitQueued request gate immediateAllowed now) s r t) :
    Admits s request gate now r t := by
  have ensured := Calm.ensureInstance s request.instanceId
  simp only [admitQueued, steps_modify_bind, steps_get_bind, steps_failIf_bind,
    stateAt_ensureInstance] at step
  rcases step with ⟨⟨_, hot⟩, rfl, rfl⟩ | ⟨cooled, step⟩
  · exact .cooling _ rfl ensured hot
  split at step
  · rename_i immediate
    obtain ⟨free, _, first⟩ := immediate
    rw [stateAt_ensureInstance] at first
    obtain ⟨q, prepared, rfl⟩ := steps_bind_pure.mp step
    -- The acquisition makes the record of the instance itself.
    have again : Steps (prepareAcquireWithPolicy request.requestId request.instanceId
        request.holderId request.connectionId (requestPolicy s request gate) now) s q t := by
      unfold prepareAcquireWithPolicy at prepared ⊢
      rw [steps_modify_bind] at prepared ⊢
      rw [ensureInstance_ensureInstance] at prepared
      exact prepared
    obtain ⟨calm, acquired⟩ := prepareAcquireWithPolicy_steps again
    exact .immediate q rfl calm free (not_lt.mp fun hot => cooled ⟨free, hot⟩) first acquired
  rcases steps_okOr_bind.mp step with ⟨_, rfl, rfl⟩ | ⟨deadline, added, step⟩
  · exact .late rfl ensured
  obtain ⟨_, inRange⟩ := checkedAdd_eq_some_iff.mp added
  obtain ⟨q, inserted, rfl⟩ := steps_bind_pure.mp step
  have timely : (s.stateAt request.instanceId).lease ≠ none ∨
      (s.stateAt request.instanceId).cooldownUntilMonotonicMs ≤ now := by
    by_cases held : (s.stateAt request.instanceId).lease = none
    · exact .inr (not_lt.mp fun hot => cooled ⟨held, hot⟩)
    · exact .inl held
  refine .queued q deadline rfl inRange timely ?_
  have boundedNow : Bounded (s.ensureInstance request.instanceId) :=
    ⟨bounded.limit, fun j => by rw [stateAt_ensureInstance]; exact bounded.depth j⟩
  have inserts := insertQueueEntry_steps boundedNow
    (fun j => by rw [stateAt_ensureInstance]; exact fresh j) inserted
  simp only [Inserts, stateAt_ensureInstance, setInstance_ensureInstance] at inserts
  rcases inserts with ⟨e, rfl, calm, cause⟩ | placed
  · exact .inl ⟨e, rfl, ensured.trans calm, cause⟩
  · exact .inr placed

/-- A replayed request that does not match fails as such. -/
theorem replayQueueRequestIn_error {located e}
    (small : ∀ entry ∈ located, entry.2.queue.length ≤ maxQueueDepthPerInstanceLimit)
    (failed : replayQueueRequestIn request located = .error e) :
    e = .queueRequestMismatch ∨ e = .queueConnectionMismatch := by
  induction located with
  | nil => cases failed
  | cons head rest ih =>
    obtain ⟨candidate, state⟩ := head
    obtain ⟨here, later⟩ := forall_mem_cons.mp small
    unfold replayQueueRequestIn at failed
    split at failed
    · simp only [bind_error_iff, failIf_error_iff, pure, Except.pure, reduceCtorEq,
        and_false, exists_false, or_false] at failed
      rcases failed with ⟨_, rfl⟩ | ⟨_, _, _, rfl⟩
      · exact .inl rfl
      · exact .inr rfl
    split at failed
    · rename_i position _
      have inside : position.val + 1 ≤ maxQueueDepthPerInstanceLimit :=
        (Nat.succ_le_of_lt position.isLt).trans here
      have described := queuedAtPosition_eq state candidate
        (getElem?_eq_getElem position.isLt) inside
      simp only [bind_error_iff, failIf_error_iff, described, pure, Except.pure,
        reduceCtorEq, and_false, exists_false, or_false] at failed
      rcases failed with ⟨_, rfl⟩ | ⟨_, _, _, rfl⟩
      · exact .inl rfl
      · exact .inr rfl
    · exact ih later failed

variable (s request) in
/-- What a queue request comes to: it is refused, it finds its own entry expired, it repeats an
earlier one, or it is admitted once the expired entries of its instance are gone. -/
inductive QueueRequested (gate : ClaimGate)
    (now : Nat) (r : SchedulerResult QueueAdmissionOutcome) (t : SeedScheduler) : Prop
  | refused (e : SchedulerError) (answer : r = .error e) (same : t = s)
      (ordinary : e.isFatal = false ∧ e ≠ .queueExpired)
  | expired (answer : r = .error .queueExpired) (takes : Takes request.requestId s t)
  | replayed (decision : QueueAdmissionDecision) (answer : r = .ok ⟨decision, []⟩) (same : t = s)
      (found : s.replayQueueRequest request = .ok (some decision))
  | admitted (u : SeedScheduler) (expired : List QueuedLease)
      (q : SchedulerResult QueueAdmissionDecision) (answer : r = q.map fun d => ⟨d, expired⟩)
      (fresh : Unqueued request.requestId s) (freshNow : Unqueued request.requestId u)
      (swept : Steps (takeExpiredForInstance request.instanceId now) s (.ok expired) u)
      (admits : Admits u request gate now q t)

lemma requestQueuedGated_steps {r} (bounded : Bounded s)
    (step : Steps (requestQueuedGated request gate immediateAllowed now) s r t) :
    QueueRequested s request gate now r t := by
  simp only [requestQueuedGated, steps_get_bind, steps_failIf_bind, steps_read_bind] at step
  rcases step with ⟨_, rfl, rfl⟩ | ⟨_, ⟨e, failed, rfl, rfl⟩ | ⟨replayed, answered, step⟩⟩
  · exact .refused _ rfl rfl ⟨rfl, by simp⟩
  · have small : ∀ entry ∈ t.instances.toList,
        entry.2.queue.length ≤ maxQueueDepthPerInstanceLimit := by
      rintro ⟨j, state⟩ listed
      have known := mem_toList_iff_getElem?_eq_some.mp listed
      have depth := bounded.depth j
      rw [stateAt_of_some known] at depth
      exact depth.trans bounded.limit
    refine .refused e rfl rfl ?_
    rcases replayQueueRequestIn_error small failed with rfl | rfl
    all_goals exact ⟨rfl, by simp⟩
  cases replayed with
  | some decision =>
    dsimp only at step
    split at step
    · rcases steps_bind.mp step with ⟨e, failed, rfl⟩ | ⟨_, u, removed, done⟩
      · obtain ⟨⟨⟩, rfl⟩ | ⟨⟨⟩, _⟩ := removeQueuedRequest_steps failed
        exact .refused _ rfl rfl ⟨rfl, by simp⟩
      obtain ⟨rfl, rfl⟩ := steps_throw.mp done
      obtain ⟨⟨⟩, _⟩ | ⟨_, takes⟩ := removeQueuedRequest_steps removed
      exact .expired rfl takes
    · obtain ⟨rfl, rfl⟩ := steps_pure.mp step
      exact .replayed decision rfl rfl answered
  | none =>
    have fresh : Unqueued request.requestId s := fun j entry waiting =>
      replayQueueRequestIn_none answered _ (exists_of_mem_queue waiting) entry waiting
    rcases steps_bind.mp step with ⟨e, failed, rfl⟩ | ⟨expired, u, swept, step⟩
    · obtain ⟨_, _, ⟨⟩, _⟩ := sweepInstance_steps bounded failed
    have freshNow : Unqueued request.requestId u := by
      obtain ⟨_, m, _, rfl, writes, _⟩ := sweepInstance_steps bounded swept
      intro j other waiting
      rw [show stateAt { s with instances := m } j = _ from writes j] at waiting
      split at waiting
      · exact fresh _ other (mem_of_mem_filter waiting)
      · exact fresh j other waiting
    obtain ⟨q, admitted, rfl⟩ := steps_bind_pure.mp step
    exact .admitted u expired q rfl fresh freshNow swept
      (admitQueued_steps (sweepInstance_bounded bounded swept) freshNow admitted)

end Requests

/-! ## Destructive steps -/

/-- A token passes only as the token of the active lease of its own instance, on the connection
that holds it. -/
theorem validateCurrentLease_ok
    (passed : s.validateCurrentLease token connectionId now = .ok lease) :
    s.leaseLocations[token.leaseId]? = some token.instanceId ∧
      (s.stateAt token.instanceId).lease = some lease ∧ lease.token = token ∧
      lease.connectionId = connectionId := by
  simp only [validateCurrentLease, bind_ok_iff, okOr_ok_iff, locateTokenInstance_ok_iff,
    pure_ok_iff] at passed
  obtain ⟨_, _, _, _, _, ⟨found, rfl⟩, state, here, _, _, held, holds, _, active, rfl⟩ := passed
  obtain ⟨same, connection, _⟩ := validateActiveLease_ok active
  rw [stateAt_of_some here]
  exact ⟨found, holds, same, connection⟩

lemma validateWrite_ok {u : Unit} (passed : s.validateWrite token connectionId now = .ok u) :
    ∃ lease, s.validateCurrentLease token connectionId now = .ok lease := by
  obtain ⟨lease, current, _⟩ := bind_ok_iff.mp passed
  exact ⟨lease, current⟩

/-- A begun step takes the next number on the lease of its token, which has none open; otherwise
nothing happens. -/
def Opens (token : LeaseToken) (connectionId : ConnectionId) (purpose : FencedWritePurpose)
    (s : SeedScheduler) (r : SchedulerResult FencedWrite) (t : SeedScheduler) : Prop :=
  (∃ e, r = .error e ∧ t = s) ∨
  (∃ lease stepId, (s.stateAt token.instanceId).lease = some lease ∧ lease.token = token ∧
    lease.destructiveStep = none ∧ stepId.value = s.nextStepId ∧
    r = .ok ⟨token, connectionId.value, stepId, purpose⟩ ∧
    t = { s.setInstance token.instanceId { s.stateAt token.instanceId with
        lease := some { lease with destructiveStep := some (stepId, purpose) } } with
      nextStepId := s.nextStepId + 1 })

lemma openStep_opens {purpose r}
    (passed : s.validateCurrentLease token connectionId now = .ok other)
    (held : (s.stateAt token.instanceId).lease = some lease) (idle : lease.destructiveStep = none)
    (step : Steps (openStep token connectionId (s.stateAt token.instanceId) lease purpose)
      s r t) : Opens token connectionId purpose s r t := by
  simp only [openStep, steps_get_bind, steps_okOr_bind, steps_set_bind, steps_pure] at step
  rcases step with ⟨_, rfl, rfl⟩ | ⟨next, added, ⟨_, rfl, rfl⟩ | ⟨stepId, made, rfl, rfl⟩⟩
  · exact .inl ⟨_, rfl, rfl⟩
  · exact .inl ⟨_, rfl, rfl⟩
  obtain ⟨rfl, _⟩ := checkedAdd_eq_some_iff.mp added
  have number : stepId.value = s.nextStepId := by
    unfold StepId.new at made
    split at made
    · obtain rfl := Option.some.inj made
      rfl
    · simp at made
  obtain ⟨_, found, same, _⟩ := validateCurrentLease_ok passed
  obtain rfl := Option.some.inj (held.symm.trans found)
  exact .inr ⟨lease, stepId, held, same, idle, number, rfl, rfl⟩

lemma beginDestructiveStep_opens {r}
    (step : Steps (beginDestructiveStep token connectionId now) s r t) :
    Opens token connectionId .business s r t := by
  simp only [beginDestructiveStep, steps_get_bind, steps_read_bind, steps_okOr_bind,
    steps_failIf_bind] at step
  rcases step with ⟨_, _, rfl, rfl⟩ | ⟨_, passed, ⟨_, rfl, rfl⟩ | ⟨state, found, ⟨_, rfl, rfl⟩ |
    ⟨lease, held, ⟨_, rfl, rfl⟩ | ⟨idle, ⟨_, rfl, rfl⟩ | ⟨_, step⟩⟩⟩⟩⟩
  any_goals exact .inl ⟨_, rfl, rfl⟩
  obtain rfl := stateAt_of_some found
  obtain ⟨_, current⟩ := validateWrite_ok passed
  exact openStep_opens current held (not_not.mp idle) step

lemma beginResourceClose_opens {r}
    (step : Steps (beginResourceClose token connectionId now) s r t) :
    Opens token connectionId .resourceClose s r t := by
  simp only [beginResourceClose, steps_get_bind, steps_read_bind, steps_okOr_bind,
    steps_failIf_bind] at step
  rcases step with ⟨_, _, rfl, rfl⟩ | ⟨_, passed, ⟨_, rfl, rfl⟩ | ⟨state, found, ⟨_, rfl, rfl⟩ |
    ⟨lease, held, ⟨_, rfl, rfl⟩ | ⟨idle, step⟩⟩⟩⟩
  any_goals exact .inl ⟨_, rfl, rfl⟩
  obtain rfl := stateAt_of_some found
  exact openStep_opens passed held (not_not.mp idle) step

/-- The witness was handed out to the connection for the step open on the lease. -/
structure FencedWrite.Opened (witness : FencedWrite) (connectionId : ConnectionId)
    (lease : LeaseEntry) : Prop where
  token : lease.token = witness.token
  connection : lease.connectionId = connectionId
  own : witness.connectionId = connectionId.value
  step : lease.destructiveStep = some (witness.stepId, witness.purpose)

lemma finishDestructiveStep_steps {witness r}
    (step : Steps (finishDestructiveStep witness connectionId) s r t) :
    ((∃ e, r = .error e) ∧ t = s ∧ ∀ state lease,
      s.locateLease witness.token = .ok (state, lease) → ¬ witness.Opened connectionId lease) ∨
    ∃ state lease, r = .ok () ∧ s.locateLease witness.token = .ok (state, lease) ∧
      witness.Opened connectionId lease ∧
      t = s.setInstance witness.token.instanceId
        { state with lease := some { lease with destructiveStep := none } } := by
  simp only [finishDestructiveStep, SchedulerM.setInstance, steps_get_bind, steps_read_bind,
    steps_failIf_bind, steps_modify] at step
  rcases step with ⟨e, failed, rfl, rfl⟩ | ⟨⟨state, lease⟩, located, ⟨other, rfl, rfl⟩ |
    ⟨owned, ⟨unmarked, rfl, rfl⟩ | ⟨marked, rfl, rfl⟩⟩⟩
  · exact .inl ⟨⟨_, rfl⟩, rfl, fun _ _ found => absurd (found.symm.trans failed) (by simp)⟩
  · refine .inl ⟨⟨_, rfl⟩, rfl, fun _ _ found opened => ?_⟩
    obtain ⟨rfl, rfl⟩ := Prod.mk.inj (ok.inj (found.symm.trans located))
    simp [opened.token, opened.connection, opened.own] at other
  · refine .inl ⟨⟨_, rfl⟩, rfl, fun _ _ found opened => ?_⟩
    obtain ⟨rfl, rfl⟩ := Prod.mk.inj (ok.inj (found.symm.trans located))
    exact unmarked opened.step
  · simp only [not_or, not_not] at owned marked
    exact .inr ⟨state, lease, rfl, located, ⟨owned.1, owned.2.1, owned.2.2, marked⟩, rfl⟩

/-! ## Transfers -/

lemma transferableLease_ok (passed : s.transferableLease token connectionId = .ok lease) :
    token.ownerEpoch = s.ownerEpoch ∧ s.leaseLocations[token.leaseId]? = some token.instanceId ∧
      (s.stateAt token.instanceId).lease = some lease ∧ lease.token = token ∧
      lease.connectionId = connectionId := by
  simp only [transferableLease, bind_ok_iff, failIf_ok_iff, pure_ok_iff] at passed
  obtain ⟨⟨state, found⟩, located, _, sameToken, _, sameConnection, rfl⟩ := passed
  obtain ⟨epoch, indexed, here, held⟩ := locateLease_ok_iff.mp located
  rw [stateAt_of_some here]
  exact ⟨epoch, indexed, held, not_not.mp sameToken, not_not.mp sameConnection⟩

/-- What the preparation of a transfer comes to, where `accepted` are its checks of the other
arguments, `nobody` says that there is no receiver and `candidate` who it is. -/
inductive Readies (accepted nobody : Prop) (candidate : QueueEntry → Prop)
    (reason : LeaseTransferReason) (releaseRequestId : Option RequestId) (token : LeaseToken)
    (connectionId : ConnectionId) (s : SeedScheduler) (r : SchedulerResult TransferPreparation)
    (t : SeedScheduler) : Prop
  | refused (e : SchedulerError) (answer : r = .error e) (same : t = s)
      (fails : ¬ (accepted ∧ ∃ lease, s.transferableLease token connectionId = .ok lease))
  | deferred (lease : LeaseEntry) (answer : r = .ok .deferred) (same : t = s) (passes : accepted)
      (source : s.transferableLease token connectionId = .ok lease)
      (busy : lease.destructiveStep ≠ none)
  | failed (lease : LeaseEntry) (e : SchedulerError) (answer : r = .error e) (calm : Calm s t)
      (source : s.transferableLease token connectionId = .ok lease)
      (idle : lease.destructiveStep = none)
  | noCandidate (lease : LeaseEntry) (answer : r = .ok .noCandidate) (same : t = s)
      (source : s.transferableLease token connectionId = .ok lease)
      (idle : lease.destructiveStep = none) (none : nobody)
  | ready (p : PreparedLeaseTransfer) (answer : r = .ok (.ready p)) (calm : Calm s t)
      (passes : accepted) (source : s.transferableLease token connectionId = .ok p.source)
      (idle : p.source.destructiveStep = none) (receiver : candidate p.queued)
      (sameReason : p.reason = reason) (request : p.releaseRequestId = releaseRequestId)
      (minted : MintedBetween s t p.toToken.leaseId)
      (here : p.toToken.instanceId = p.source.token.instanceId)

section Transfers

variable {reason : LeaseTransferReason} {releaseRequestId : Option RequestId}
  {accepted nobody : Prop} {candidate : QueueEntry → Prop}
  {r : SchedulerResult TransferPreparation}

lemma preparedTransfer_steps {queued} {handOff : Bool} (passes : accepted)
    (source : s.transferableLease token connectionId = .ok lease)
    (idle : lease.destructiveStep = none) (receiver : candidate queued)
    (step : Steps (preparedTransfer lease queued reason releaseRequestId handOff now) s r t) :
    Readies accepted nobody candidate reason releaseRequestId token connectionId s r t := by
  obtain ⟨q, minting, rfl⟩ := steps_bind_pure.mp step
  obtain ⟨calm, ⟨e, rfl, _⟩ | ⟨toToken, rfl, minted⟩⟩ := mintToken_steps minting
  · exact .failed lease e rfl calm source idle
  · exact .ready _ rfl calm passes source idle receiver rfl rfl minted.between minted.instanceId

lemma prepareTransferGated_steps
    (step : Steps (prepareTransferGated token connectionId reason releaseRequestId gate now)
      s r t) :
    Readies (reason = .explicitRelease ↔ releaseRequestId.isSome = true)
      (firstEligible (s.stateAt token.instanceId) gate now = none ∨ reason = .preempted)
      (fun entry => (queues s token.instanceId).find? (·.eligible gate now) = some entry)
      reason releaseRequestId token connectionId s r t := by
  simp only [prepareTransferGated, steps_get_bind, steps_failIf_bind, steps_read_bind] at step
  rcases step with ⟨unpaired, rfl, rfl⟩ | ⟨paired, ⟨e, failed, rfl, rfl⟩ | ⟨lease, source, step⟩⟩
  · refine .refused _ rfl rfl fun both => unpaired ?_
    rw [Bool.eq_iff_iff, decide_eq_true_iff]
    exact both.1
  · refine .refused e rfl rfl ?_
    rintro ⟨_, _, passed⟩
    exact absurd (passed.symm.trans failed) (by simp)
  rw [not_not, Bool.eq_iff_iff, decide_eq_true_iff] at paired
  split at step
  · rename_i busy
    obtain ⟨rfl, rfl⟩ := steps_pure.mp step
    exact .deferred lease rfl rfl paired source busy
  rename_i idle
  have idle := not_not.mp idle
  rcases steps_okOr_bind.mp step with ⟨_, rfl, rfl⟩ | ⟨state, found, step⟩
  · exact .failed lease _ rfl (Calm.refl _) source idle
  obtain rfl := stateAt_of_some found
  split at step
  · rename_i nobody
    obtain ⟨rfl, rfl⟩ := steps_pure.mp step
    exact .noCandidate lease rfl rfl source idle (.inl nobody)
  rename_i position first
  split at step
  · rename_i preempts
    obtain ⟨rfl, rfl⟩ := steps_pure.mp step
    exact .noCandidate lease rfl rfl source idle (.inr preempts.1)
  refine preparedTransfer_steps paired source idle ?_ step
  rw [find?_eq_map_findFinIdx?_getElem]
  exact congrArg (Option.map _) first

lemma prepareClaimHandOff_steps {claim}
    (step : Steps (prepareClaimHandOff token connectionId reason releaseRequestId claim gate now)
      s r t) :
    Readies (s.validateClaimTtl claim.leaseTtlMs = .ok () ∧ claim.instanceId = token.instanceId)
      (gate.holds claim.kind = true) (· = claimEntry claim) reason releaseRequestId token
      connectionId s r t := by
  simp only [prepareClaimHandOff, steps_get_bind, steps_failIf_bind, steps_read_bind] at step
  rcases step with ⟨e, failed, rfl, rfl⟩ | ⟨⟨⟩, ttl, ⟨elsewhere, rfl, rfl⟩ | ⟨here,
    ⟨e, failed, rfl, rfl⟩ | ⟨lease, source, step⟩⟩⟩
  · exact .refused e rfl rfl fun both => absurd (both.1.1.symm.trans failed) (by simp)
  · exact .refused _ rfl rfl fun both => elsewhere both.1.2
  · refine .refused e rfl rfl ?_
    rintro ⟨_, _, passed⟩
    exact absurd (passed.symm.trans failed) (by simp)
  split at step
  · rename_i busy
    obtain ⟨rfl, rfl⟩ := steps_pure.mp step
    exact .deferred lease rfl rfl ⟨ttl, not_not.mp here⟩ source busy
  rename_i idle
  have idle := not_not.mp idle
  split at step
  · rename_i held
    obtain ⟨rfl, rfl⟩ := steps_pure.mp step
    exact .noCandidate lease rfl rfl source idle held
  rcases steps_failIf_bind.mp step with ⟨_, rfl, rfl⟩ | ⟨_, step⟩
  · exact .failed lease _ rfl (Calm.refl _) source idle
  · exact preparedTransfer_steps ⟨ttl, not_not.mp here⟩ source idle rfl step

end Transfers

variable {p : PreparedLeaseTransfer}

lemma queueAfterTransfer_sublist {queue left}
    (after : queueAfterTransfer p queue = some left) : left.Sublist queue := by
  unfold queueAfterTransfer at after
  split at after
  · split at after
    · simp at after
    · obtain rfl := Option.some.inj after
      exact List.Sublist.refl _
  · obtain ⟨position, _, rfl⟩ := Option.map_eq_some_iff.mp after
    exact eraseIdx_sublist _ _

/-- A transfer is applied whole or changes nothing. -/
theorem commitTransfer_steps {r} (step : Steps (commitTransfer p now) s r t) :
    (∃ e, r = .error e ∧ t = s) ∨
    (∃ queue, r = .ok p.toToken ∧ p.toToken.ownerEpoch = s.ownerEpoch ∧
      (s.stateAt p.source.token.instanceId).lease = some p.source ∧
      queueAfterTransfer p (s.stateAt p.source.token.instanceId).queue = some queue ∧
      t = { s.setInstance p.source.token.instanceId
          (transferredState (s.stateAt p.source.token.instanceId) p queue (transferRecord p)) with
        leaseLocations := (s.leaseLocations.erase p.source.token.leaseId).insert
          p.toToken.leaseId p.source.token.instanceId }) := by
  simp only [commitTransfer, steps_get_bind, steps_read_bind, steps_failIf_bind, steps_okOr_bind,
    steps_set_bind, steps_pure] at step
  rcases step with ⟨_, _, rfl, rfl⟩ | ⟨_, _, ⟨_, _, rfl, rfl⟩ | ⟨_, epoch, ⟨_, rfl, rfl⟩ |
    ⟨_, ⟨_, rfl, rfl⟩ | ⟨state, found, ⟨_, rfl, rfl⟩ | ⟨held, ⟨_, rfl, rfl⟩ |
    ⟨queue, after, rfl, rfl⟩⟩⟩⟩⟩⟩
  any_goals exact .inl ⟨_, rfl, rfl⟩
  obtain rfl := stateAt_of_some found
  exact .inr ⟨queue, rfl, validateEpoch_ok_iff.mp epoch, not_not.mp held, after, rfl⟩

/-! ## Remembered calls -/

/-- A call as an instance remembers it: the request, its token and connection, and the answer. -/
structure Remembered (α : Type) where
  requestId : RequestId
  token : LeaseToken
  connectionId : ConnectionId
  answer : α

def renewal (state : InstanceState) : Option (Remembered LeaseToken) :=
  state.lease.bind fun lease => lease.lastRenew.map fun record =>
    ⟨record.requestId, record.submittedToken, lease.connectionId, record.renewedToken⟩

def endedLease (state : InstanceState) : Option (Remembered ReleasedLease) :=
  state.lastRelease.map fun record =>
    ⟨record.requestId, record.submittedToken, record.connectionId, record.released⟩

section Remembered

variable {α : Type} {memory : InstanceState → Option (Remembered α)} {answer : α}

/-- The answer that the call's instance remembers; the request id is refused to another call. -/
def remembered (memory : InstanceState → Option (Remembered α)) (s : SeedScheduler)
    (requestId : RequestId) (token : LeaseToken) (connectionId : ConnectionId) :
    SchedulerResult (Option α) := do
  s.validateEpoch token
  match (memory (s.stateAt token.instanceId)).filter (·.requestId = requestId) with
  | none => return none
  | some record =>
    failIf (record.token ≠ token) SchedulerError.leaseMismatch
    failIf (record.connectionId ≠ connectionId) SchedulerError.connectionMismatch
    return some record.answer

/-- The instance of the call remembers it with this answer. -/
def Recorded (memory : InstanceState → Option (Remembered α)) (requestId : RequestId)
    (token : LeaseToken) (connectionId : ConnectionId) (answer : α) (s : SeedScheduler) : Prop :=
  token.ownerEpoch = s.ownerEpoch ∧
    memory (s.stateAt token.instanceId) = some ⟨requestId, token, connectionId, answer⟩

lemma remembered_iff : remembered memory s requestId token connectionId = .ok (some answer) ↔
    Recorded memory requestId token connectionId answer s := by
  simp only [remembered, Recorded, bind_ok_iff, validateEpoch_ok_iff, exists_const]
  refine and_congr_right fun _ => ?_
  rcases memory (s.stateAt token.instanceId) with _ | ⟨asked, own, connection, given⟩
  · simp
  · by_cases named : asked = requestId <;>
      simp [bind_ok_iff, failIf_ok_iff, Option.filter_some, named, -bind_pure_comp]

end Remembered

lemma replayedRenew_eq : s.replayedRenew requestId token connectionId =
    remembered renewal s requestId token connectionId := by
  unfold replayedRenew remembered renewal
  rw [leaseOf_eq_stateAt]
  cases (s.stateAt token.instanceId).lease with
  | none => rfl
  | some lease =>
    cases recorded : lease.lastRenew with
    | none => simp [recorded]
    | some record =>
      by_cases named : record.requestId = requestId <;> simp [recorded, Option.filter_some, named]

lemma replayedRelease_eq : s.replayedRelease requestId token connectionId =
    remembered endedLease s requestId token connectionId := by
  have last : (s.instances[token.instanceId]?).bind (·.lastRelease) =
      (s.stateAt token.instanceId).lastRelease := by
    rw [stateAt, recordAt]
    cases s.instances[token.instanceId]? with
    | none => rfl
    | some state => rfl
  rw [replayedRelease, last, remembered, endedLease]
  cases (s.stateAt token.instanceId).lastRelease with
  | none => rfl
  | some record =>
    by_cases named : record.requestId = requestId <;> simp [Option.filter_some, named]

/-! ## Renewing -/

structure RenewsTo (lease : LeaseEntry) (renewed : LeaseToken) (record : Option RenewRecord)
    (s t : SeedScheduler) : Prop where
  held : (s.stateAt lease.token.instanceId).lease = some lease
  epoch : lease.token.ownerEpoch = s.ownerEpoch
  token : ∃ expiresAt, renewed =
    ⟨s.ownerEpoch, lease.token.leaseId, lease.token.instanceId, lease.token.holderId, expiresAt⟩
  after : t = s.setInstance lease.token.instanceId { s.stateAt lease.token.instanceId with
    lease := some { lease with token := renewed, lastRenew := record } }

lemma renewWithTtl_steps {r} (step : Steps (renewWithTtl token connectionId leaseTtlMs now) s r t) :
    (∃ e, r = .error e ∧ t = s) ∨
      ∃ lease renewed, lease.token = token ∧ lease.connectionId = connectionId ∧
        r = .ok renewed ∧ RenewsTo lease renewed lease.lastRenew s t := by
  simp only [renewWithTtl, SchedulerM.setInstance, steps_get_bind, steps_read_bind,
    steps_okOr_bind, steps_modify_bind, steps_pure] at step
  rcases step with ⟨_, _, rfl, rfl⟩ | ⟨_, _, ⟨_, _, rfl, rfl⟩ | ⟨_, epoch, ⟨_, _, rfl, rfl⟩ |
    ⟨_, _, ⟨_, rfl, rfl⟩ | ⟨state, found, ⟨_, rfl, rfl⟩ | ⟨lease, held, ⟨_, _, rfl, rfl⟩ |
    ⟨_, active, ⟨_, rfl, rfl⟩ | ⟨renewed, made, rfl, rfl⟩⟩⟩⟩⟩⟩⟩
  any_goals exact .inl ⟨_, rfl, rfl⟩
  obtain rfl := stateAt_of_some found
  obtain ⟨rfl, connection, _⟩ := validateActiveLease_ok active
  exact .inr ⟨lease, renewed, rfl, connection, rfl, (Option.filter_eq_some_iff.mp held).1,
    validateEpoch_ok_iff.mp epoch, ⟨_, LeaseToken.new_eq_some made⟩, rfl⟩

/-- A renewal replays its record, renews the lease and records that, or changes nothing. -/
theorem renew_steps {r} (step : Steps (SchedulerM.renew requestId token connectionId now) s r t) :
    (∃ e, r = .error e ∧ t = s) ∨
    (∃ renewed, Recorded renewal requestId token connectionId renewed s ∧
      r = .ok renewed ∧ t = s) ∨
    (∃ lease renewed, lease.token = token ∧ lease.connectionId = connectionId ∧ r = .ok renewed ∧
      RenewsTo lease renewed (some ⟨requestId, token, renewed⟩) s t) := by
  simp only [SchedulerM.renew, steps_get_bind, steps_read_bind, replayedRenew_eq] at step
  rcases step with ⟨_, _, rfl, rfl⟩ | ⟨replayed, answered, step⟩
  · exact .inl ⟨_, rfl, rfl⟩
  cases replayed with
  | some renewed =>
    obtain ⟨rfl, rfl⟩ := steps_pure.mp step
    exact .inr (.inl ⟨renewed, remembered_iff.mp answered, rfl, rfl⟩)
  | none =>
    simp only [SchedulerM.setInstance, steps_read_bind, steps_okOr_bind, steps_modify_bind,
      steps_pure] at step
    rcases step with ⟨_, _, rfl, rfl⟩ | ⟨_, epoch, ⟨_, _, rfl, rfl⟩ | ⟨i, located,
      ⟨_, _, rfl, rfl⟩ | ⟨_, _, ⟨_, rfl, rfl⟩ | ⟨state, found, ⟨_, rfl, rfl⟩ | ⟨lease, held,
      ⟨_, _, rfl, rfl⟩ | ⟨_, active, ⟨_, rfl, rfl⟩ | ⟨renewed, made, rfl, rfl⟩⟩⟩⟩⟩⟩⟩
    any_goals exact .inl ⟨_, rfl, rfl⟩
    obtain rfl := stateAt_of_some found
    obtain ⟨_, rfl⟩ := locateTokenInstance_ok_iff.mp located
    obtain ⟨rfl, connection, _⟩ := validateActiveLease_ok active
    exact .inr (.inr ⟨lease, renewed, rfl, connection, rfl, held,
      validateEpoch_ok_iff.mp epoch, ⟨_, LeaseToken.new_eq_some made⟩, rfl⟩)

/-! ## Ending a lease -/

/-- A release replays its record, ends the lease and records that, or changes nothing. -/
theorem release_steps {r} (step : Steps (release requestId token connectionId now) s r t) :
    (∃ e, r = .error e ∧ t = s) ∨
    (∃ released, Recorded endedLease requestId token connectionId released s ∧
      r = .ok released ∧ t = s) ∨
    (∃ state lease, s.locateLease token = .ok (state, lease) ∧ lease.token = token ∧
      lease.connectionId = connectionId ∧ r = .ok ⟨token, .explicit⟩ ∧
      t = { s.setInstance token.instanceId { state with
          lease := none
          lastRelease := some ⟨requestId, token, connectionId, ⟨token, .explicit⟩⟩ } with
        leaseLocations := s.leaseLocations.erase token.leaseId }) := by
  simp only [release, steps_get_bind, steps_read_bind, replayedRelease_eq] at step
  rcases step with ⟨_, _, rfl, rfl⟩ | ⟨replayed, answered, step⟩
  · exact .inl ⟨_, rfl, rfl⟩
  cases replayed with
  | some released =>
    obtain ⟨rfl, rfl⟩ := steps_pure.mp step
    exact .inr (.inl ⟨released, remembered_iff.mp answered, rfl, rfl⟩)
  | none =>
    simp only [endLease, steps_read_bind, steps_modify_bind, steps_pure] at step
    rcases step with ⟨_, _, rfl, rfl⟩ | ⟨⟨state, lease⟩, located, ⟨_, _, rfl, rfl⟩ |
      ⟨_, active, rfl, rfl⟩⟩
    · exact .inl ⟨_, rfl, rfl⟩
    · exact .inl ⟨_, rfl, rfl⟩
    obtain ⟨same, connection, _⟩ := validateActiveLease_ok active
    dsimp only at same connection ⊢
    rw [same]
    exact .inr (.inr ⟨state, lease, located, same, connection, rfl, rfl⟩)

/-- The end of the lease a token carries, with nothing kept to replay. -/
def EndsWith (token : LeaseToken) (s t : SeedScheduler) : Prop :=
  ∃ state lease, s.locateLease token = .ok (state, lease) ∧ lease.token = token ∧
    t = { s.setInstance token.instanceId { state with lease := none, lastRelease := none } with
      leaseLocations := s.leaseLocations.erase token.leaseId }

lemma expireToken_steps {r} (step : Steps (expireToken token now) s r t) :
    (∃ e, r = .error e ∧ t = s) ∨ (r = .ok ⟨token, .expired⟩ ∧ EndsWith token s t) := by
  simp only [expireToken, endLease, steps_get_bind, steps_read_bind, steps_failIf_bind,
    steps_modify_bind, steps_pure] at step
  rcases step with ⟨_, _, rfl, rfl⟩ | ⟨⟨state, lease⟩, located, ⟨_, rfl, rfl⟩ |
    ⟨same, ⟨_, rfl, rfl⟩ | ⟨_, rfl, rfl⟩⟩⟩
  any_goals exact .inl ⟨_, rfl, rfl⟩
  obtain rfl := not_not.mp same
  exact .inr ⟨rfl, state, lease, located, rfl, rfl⟩

lemma releaseOwned_steps {reason r} (step : Steps (releaseOwned token connectionId reason) s r t) :
    (∃ e, r = .error e ∧ t = s) ∨ (r = .ok ⟨token, reason⟩ ∧ EndsWith token s t) := by
  simp only [releaseOwned, endLease, steps_get_bind, steps_read_bind, steps_failIf_bind,
    steps_modify_bind, steps_pure] at step
  rcases step with ⟨_, rfl, rfl⟩ | ⟨_, ⟨_, _, rfl, rfl⟩ | ⟨⟨state, lease⟩, located,
    ⟨_, rfl, rfl⟩ | ⟨same, ⟨_, rfl, rfl⟩ | ⟨_, rfl, rfl⟩⟩⟩⟩
  any_goals exact .inl ⟨_, rfl, rfl⟩
  obtain rfl := not_not.mp same
  exact .inr ⟨rfl, state, lease, located, rfl, rfl⟩

lemma rollbackLease_steps {r} (step : Steps (rollbackLease token) s r t) :
    (∃ e, r = .error e ∧ t = s) ∨ (r = .ok () ∧ EndsWith token s t) := by
  simp only [rollbackLease, endLease, steps_get_bind, steps_read_bind, steps_failIf_bind,
    steps_modify] at step
  rcases step with ⟨_, _, rfl, rfl⟩ | ⟨⟨state, lease⟩, located, ⟨_, rfl, rfl⟩ |
    ⟨same, rfl, rfl⟩⟩
  · exact .inl ⟨_, rfl, rfl⟩
  · exact .inl ⟨_, rfl, rfl⟩
  · exact .inr ⟨rfl, state, lease, located, not_not.mp same, rfl⟩

/-! ## Cooldowns -/

lemma clearElapsedCooldowns_calm {r}
    (step : Steps (clearElapsedCooldowns now) s r t) : Calm s t := by
  simp only [clearElapsedCooldowns, steps_get_bind, steps_set_bind, steps_pure] at step
  obtain ⟨_, rfl⟩ := step
  have state : ∀ j, stateAt
      { s with instances := s.instances.map fun _ state => clearCooldown now state } j =
        clearCooldown now (s.stateAt j) := by
    intro j
    rw [stateAt, stateAt, recordAt, recordAt,
      Std.ExtTreeMap.getElem?_map]
    cases s.instances[j]? with
    | none => simp [clearCooldown]
    | some state => rfl
  refine ⟨rfl, rfl, rfl, le_rfl, rfl, rfl, rfl, fun j => ?_, fun j => ?_⟩
  · rw [state, clearCooldown]
    split <;> rfl
  rw [state, clearCooldown]
  split
  · exact .inr rfl
  · exact .inl rfl

end Scheduler
