import ActingCommand.Scheduler.Run

/-!
# What a call can do to the scheduler

Every public operation is a sequence of a few kinds of change: it settles cooldowns or
mints an identifier, shortens a queue, queues an entry, grants, transfers, renews or ends
a lease, opens or closes a step. The invariants are proved for these kinds of change and
never for the operations themselves.
-/

namespace Scheduler

open Machine Call SchedulerM List Option Except Std.ExtTreeMap

/-! ## The record of an instance -/

namespace SeedScheduler

variable {s : SeedScheduler} {instanceId : InstanceId} {state : InstanceState}

lemma stateAt_of_some (found : s.instances[instanceId]? = some state) :
    s.stateAt instanceId = state := by
  rw [stateAt, recordAt, found, getD_some]

variable (s instanceId) in
lemma leaseOf_eq_stateAt :
    s.leaseOf instanceId = (s.stateAt instanceId).lease := by
  rw [leaseOf, stateAt, recordAt]
  cases s.instances[instanceId]? with
  | none => rfl
  | some state => rfl

end SeedScheduler

open SeedScheduler
section

variable (s : SeedScheduler) (instanceId : InstanceId)

def queues (i : InstanceId) : List QueueEntry := (s.stateAt i).queue

/-- The map gives `instanceId` the record `state` and leaves the others as `s` has them. -/
def Writes (instances : Std.ExtTreeMap InstanceId InstanceState) (instanceId : InstanceId)
    (state : InstanceState) : Prop :=
  ∀ j, recordAt instances j = if instanceId = j then state else s.stateAt j

lemma writes_insert (state : InstanceState) :
    Writes s (s.instances.insert instanceId state) instanceId state := by
  intro j
  rw [recordAt, Std.ExtTreeMap.getElem?_insert]
  by_cases same : instanceId = j
  · simp [same]
  · simp [same, stateAt, recordAt]

lemma writes_unchanged : Writes s s.instances instanceId (s.stateAt instanceId) := by
  intro j
  by_cases same : instanceId = j
  · subst j
    simp [stateAt]
  · simp [same, stateAt]

@[simp] lemma stateAt_setInstance (j : InstanceId) (state : InstanceState) :
    (s.setInstance instanceId state).stateAt j = if instanceId = j then state else s.stateAt j :=
  writes_insert s instanceId state j

@[simp] lemma stateAt_ensureInstance (j : InstanceId) :
    (s.ensureInstance instanceId).stateAt j = s.stateAt j := by
  rw [stateAt, recordAt, ensureInstance,
    getElem?_insertIfNew, stateAt, recordAt]
  split
  · rename_i absent
    obtain ⟨same, missing⟩ := absent
    rw [Std.LawfulEqOrd.compare_eq_iff_eq] at same
    subst j
    rw [getElem?_eq_none missing]
    rfl
  · rfl

end

/-- Writing a record twice keeps the second. -/
theorem Writes.after_setInstance {s m instanceId first second}
    (writes : Writes (s.setInstance instanceId first) m instanceId second) :
    Writes s m instanceId second := by
  intro j
  rw [writes j, stateAt_setInstance]
  split
  · rfl
  · rfl

/-- A queued entry lies in the record of a known instance. -/
theorem exists_of_mem_queue {s : SeedScheduler} {j} {entry}
    (waiting : entry ∈ (s.stateAt j).queue) : (j, s.stateAt j) ∈ s.instances.toList := by
  rw [mem_toList_iff_getElem?_eq_some]
  cases found : s.instances[j]? with
  | none =>
    rw [stateAt, recordAt, found] at waiting
    exact absurd waiting not_mem_nil
  | some state => rw [stateAt_of_some found]

/-! ## What a passed check says -/

lemma validateActiveLease_ok {lease token connectionId} {now : Nat} {u : Unit}
    (passed : validateActiveLease lease token connectionId now = .ok u) :
    lease.token = token ∧ lease.connectionId = connectionId ∧
      now < lease.token.expiresAtMonotonicMs := by
  simp only [validateActiveLease, bind_ok_iff, failIf_ok_iff] at passed
  obtain ⟨_, _, _, _, _, _, _, connection, _, unexpired, same⟩ := passed
  exact ⟨not_not.mp same, not_not.mp connection, not_le.mp unexpired⟩

lemma validateEpoch_ok_iff {s : SeedScheduler} {token} {u : Unit} :
    s.validateEpoch token = .ok u ↔ token.ownerEpoch = s.ownerEpoch := by
  rw [validateEpoch, failIf_ok_iff, not_not]

lemma locateTokenInstance_ok_iff {s : SeedScheduler} {token instanceId} :
    s.locateTokenInstance token = .ok instanceId ↔
      s.leaseLocations[token.leaseId]? = some token.instanceId ∧
        instanceId = token.instanceId := by
  simp only [locateTokenInstance, bind_ok_iff, failIf_ok_iff,
    okOr_ok_iff, pure_ok_iff]
  constructor
  · rintro ⟨located, found, _, same, rfl⟩
    rw [not_not] at same
    exact ⟨by rw [found, same], same⟩
  · rintro ⟨found, rfl⟩
    exact ⟨token.instanceId, found, (), by simp, rfl⟩

/-- A located token names the scheduler's epoch, the instance the index gives and the lease
held there. -/
theorem locateLease_ok_iff {s : SeedScheduler} {token state lease} :
    s.locateLease token = .ok (state, lease) ↔
      token.ownerEpoch = s.ownerEpoch ∧
      s.leaseLocations[token.leaseId]? = some token.instanceId ∧
      s.instances[token.instanceId]? = some state ∧ state.lease = some lease := by
  simp only [locateLease, bind_ok_iff, okOr_ok_iff,
    validateEpoch_ok_iff, locateTokenInstance_ok_iff, pure_ok_iff]
  constructor
  · rintro ⟨_, epoch, _, ⟨indexed, rfl⟩, found, here, held, lease', same⟩
    obtain ⟨rfl, rfl⟩ := Prod.mk.inj same
    exact ⟨epoch, indexed, here, lease'⟩
  · rintro ⟨epoch, indexed, here, held⟩
    exact ⟨(), epoch, _, ⟨indexed, rfl⟩, state, here, lease, held, rfl⟩

/-! ## Finding a request -/

/-- A located request is the one waiting at the position it was found at. -/
theorem locateQueued_some {s : SeedScheduler} {requestId i} {position : Nat}
    (found : s.locateQueued requestId = some (i, position)) :
    s.instances[i]? = some (s.stateAt i) ∧
      ∃ entry, (s.stateAt i).queue[position]? = some entry ∧ entry.requestId = requestId := by
  obtain ⟨located, listed, here⟩ := exists_of_findSome?_eq_some found
  obtain ⟨p, at_p, same⟩ := map_eq_some_iff.mp here
  obtain ⟨rfl, rfl⟩ := Prod.mk.inj same
  have known := mem_toList_iff_getElem?_eq_some.mp listed
  have state := stateAt_of_some known
  obtain ⟨inside, matched, _⟩ := findIdx?_eq_some_iff_getElem.mp at_p
  rw [state]
  exact ⟨known, _, getElem?_eq_getElem inside, of_decide_eq_true matched⟩

lemma requestKnown_false {s : SeedScheduler} {requestId}
    (unknown : s.requestKnown requestId = false) (j : InstanceId) (entry : QueueEntry)
    (waiting : entry ∈ (s.stateAt j).queue) : entry.requestId ≠ requestId := by
  have absent := List.any_eq_false.mp unknown _ (exists_of_mem_queue waiting)
  intro same
  apply absent
  simp only [Bool.or_eq_true, List.any_eq_true]
  exact Or.inr ⟨entry, waiting, decide_eq_true same⟩

lemma replayQueueRequestIn_none {request located}
    (missing : replayQueueRequestIn request located = .ok none) :
    ∀ entry ∈ located, ∀ queued ∈ entry.2.queue, queued.requestId ≠ request.requestId := by
  induction located with
  | nil => simp
  | cons head rest ih =>
    obtain ⟨candidate, state⟩ := head
    unfold replayQueueRequestIn at missing
    split at missing
    · simp [bind_ok_iff, pure, Except.pure] at missing
    split at missing
    · simp [bind_ok_iff, pure, Except.pure] at missing
    rename_i absent
    rw [forall_mem_cons]
    refine ⟨?_, ih missing⟩
    intro queued waiting same
    exact findFinIdx?_eq_none_iff.mp absent queued waiting (decide_eq_true same)

/-- A replay hands out nothing new: the lease is held already or the entry waits already. -/
theorem replayQueueRequestIn_produces {request located decision expired}
    (answered : replayQueueRequestIn request located = .ok (some decision)) :
    (Response.admitted ⟨decision, expired⟩).produces = [] := by
  induction located with
  | nil => simp [replayQueueRequestIn, pure, Except.pure] at answered
  | cons head rest ih =>
    unfold replayQueueRequestIn at answered
    split at answered
    · simp only [bind_ok_iff, pure_ok_iff, some.injEq] at answered
      obtain ⟨_, _, _, _, rfl⟩ := answered
      rfl
    split at answered
    · simp only [bind_ok_iff, pure_ok_iff, some.injEq] at answered
      obtain ⟨_, _, _, _, _, _, rfl⟩ := answered
      rfl
    · exact ih answered

/-! ## The kinds of change -/

/-- Nothing but cooldowns that end and identifiers that are minted. -/
structure Calm (s t : SeedScheduler) : Prop where
  ownerEpoch : t.ownerEpoch = s.ownerEpoch
  config : t.config = s.config
  nameSpace : t.leaseIssuer.nameSpace = s.leaseIssuer.nameSpace
  issued : s.leaseIssuer.nextSequence ≤ t.leaseIssuer.nextSequence
  leaseLocations : t.leaseLocations = s.leaseLocations
  nextArrivalSequence : t.nextArrivalSequence = s.nextArrivalSequence
  nextStepId : t.nextStepId = s.nextStepId
  state : ∀ j, t.stateAt j = { s.stateAt j with
    cooldownUntilMonotonicMs := (t.stateAt j).cooldownUntilMonotonicMs }
  cooldown : ∀ j, (t.stateAt j).cooldownUntilMonotonicMs =
    (s.stateAt j).cooldownUntilMonotonicMs ∨ (t.stateAt j).cooldownUntilMonotonicMs = 0

namespace Calm

variable {s t u : SeedScheduler}

lemma refl (s : SeedScheduler) : Calm s s :=
  ⟨rfl, rfl, rfl, le_rfl, rfl, rfl, rfl, fun _ => rfl, fun _ => Or.inl rfl⟩

lemma lease (calm : Calm s t) (j : InstanceId) : (t.stateAt j).lease = (s.stateAt j).lease := by
  rw [calm.state j]

lemma queue (calm : Calm s t) (j : InstanceId) : (t.stateAt j).queue = (s.stateAt j).queue := by
  rw [calm.state j]

lemma lastRelease (calm : Calm s t) (j : InstanceId) :
    (t.stateAt j).lastRelease = (s.stateAt j).lastRelease := by
  rw [calm.state j]

lemma trans (first : Calm s t) (second : Calm t u) : Calm s u where
  ownerEpoch := second.ownerEpoch.trans first.ownerEpoch
  config := second.config.trans first.config
  nameSpace := second.nameSpace.trans first.nameSpace
  issued := first.issued.trans second.issued
  leaseLocations := second.leaseLocations.trans first.leaseLocations
  nextArrivalSequence := second.nextArrivalSequence.trans first.nextArrivalSequence
  nextStepId := second.nextStepId.trans first.nextStepId
  state j := by
    have later := second.state j
    rw [first.state j] at later
    exact later
  cooldown j := by
    rcases second.cooldown j with kept | zero
    · rw [kept]
      exact first.cooldown j
    · exact Or.inr zero

lemma ensureInstance (s : SeedScheduler) (instanceId : InstanceId) :
    Calm s (s.ensureInstance instanceId) where
  ownerEpoch := rfl
  config := rfl
  nameSpace := rfl
  issued := le_rfl
  leaseLocations := rfl
  nextArrivalSequence := rfl
  nextStepId := rfl
  state j := by rw [stateAt_ensureInstance]
  cooldown j := by
    rw [stateAt_ensureInstance]
    exact Or.inl rfl

lemma endCooldown (s : SeedScheduler) (instanceId : InstanceId) :
    Calm s (s.setInstance instanceId
      { s.stateAt instanceId with cooldownUntilMonotonicMs := 0 }) where
  ownerEpoch := rfl
  config := rfl
  nameSpace := rfl
  issued := le_rfl
  leaseLocations := rfl
  nextArrivalSequence := rfl
  nextStepId := rfl
  state j := by
    rw [stateAt_setInstance]
    split
    · rename_i same
      rw [same]
    · rfl
  cooldown j := by
    rw [stateAt_setInstance]
    split
    · exact Or.inr rfl
    · exact Or.inl rfl

end Calm

/-- The identifier was minted between the two states. -/
def MintedBetween (s t : SeedScheduler) (leaseId : LeaseId) : Prop :=
  ∃ sequence, s.leaseIssuer.nextSequence ≤ sequence ∧
    sequence < t.leaseIssuer.nextSequence ∧ leaseId = s.leaseIssuer.leaseIdAt sequence

/-- A prepared transfer stays on its instance and starts from a lease with no open step. -/
def WellPrepared : Outstanding → Prop
  | .lease _ => True
  | .transfer prepared =>
    prepared.toToken.instanceId = prepared.source.token.instanceId ∧
      prepared.source.destructiveStep = none

def transferredState (state : InstanceState) (prepared : PreparedLeaseTransfer)
    (queue : List QueueEntry) (record : Option ReleaseRecord) : InstanceState :=
  refreshPreemptRequested { state with
    queue := queue
    lastRelease := record
    lease := some (receivedLease prepared) }

def grantedState (state : InstanceState) (prepared : PreparedLease) (queue : List QueueEntry) :
    InstanceState :=
  { refreshPreemptRequested { state with queue := queue, lease := some (grantedLease prepared) }
    with lastRelease := none }

/-- What a call may do: the release records it may write, the leases it may end and the instant
it is made at. -/
structure Scope where
  records : ReleaseRecord → Prop
  ends : LeaseId → Prop
  now : Nat

/-- One change of the scheduler together with the preparations not yet committed. -/
inductive Change (scope : Scope) :
    SeedScheduler × List Outstanding → SeedScheduler × List Outstanding → Prop
  | calm {s t : SeedScheduler} {out : List Outstanding} (calm : Calm s t) :
      Change scope (s, out) (t, out)
  | prepare {s t : SeedScheduler} {out : List Outstanding} (o : Outstanding) (calm : Calm s t)
      (minted : MintedBetween s t o.leaseId) (prepared : WellPrepared o) :
      Change scope (s, out) (t, o :: out)
  | forget {s : SeedScheduler} {out kept : List Outstanding} (fewer : kept.Subperm out) :
      Change scope (s, out) (s, kept)
  | shrink {s : SeedScheduler} {out : List Outstanding}
      {m : Std.ExtTreeMap InstanceId InstanceState} (i : InstanceId) (queue : List QueueEntry)
      (sub : queue.Sublist (s.stateAt i).queue)
      (writes : Writes s m i (refreshPreemptRequested { s.stateAt i with queue := queue })) :
      Change scope (s, out) ({ s with instances := m }, out)
  | enqueue {s : SeedScheduler} {out : List Outstanding}
      {m : Std.ExtTreeMap InstanceId InstanceState} (i : InstanceId) (entry : QueueEntry)
      (room : (s.stateAt i).queue.length < s.config.maxQueueDepthPerInstance)
      (arrival : entry.arrivalSequence = s.nextArrivalSequence)
      (fresh : ∀ j, ∀ other ∈ (s.stateAt j).queue, other.requestId ≠ entry.requestId)
      (timely : entry.deadlineMonotonicMs = claimNoDeadlineMonotonicMs ∨
        (s.stateAt i).lease ≠ none ∨ (s.stateAt i).cooldownUntilMonotonicMs ≤ scope.now)
      (writes : Writes s m i (refreshPreemptRequested
        { s.stateAt i with queue := sortQueue ((s.stateAt i).queue ++ [entry]) })) :
      Change scope (s, out)
        ({ s with instances := m, nextArrivalSequence := s.nextArrivalSequence + 1 }, out)
  | grant {s : SeedScheduler} {out : List Outstanding}
      {m : Std.ExtTreeMap InstanceId InstanceState} (p : PreparedLease) (queue : List QueueEntry)
      (free : (s.stateAt p.token.instanceId).lease = none)
      (epoch : p.token.ownerEpoch = s.ownerEpoch)
      (cooled : (s.stateAt p.token.instanceId).cooldownUntilMonotonicMs ≤ scope.now)
      (sub : queue.Sublist (s.stateAt p.token.instanceId).queue)
      (writes : Writes s m p.token.instanceId
        (grantedState (s.stateAt p.token.instanceId) p queue)) :
      Change scope (s, .lease p :: out)
        ({ s with
          instances := m
          leaseLocations := s.leaseLocations.insert p.token.leaseId p.token.instanceId }, out)
  | transfer {s : SeedScheduler} {out : List Outstanding}
      {m : Std.ExtTreeMap InstanceId InstanceState} (p : PreparedLeaseTransfer)
      (queue : List QueueEntry) (record : Option ReleaseRecord)
      (held : (s.stateAt p.source.token.instanceId).lease = some p.source)
      (epoch : p.toToken.ownerEpoch = s.ownerEpoch)
      (sub : queue.Sublist (s.stateAt p.source.token.instanceId).queue)
      (ended : scope.ends p.source.token.leaseId)
      (recorded : ∀ r, record = some r → scope.records r ∧ r.submittedToken = p.source.token)
      (writes : Writes s m p.source.token.instanceId
        (transferredState (s.stateAt p.source.token.instanceId) p queue record)) :
      Change scope (s, .transfer p :: out)
        ({ s with
          instances := m
          leaseLocations := (s.leaseLocations.erase p.source.token.leaseId).insert
            p.toToken.leaseId p.source.token.instanceId }, out)
  | renew {s : SeedScheduler} {out : List Outstanding}
      {m : Std.ExtTreeMap InstanceId InstanceState} (i : InstanceId) (lease : LeaseEntry)
      (token : LeaseToken) (lastRenew : Option RenewRecord)
      (held : (s.stateAt i).lease = some lease)
      (sameLease : token.leaseId = lease.token.leaseId) (here : token.instanceId = i)
      (epoch : token.ownerEpoch = s.ownerEpoch)
      (record : ∀ r, lastRenew = some r →
        lease.lastRenew = some r ∨ r.submittedToken = lease.token)
      (writes : Writes s m i { s.stateAt i with
        lease := some { lease with token := token, lastRenew := lastRenew } }) :
      Change scope (s, out) ({ s with instances := m }, out)
  | openStep {s : SeedScheduler} {out : List Outstanding}
      {m : Std.ExtTreeMap InstanceId InstanceState} (i : InstanceId) (lease : LeaseEntry)
      (stepId : StepId) (purpose : FencedWritePurpose)
      (held : (s.stateAt i).lease = some lease) (idle : lease.destructiveStep = none)
      (next : stepId.value = s.nextStepId)
      (writes : Writes s m i { s.stateAt i with
        lease := some { lease with destructiveStep := some (stepId, purpose) } }) :
      Change scope (s, out)
        ({ s with instances := m, nextStepId := s.nextStepId + 1 }, out)
  | closeStep {s : SeedScheduler} {out : List Outstanding}
      {m : Std.ExtTreeMap InstanceId InstanceState} (i : InstanceId) (lease : LeaseEntry)
      (held : (s.stateAt i).lease = some lease)
      (writes : Writes s m i { s.stateAt i with
        lease := some { lease with destructiveStep := none } }) :
      Change scope (s, out) ({ s with instances := m }, out)
  | endLease {s : SeedScheduler} {out : List Outstanding}
      {m : Std.ExtTreeMap InstanceId InstanceState} (i : InstanceId) (lease : LeaseEntry)
      (record : Option ReleaseRecord) (held : (s.stateAt i).lease = some lease)
      (ended : scope.ends lease.token.leaseId)
      (recorded : ∀ r, record = some r → scope.records r ∧ r.submittedToken = lease.token)
      (writes : Writes s m i { s.stateAt i with lease := none, lastRelease := record }) :
      Change scope (s, out)
        ({ s with
          instances := m
          leaseLocations := s.leaseLocations.erase lease.token.leaseId }, out)

/-- What a whole call does. -/
abbrev Changes (scope : Scope) := Relation.ReflTransGen (Change scope)

end Scheduler
