import ActingCommand.Scheduler.Calls
import ActingCommand.Scheduler.Occupancy

/-!
# Who gets an instance

Every path that gives a free instance away, or passes a held one on, asks the same question of
the queue: which is the first entry the gate lets through. The paths that bypass the queue give
way to that entry. A waiting continuation is such an entry behind every gate, and the first.
-/

namespace Scheduler

open Machine Call SchedulerM List Option Except SeedScheduler QueueEntry

variable {s t u : SeedScheduler} {now : Nat} {i : InstanceId} {gate : ClaimGate}

/-! ## The choice -/

variable (s i gate) in
/-- The first entry in queue order that the gate lets through. -/
def SeedScheduler.choice (now : Nat) :
    Option QueueEntry :=
  (queues s i).find? fun entry => entry.eligible gate now

variable (s i gate) in
lemma SeedScheduler.choice_eq
    (now : Nat) : s.choice i gate now =
      (firstEligible (s.stateAt i) gate now).map fun position => (s.stateAt i).queue.get position :=
  find?_eq_map_findFinIdx?_getElem

lemma SeedScheduler.choice_eq_none_iff :
    s.choice i gate now = none ↔ firstEligible (s.stateAt i) gate now = none := by
  rw [choice_eq, map_eq_none_iff]

variable {entry : QueueEntry}

lemma SeedScheduler.choice_eligible (chosen : s.choice i gate now = some entry) :
    entry ∈ queues s i ∧ entry.eligible gate now = true :=
  ⟨mem_of_find?_eq_some chosen, (find?_eq_some_iff_append.mp chosen).1⟩

/-- In a sorted queue the choice goes before every other eligible entry. -/
theorem SeedScheduler.choice_eq_some_iff (sorted : (queues s i).Pairwise Before) :
    s.choice i gate now = some entry ↔ entry ∈ queues s i ∧ entry.eligible gate now = true ∧
      ∀ other ∈ queues s i, other.eligible gate now = true → other = entry ∨
        Before entry other := by
  constructor
  · intro chosen
    obtain ⟨eligible, ahead, behind, split, passed⟩ := find?_eq_some_iff_append.mp chosen
    refine ⟨by rw [split]; simp, eligible, fun other waiting passes => ?_⟩
    rw [split] at waiting sorted
    rcases mem_append.mp waiting with earlier | later
    · have refused := passed other earlier
      simp [passes] at refused
    rcases mem_cons.mp later with rfl | later
    · exact .inl rfl
    · exact .inr ((pairwise_cons.mp (pairwise_append.mp sorted).2.1).1 other later)
  · rintro ⟨waiting, eligible, first⟩
    cases chosen : s.choice i gate now with
    | none =>
      have refused := find?_eq_none.mp chosen entry waiting
      exact absurd eligible refused
    | some other =>
      obtain ⟨passes, ahead, behind, split, passed⟩ := find?_eq_some_iff_append.mp chosen
      have listed : other ∈ queues s i := by rw [split]; simp
      rcases first other listed passes with rfl | before
      · rfl
      rw [split] at waiting sorted
      rcases mem_append.mp waiting with earlier | later
      · have refused := passed entry earlier
        simp [eligible] at refused
      rcases mem_cons.mp later with rfl | later
      · rfl
      -- The two entries would go before each other.
      have after := (pairwise_cons.mp (pairwise_append.mp sorted).2.1).1 entry later
      rw [before_iff_rank] at before after
      omega

/-! ## The paths through the queue -/

variable (s i) in
/-- The instance can be granted: nobody holds it and its cooldown is over. -/
def SeedScheduler.Idle (now : Nat) : Prop :=
  s.leaseOf i = none ∧ (s.stateAt i).cooldownUntilMonotonicMs ≤ now

instance (s : SeedScheduler) (i : InstanceId) (now : Nat) : Decidable (s.Idle i now) :=
  inferInstanceAs (Decidable (_ ∧ _))

lemma SeedScheduler.not_idle_iff : ¬ s.Idle i now ↔
    (s.stateAt i).lease ≠ none ∨ (s.stateAt i).cooldownUntilMonotonicMs > now := by
  rw [Idle, leaseOf_eq_stateAt, not_and_or, not_le]

lemma grantCandidateOf_eq {α : Type} (read : QueueEntry → α) (s : SeedScheduler)
    (i : InstanceId) (gate : ClaimGate) (now : Nat) :
    s.grantCandidateOf read i gate now =
      if s.Idle i now then (s.choice i gate now).map read else none := by
  unfold SeedScheduler.grantCandidateOf
  cases found : s.instances[i]? with
  | none =>
    have nobody : s.choice i gate now = none := by
      rw [SeedScheduler.choice, queues, SeedScheduler.stateAt, recordAt, found]
      rfl
    rw [nobody, map_none, ite_self, bind_none]
  | some state =>
    obtain rfl := SeedScheduler.stateAt_of_some found
    rw [bind_some]
    by_cases idle : s.Idle i now
    · have settled := mt SeedScheduler.not_idle_iff.mpr (not_not.mpr idle)
      rw [if_neg settled, if_pos idle, SeedScheduler.choice_eq, Option.map_map]
      rfl
    · rw [if_pos (SeedScheduler.not_idle_iff.mp idle), if_neg idle]

structure PreparedLease.GrantsEntry (p : PreparedLease) (i : InstanceId) (entry : QueueEntry) :
    Prop where
  instanceId : p.token.instanceId = i
  requestId : p.acquireRequestId = entry.requestId
  holderId : p.token.holderId = entry.holderId
  connectionId : p.connectionId = entry.connectionId
  priority : p.priority = entry.priority
  kind : p.kind = entry.kind
  queued : p.fromQueue = true

/-- The pump grants the choice on an idle instance and nothing elsewhere. -/
theorem prepareQueuedGrant_choice {grant}
    (step : Steps (prepareQueuedGrant i gate now) s (.ok grant) t) :
    ((¬ s.Idle i now ∨ s.choice i gate now = none) ∧ grant = none) ∨
      ∃ entry p, s.Idle i now ∧ s.choice i gate now = some entry ∧ grant = some p ∧
        p.GrantsEntry i entry := by
  rcases (prepareQueuedGrant_steps step).2 with ⟨_, ⟨⟩⟩ | ⟨nobody, ⟨⟩⟩ |
    ⟨position, p, settled, first, ⟨⟩, minted, made⟩
  · refine .inl ⟨?_, rfl⟩
    rcases nobody with held | hot | unclaimed
    · exact .inl (not_idle_iff.mpr (.inl held))
    · exact .inl (not_idle_iff.mpr (.inr hot))
    · exact .inr (choice_eq_none_iff.mpr unclaimed)
  have idle : s.Idle i now := not_not.mp (mt not_idle_iff.mp settled)
  rw [made]
  refine .inr ⟨_, _, idle, ?_, rfl, minted.instanceId, rfl, minted.holderId, rfl, rfl, rfl, rfl⟩
  rw [choice_eq, first]
  rfl

variable {token : LeaseToken} {connectionId : ConnectionId}

/-! ## The paths around the queue -/

lemma QueueEntry.eligible_open (passes : entry.eligible gate now = true) :
    entry.eligible .open now = true := by
  simp only [eligible, ClaimGate.holds, Bool.and_eq_true, Bool.not_false, and_true] at passes ⊢
  exact passes.1

variable {policy : LeaseAcquisitionPolicy} {p : PreparedLease}

lemma FreshLease.no_choice {requestId} (fresh : FreshLease s requestId i policy now p) :
    s.choice i policy.gate now = none :=
  choice_eq_none_iff.mpr fresh.unclaimed

variable (s i) in
/-- The answer gives a new lease to nobody: it fails, or hands back the lease that this request
already holds. -/
def GivesWay (requestId : RequestId)
    (answer : SchedulerResult LeasePreparation) : Prop :=
  (∃ e, answer = .error e) ∨ ∃ lease, s.leaseOf i = some lease ∧
    lease.acquireRequestId = requestId ∧ answer = .ok (.existing lease.token)

variable {holderId : HolderId}

lemma prepareAcquireWithPolicy_givesWay {requestId r}
    (claimed : s.choice i policy.gate now ≠ none)
    (step : Steps (prepareAcquireWithPolicy requestId i holderId connectionId policy now) s r t) :
    GivesWay s i requestId r := by
  rcases (prepareAcquireWithPolicy_steps step).2 with ⟨e, rfl, _⟩ | ⟨e, rfl, _⟩ |
    ⟨lease, rfl, _, held, _, request, _⟩ | ⟨_, rfl, _⟩ | ⟨rfl, _⟩ | ⟨e, rfl, _⟩ |
    ⟨_, _, _, fresh, _⟩
  any_goals exact .inl ⟨_, rfl⟩
  · rw [← leaseOf_eq_stateAt] at held
    exact .inr ⟨lease, held, request, rfl⟩
  · exact absurd fresh.no_choice claimed

variable {request : QueueLeaseRequest}

/-- A queue request is granted at once only where, the expired entries removed, nobody eligible
waits. -/
theorem QueueRequested.fresh {expired} (bounded : Bounded s)
    (requested : QueueRequested s request gate now (.ok ⟨.lease (.new p), expired⟩) t) :
    ∃ u, u.config = s.config ∧
      queues u request.instanceId = (queues s request.instanceId).filter
        (fun entry => !decide (entry.deadlineMonotonicMs ≤ now)) ∧
      FreshLease u request.requestId request.instanceId (requestPolicy u request gate) now p := by
  rcases requested with ⟨_, ⟨⟩, _⟩ | ⟨⟨⟩, _⟩ | ⟨_, ⟨⟩, _, found⟩ |
    ⟨u, _, d, answer, _, _, swept, admits⟩
  · cases @replayQueueRequestIn_produces _ _ _ [] found
  obtain ⟨_, m, _, rfl, writes, _⟩ := sweepInstance_steps bounded swept
  refine ⟨{ s with instances := m }, rfl, by rw [writes.queues rfl, if_pos rfl]; rfl, ?_⟩
  rcases admits with ⟨_, rfl, _⟩ | ⟨q, rfl, _, _, _, _, acquired⟩ | ⟨rfl, _⟩ | ⟨q, _, rfl, _⟩
  · cases answer
  · cases q with
    | error e => cases answer
    | ok preparation =>
      obtain ⟨⟨⟩, _⟩ := QueueAdmissionOutcome.mk.inj (ok.inj answer)
      exact (acquired.minted rfl).1
  · cases answer
  · cases q <;> cases answer

/-- An eligible entry is still there once the expired ones are removed. -/
theorem choice_after_sweep {m}
    (swept : queues m i = (queues s i).filter fun entry =>
      !decide (entry.deadlineMonotonicMs ≤ now))
    (claimed : s.choice i gate now ≠ none) : m.choice i gate now ≠ none := by
  intro nobody
  obtain ⟨entry, chosen⟩ := ne_none_iff_exists'.mp claimed
  obtain ⟨waiting, passes⟩ := choice_eligible chosen
  have timely : now < entry.deadlineMonotonicMs := by
    simp only [eligible, Bool.and_eq_true, decide_eq_true_eq] at passes
    exact passes.1
  refine absurd passes (find?_eq_none.mp nobody entry ?_)
  rw [swept]
  exact mem_filter.mpr ⟨waiting, by simpa using timely⟩

/-! ## A dedicated lease -/

/-- The call fails because of who waits. -/
def RefusedByQueue {α : Type} : SchedulerResult α → Prop
  | .error .transferNotSafe | .error (.queueAhead _ _) => True
  | _ => False

lemma refusingCount_pos (refusing : s.refusingCount i gate now > 0) :
    s.choice i gate now ≠ none := by
  intro nobody
  unfold refusingCount at refusing
  cases found : s.instances[i]? with
  | none => simp [found] at refusing
  | some state =>
    rw [found, elim_some, gt_iff_lt, countP_pos_iff] at refusing
    obtain rfl := stateAt_of_some found
    obtain ⟨entry, waiting, passes⟩ := refusing
    rw [Bool.and_eq_true] at passes
    exact absurd passes.1 (find?_eq_none.mp nobody entry waiting)

lemma not_refusedByQueue {e} (fatal : e.isFatal = true) :
    ¬ RefusedByQueue (.error e : SchedulerResult LeasePreparation) := by
  cases e with
  | transferNotSafe | queueAhead => cases fatal
  | _ => exact id

/-- On an idle instance a dedicated lease is refused exactly when an unexpired entry waits: the
gate does not reach the second of the two checks. -/
theorem prepareDedicatedLease_refused_iff {requestId : RequestId} {kind r} (idle : s.Idle i now)
    (step : Steps (prepareDedicatedLease requestId i holderId connectionId kind gate now) s r t) :
    RefusedByQueue r ↔ s.choice i .open now ≠ none := by
  obtain ⟨free, cooled⟩ := idle
  rw [leaseOf_eq_stateAt] at free
  simp only [prepareDedicatedLease, steps_get_bind, steps_failIf_bind] at step
  rcases step with ⟨refusing, rfl, rfl⟩ | ⟨_, step⟩
  · refine iff_of_true trivial ?_
    obtain ⟨entry, chosen⟩ := ne_none_iff_exists'.mp (refusingCount_pos refusing)
    intro nobody
    obtain ⟨waiting, passes⟩ := choice_eligible chosen
    exact absurd (eligible_open passes) (find?_eq_none.mp nobody entry waiting)
  -- The instance is settled, so only the queue is left to refuse.
  have prepared : ∀ {q : SchedulerResult LeasePreparation} {v : SeedScheduler},
      Steps (prepareAcquireWithPolicy requestId i holderId connectionId
        ⟨.normal, s.config.leaseTtlMs, kind, .open⟩ now) s q v →
      (RefusedByQueue q ↔ s.choice i .open now ≠ none) ∧ ∀ token, q ≠ .ok (.existing token) := by
    intro q v step
    rw [ne_eq, choice_eq_none_iff]
    rcases (prepareAcquireWithPolicy_steps step).2 with ⟨_, _, hot⟩ | ⟨_, _, _, held, _⟩ |
      ⟨_, _, _, held, _⟩ | ⟨_, rfl, _, first⟩ | ⟨_, _, held, _⟩ | ⟨_, rfl, nobody, fatal, _⟩ |
      ⟨_, rfl, _, fresh, _⟩
    · exact absurd cooled (not_le.mpr hot)
    · exact absurd (held.symm.trans free) (by simp)
    · exact absurd (held.symm.trans free) (by simp)
    · exact ⟨iff_of_true trivial (by simp [first]), nofun⟩
    · exact absurd held (by simp [ClaimGate.holds])
    · exact ⟨iff_of_false (not_refusedByQueue fatal) (by simp [nobody]), nofun⟩
    · exact ⟨iff_of_false id (by simp [fresh.unclaimed]), nofun⟩
  rcases steps_bind.mp step with ⟨e, failed, rfl⟩ | ⟨preparation, u, passed, done⟩
  · exact (prepared failed).1
  cases preparation with
  | existing token => exact absurd rfl ((prepared passed).2 token)
  | new p =>
    obtain ⟨rfl, _⟩ := steps_pure.mp done
    exact (prepared passed).1

lemma open_choice_iff : s.choice i .open now ≠ none ↔
    ∃ entry ∈ queues s i, now < entry.deadlineMonotonicMs := by
  simp [SeedScheduler.choice, eligible, ClaimGate.holds]

lemma choice_iff : s.choice i gate now ≠ none ↔
    ∃ entry ∈ queues s i, entry.eligible gate now = true := by
  simp [SeedScheduler.choice]

/-- On an idle instance a dedicated lease is refused for who waits only if the caller's gate lets
some entry through, exactly when the gate lets one through or no unexpired entry waits. -/
theorem dedicated_lease_gate_iff (w : World) (requestId : RequestId) (i : InstanceId)
    (holderId : HolderId) (connectionId : ConnectionId) (kind : ClaimKind) (gate : ClaimGate)
    (now : Nat) (idle : w.scheduler.Idle i now) :
    (RefusedByQueue (w.answer
        (.prepareDedicatedLease requestId i holderId connectionId kind gate now)) →
      ∃ entry ∈ queues w.scheduler i, entry.eligible gate now = true) ↔
    ((∃ entry ∈ queues w.scheduler i, entry.eligible gate now = true) ∨
      ¬ ∃ entry ∈ queues w.scheduler i, now < entry.deadlineMonotonicMs) := by
  obtain ⟨q, step, answered⟩ := steps_map.mp
    (w.step_steps (.prepareDedicatedLease requestId i holderId connectionId kind gate now))
  have refused := prepareDedicatedLease_refused_iff idle step
  have same : RefusedByQueue (w.answer
      (.prepareDedicatedLease requestId i holderId connectionId kind gate now)) ↔
      RefusedByQueue q := by
    rw [answered]
    cases q with
    | ok preparation => rfl
    | error e => cases e <;> rfl
  rw [same, refused, open_choice_iff, imp_iff_not_or, or_comm]

namespace Sample

/-- A ladder waits for the instance. -/
def ladder : ClaimRequest :=
  ⟨⟨5⟩, instanceId, ⟨5⟩, otherConnection, .ladder, .normal, 120000⟩

end Sample

open Sample

/-- The gate is open, so the waiting ladder refuses the lease. -/
theorem dedicated_lease_gate_open :
    RefusedByQueue ((world.run [.enqueueClaim ladder 0]).answer
        (.prepareDedicatedLease ⟨6⟩ Sample.instanceId ⟨6⟩ connection .resourceClose .open
          10)) ∧
      ∃ entry ∈ queues (world.run [.enqueueClaim ladder 0]).scheduler
        Sample.instanceId, entry.eligible .open 10 = true := by
  have refused : RefusedByQueue ((world.run [.enqueueClaim ladder 0]).answer
      (.prepareDedicatedLease ⟨6⟩ Sample.instanceId ⟨6⟩ connection .resourceClose .open
        10)) := trivial
  exact ⟨refused, (dedicated_lease_gate_iff _ ⟨6⟩ Sample.instanceId ⟨6⟩ connection
    .resourceClose .open 10 (by decide +kernel)).mpr (.inl (by decide +kernel)) refused⟩

/-- A scheduling pause holds the only waiting entry back, and it still refuses the lease. -/
theorem dedicated_lease_refused_by_held_entry :
    (world.run [.enqueueClaim ladder 0]).Reachable ∧
      (world.run [.enqueueClaim ladder 0]).scheduler.Idle Sample.instanceId 10 ∧
      (world.run [.enqueueClaim ladder 0]).answer
        (.prepareDedicatedLease ⟨6⟩ Sample.instanceId ⟨6⟩ connection .resourceClose
          .routineHeld 10) = .error (.queueAhead .ladder 1) ∧
      (∀ entry ∈ queues (world.run [.enqueueClaim ladder 0]).scheduler
        Sample.instanceId, ClaimGate.routineHeld.holds entry.kind = true) :=
  ⟨reachable (by decide +kernel), by decide +kernel, rfl, by decide +kernel⟩

/-! ## A waiting continuation -/

lemma ClaimKind.holderOwned_iff (kind : ClaimKind) :
    kind.holderOwned = true ↔ kind = .ladderContinuation := by
  cases kind <;> decide

theorem ClaimGate.not_holds_continuation (gate : ClaimGate) :
    gate.holds .ladderContinuation = false := by
  cases gate with
  | «open» => rfl
  | routineHeld => rfl
  | silenced isRoutineHeld autostart => cases isRoutineHeld <;> cases autostart <;> rfl

/-- A deadline is an instant of the clock; a continuation has the last one, which stands for
none. -/
def DeadlineFits (entry : QueueEntry) : Prop :=
  entry.deadlineMonotonicMs ≤ u64Max ∧
    (entry.kind = .ladderContinuation → entry.deadlineMonotonicMs = claimNoDeadlineMonotonicMs)

variable {w : World}

lemma World.Reachable.deadlineFits (reachable : w.Reachable) (i : InstanceId) :
    ∀ entry ∈ queues w.scheduler i, DeadlineFits entry := by
  refine reachable.along (fun v => ∀ i, ∀ entry ∈ queues v.scheduler i, DeadlineFits entry)
    ?_ ?_ i
  · intro _ _ _ _ _ s made i entry waiting
    obtain ⟨_, _, _, _, _, states⟩ := new_ok made
    obtain ⟨cooldown, _, state⟩ := states i
    rw [queues, show (World.start s).scheduler.stateAt i = _ from state] at waiting
    cases waiting
  intro v command reached fits legal j entry waiting
  rcases exec_entered reached.bounded (v.step_steps command) j entry waiting with old | enters
  · exact fits j entry old
  cases command with
  | requestQueued | requestQueuedGated =>
    obtain ⟨deadline, inRange, _, _, _, rfl⟩ := enters
    exact ⟨inRange, fun kind => by cases kind⟩
  | enqueueClaim =>
    obtain ⟨_, _, rfl⟩ := enters
    exact ⟨le_rfl, fun _ => rfl⟩
  | _ => exact enters.elim

lemma World.Reachable.config_ttl_pos (reachable : w.Reachable) :
    0 < w.scheduler.config.leaseTtlMs := by
  refine reachable.change_invariant (fun a => 0 < a.1.config.leaseTtlMs) ?_ ?_
  · intro _ _ _ _ _ s made
    simp only [new, bind_ok_iff, okOr_ok_iff, pure_ok_iff] at made
    obtain ⟨valid, validated, _, _, _, _, rfl⟩ := made
    unfold SchedulerConfig.validate at validated
    split at validated
    · cases validated
    rename_i passed
    obtain rfl := ok.inj validated
    dsimp only
    omega
  · intro scope a b change positive
    cases change.queueChange with
    | fewer config | entered config => rwa [config]

/-- Until the last instant of the clock a continuation is eligible behind every gate. -/
theorem continuation_eligible (kind : entry.kind = .ladderContinuation)
    (endless : entry.deadlineMonotonicMs = claimNoDeadlineMonotonicMs) (early : now < u64Max) :
    entry.eligible gate now = true := by
  rw [eligible, kind, gate.not_holds_continuation, endless]
  simpa [claimNoDeadlineMonotonicMs] using early

theorem SeedScheduler.choice_continuation (sorted : (queues s i).Pairwise Before)
    {chosen} (waiting : entry ∈ queues s i) (kind : entry.kind = .ladderContinuation)
    (passes : entry.eligible gate now = true) (choice : s.choice i gate now = some chosen) :
    chosen.kind = .ladderContinuation := by
  obtain ⟨_, _, first⟩ := (choice_eq_some_iff sorted).mp choice
  rcases first entry waiting passes with rfl | before
  · exact kind
  have owned := (ClaimKind.holderOwned_iff _).mpr kind
  rw [← ClaimKind.holderOwned_iff]
  rcases before with ⟨owns, _⟩ | ⟨same, _⟩
  · exact owns
  · rw [same, owned]

lemma FreshLease.no_continuation {requestId}
    (fresh : FreshLease s requestId i policy now p) (positive : 0 < policy.leaseTtlMs)
    (waiting : entry ∈ queues s i) (kind : entry.kind = .ladderContinuation)
    (endless : entry.deadlineMonotonicMs = claimNoDeadlineMonotonicMs) : False := by
  have early : now < u64Max := by have := fresh.fits; omega
  exact absurd fresh.no_choice
    (choice_iff.mpr ⟨entry, waiting, continuation_eligible kind endless early⟩)

/-! ## What a preparation hands out -/

/-- The instance a preparation gives away. -/
def Outstanding.instanceId : Outstanding → InstanceId
  | .lease prepared => prepared.token.instanceId
  | .transfer prepared => prepared.source.token.instanceId

/-- The request it gives the instance to. -/
def Outstanding.requestId : Outstanding → RequestId
  | .lease prepared => prepared.acquireRequestId
  | .transfer prepared => prepared.queued.requestId

/-- The calls that pass a lease on past the queue. -/
def Command.handsOff : Command → Bool
  | .prepareHandOff .. | .prepareReleaseHandOff .. => true
  | _ => false

/-- The kind a call prepares a lease for, where it does not go through the queue. -/
def Command.claimKind : Command → Option ClaimKind
  | .prepareClaimAcquire claim _ _ => some claim.kind
  | .prepareDedicatedLease _ _ _ _ kind _ _ => some kind
  | .prepareHandOff _ _ _ claim _ _ | .prepareReleaseHandOff _ _ _ claim _ _ => some claim.kind
  | _ => none

/-- Where a preparation comes from: a lease past the queue while nobody eligible waits, the
pump's grant or the transfer to the choice, or a hand-off. -/
inductive Produces (s : SeedScheduler) (command : Command) (o : Outstanding) : Prop
  | fresh (u : SeedScheduler) (p : PreparedLease) (requestId : RequestId)
      (policy : LeaseAcquisitionPolicy) (now : Nat) (is : o = .lease p)
      (fresh : FreshLease u requestId p.token.instanceId policy now p)
      (positive : 0 < policy.leaseTtlMs)
      (waits : ∀ entry ∈ queues s p.token.instanceId, now < entry.deadlineMonotonicMs →
        entry ∈ queues u p.token.instanceId)
      (claimed : p.kind = .ladderContinuation → command.claimKind = some .ladderContinuation)
  | queued (entry : QueueEntry) (p : PreparedLease) (gate : ClaimGate) (now : Nat)
      (is : o = .lease p) (choice : s.choice p.token.instanceId gate now = some entry)
      (grants : p.GrantsEntry p.token.instanceId entry)
  | transferred (p : PreparedLeaseTransfer) (gate : ClaimGate) (now : Nat) (is : o = .transfer p)
      (choice : s.choice p.source.token.instanceId gate now = some p.queued)
      (paired : p.reason = .explicitRelease ↔ p.releaseRequestId.isSome = true)
  | handedOff (p : PreparedLeaseTransfer) (is : o = .transfer p) (hands : command.handsOff = true)
      (paired : p.releaseRequestId.isSome = true → p.reason = .explicitRelease)

section Produced

variable {o : Outstanding} {command : Command}

lemma Produces.of_prepared {requestId : RequestId} {q : SchedulerResult LeasePreparation}
    (made : o ∈ produced (q.map .prepared))
    (fresh : ∀ p, q = .ok (.new p) → FreshLease s requestId i policy now p)
    (positive : 0 < policy.leaseTtlMs)
    (claimed : policy.kind = .ladderContinuation → command.claimKind = some .ladderContinuation) :
    Produces s command o := by
  match q, made, fresh with
  | .ok (.new p), made, fresh =>
    have fresh := fresh p rfl
    obtain rfl := fresh.instanceId
    exact .fresh s p requestId policy now (mem_singleton.mp made) fresh positive
      (fun _ waiting _ => waiting) (fresh.kind ▸ claimed)

lemma prepareDedicatedLease_fresh {requestId kind q}
    (step : Steps (prepareDedicatedLease requestId i holderId connectionId kind gate now) s q t)
    (made : q = .ok (.new p)) :
    FreshLease s requestId i ⟨.normal, s.config.leaseTtlMs, kind, .open⟩ now p := by
  obtain ⟨_, ⟨_, rfl⟩ | ⟨p, rfl, fresh, _⟩⟩ := prepareDedicatedLease_steps step
  · cases made
  · obtain rfl := LeasePreparation.new.inj (ok.inj made)
    exact fresh

lemma Produces.of_admitted {q} (bounded : Bounded s)
    (positive : 0 < s.config.leaseTtlMs) (made : o ∈ produced (q.map .admitted))
    (requested : QueueRequested s request gate now q t) : Produces s command o := by
  match q, made, requested with
  | .ok ⟨.lease (.new p), expired⟩, made, requested =>
    obtain ⟨u, config, swept, fresh⟩ := requested.fresh bounded
    have positiveNow : 0 < u.config.leaseTtlMs := config.symm ▸ positive
    refine .fresh u p request.requestId (requestPolicy u request gate) now
      (mem_singleton.mp made) (by rw [fresh.instanceId]; exact fresh) positiveNow
      (fun entry waiting timely => ?_) (fun continues => ?_)
    · rw [fresh.instanceId] at waiting ⊢
      rw [swept]
      exact mem_filter.mpr ⟨waiting, by simpa using timely⟩
    · cases fresh.kind.symm.trans continues

lemma Produces.of_transfer {accepted nobody : Prop} {candidate reason releaseRequestId q}
    (readies : Readies accepted nobody candidate reason releaseRequestId token connectionId s q t)
    (made : o ∈ produced (q.map .transfer)) :
    ∃ p, o = .transfer p ∧ p.source.token = token ∧ accepted ∧ candidate p.queued ∧
      p.reason = reason ∧ p.releaseRequestId = releaseRequestId := by
  rcases readies with ⟨_, rfl, _⟩ | ⟨_, rfl, _⟩ | ⟨_, _, rfl, _⟩ | ⟨_, rfl, _⟩ |
    ⟨p, rfl, _, passes, source, _, receiver, sameReason, request, _⟩
  any_goals exact absurd made not_mem_nil
  exact ⟨p, mem_singleton.mp made, (transferableLease_ok source).2.2.2.1, passes, receiver,
    sameReason, request⟩

end Produced

lemma World.Reachable.produces (reachable : w.Reachable) {command : Command} {o : Outstanding}
    (made : o ∈ produced (w.answer command)) : Produces w.scheduler command o := by
  have positive := reachable.config_ttl_pos
  have ran := w.step_steps command
  generalize w.answer command = r at made ran
  cases command
  all_goals obtain ⟨q, step, rfl⟩ := steps_map.mp ran
  case prepareAcquire =>
    have acquired := (prepareAcquireWithPolicy_steps (steps_get_bind.mp step)).2
    exact .of_prepared made (fun p made => (acquired.minted made).1) positive nofun
  case prepareAcquireWithTtl =>
    rcases steps_read_bind.mp (steps_get_bind.mp step) with ⟨_, _, rfl, _⟩ | ⟨_, valid, step⟩
    · cases made
    have acquired := (prepareAcquireWithPolicy_steps step).2
    exact .of_prepared made (fun p made => (acquired.minted made).1)
      (validateClaimTtl_positive valid) nofun
  case prepareClaimAcquire =>
    rcases steps_read_bind.mp (steps_get_bind.mp step) with ⟨_, _, rfl, _⟩ | ⟨_, valid, step⟩
    · cases made
    have acquired := (prepareAcquireWithPolicy_steps step).2
    exact .of_prepared made (fun p made => (acquired.minted made).1)
      (validateClaimTtl_positive valid) (congrArg some)
  case prepareResourceClose =>
    exact .of_prepared made (fun p made => prepareDedicatedLease_fresh step made) positive nofun
  case prepareDedicatedLease =>
    exact .of_prepared made (fun p made => prepareDedicatedLease_fresh step made) positive
      (congrArg some)
  case requestQueued | requestQueuedGated =>
    exact .of_admitted reachable.bounded positive made
      (requestQueuedGated_steps reachable.bounded step)
  case prepareQueuedGrant =>
    match q, made, step with
    | .ok (some p), made, step =>
      rcases prepareQueuedGrant_choice step with ⟨_, ⟨⟩⟩ | ⟨entry, _, _, choice, ⟨⟩, grants⟩
      obtain rfl := grants.instanceId
      exact .queued entry p _ _ (mem_singleton.mp made) choice grants
  case prepareTransfer | prepareTransferGated =>
    obtain ⟨p, is, rfl, paired, choice, rfl, rfl⟩ :=
      Produces.of_transfer (prepareTransferGated_steps step) made
    exact .transferred p _ _ is choice paired
  case prepareHandOff =>
    rcases steps_failIf_bind.mp step with ⟨_, rfl, _⟩ | ⟨_, step⟩
    · cases made
    obtain ⟨p, is, _, _, _, _, request⟩ :=
      Produces.of_transfer (prepareClaimHandOff_steps step) made
    exact .handedOff p is rfl (by rw [request]; nofun)
  case prepareReleaseHandOff =>
    obtain ⟨p, is, _, _, _, reason, _⟩ :=
      Produces.of_transfer (prepareClaimHandOff_steps step) made
    exact .handedOff p is rfl fun _ => reason
  all_goals cases q <;> cases made

/-- While a continuation waits, whatever is prepared for its instance, a hand-off apart, is
prepared for a waiting continuation. -/
theorem World.Reachable.continuation_first (reachable : w.Reachable)
    (waiting : entry ∈ queues w.scheduler i) (kind : entry.kind = .ladderContinuation)
    {command : Command} (queued : command.handsOff = false) {o}
    (made : o ∈ produced (w.answer command)) (here : o.instanceId = i) :
    ∃ chosen ∈ queues w.scheduler i, chosen.kind = .ladderContinuation ∧
      chosen.requestId = o.requestId := by
  have endless := (reachable.deadlineFits i entry waiting).2 kind
  have sorted := reachable.queuesWellFormed.sorted i
  -- Where some entry is eligible the instant is not the last, so the continuation is too.
  have chosen : ∀ {gate : ClaimGate} {now : Nat} {other : QueueEntry},
      w.scheduler.choice i gate now = some other → other ∈ queues w.scheduler i ∧
        other.kind = .ladderContinuation := by
    intro gate now other choice
    obtain ⟨listed, passes⟩ := choice_eligible choice
    have inRange := (reachable.deadlineFits i other listed).1
    have early : now < u64Max := by
      simp only [eligible, Bool.and_eq_true, decide_eq_true_eq] at passes
      omega
    exact ⟨listed, choice_continuation sorted waiting kind
      (continuation_eligible kind endless early) choice⟩
  cases reachable.produces made with
  | fresh u p requestId policy now is fresh positive waits =>
    subst is here
    have early : now < entry.deadlineMonotonicMs := by
      have fits := fresh.fits
      rw [endless, claimNoDeadlineMonotonicMs]
      omega
    exact (fresh.no_continuation positive (waits entry waiting early) kind endless).elim
  | queued other p gate now is choice grants =>
    subst is here
    obtain ⟨listed, continues⟩ := chosen choice
    exact ⟨other, listed, continues, grants.requestId.symm⟩
  | transferred p gate now is choice =>
    subst is here
    obtain ⟨listed, continues⟩ := chosen choice
    exact ⟨_, listed, continues, rfl⟩
  | handedOff p _ hands => exact absurd (hands.symm.trans queued) (by simp)

/-- An immediate lease goes past no waiting continuation either. -/
theorem World.Reachable.acquire_gives_way (reachable : w.Reachable)
    (waiting : entry ∈ queues w.scheduler i) (kind : entry.kind = .ladderContinuation) {requestId}
    (answered : w.answer (.acquire requestId i holderId connectionId now) = .ok (.token token)) :
    ∃ lease, w.scheduler.leaseOf i = some lease ∧ lease.acquireRequestId = requestId ∧
      lease.token = token := by
  have endless := (reachable.deadlineFits i entry waiting).2 kind
  obtain ⟨_, ⟨⟩, step⟩ := World.steps_of_answer rfl answered
  unfold SchedulerM.acquire prepareAcquire at step
  rcases steps_bind.mp step with ⟨e, _, failed⟩ | ⟨preparation, u, prepared, committed⟩
  · cases failed
  rcases (prepareAcquireWithPolicy_steps (steps_get_bind.mp prepared)).2 with
    ⟨_, ⟨⟩, _⟩ | ⟨_, ⟨⟩, _⟩ | ⟨lease, ⟨⟩, _, held, _, request, _⟩ | ⟨_, ⟨⟩, _⟩ | ⟨⟨⟩, _⟩ |
    ⟨_, ⟨⟩, _⟩ | ⟨p, ⟨⟩, _, fresh, _⟩
  · obtain ⟨same, _⟩ := steps_pure.mp committed
    rw [← leaseOf_eq_stateAt] at held
    exact ⟨lease, held, request, (ok.inj same).symm⟩
  · exact (fresh.no_continuation reachable.config_ttl_pos waiting kind endless).elim

/-! ## One choice -/

/-- What every path makes of the entries that wait on an instance, behind one gate at one
instant. -/
structure ChoiceAgrees (w : World) (i : InstanceId) (gate : ClaimGate) (now : Nat) : Prop where
  /-- The choice is the first eligible entry in queue order. -/
  first : ∀ entry, w.scheduler.choice i gate now = some entry ↔ entry ∈ queues w.scheduler i ∧
    entry.eligible gate now = true ∧
    ∀ other ∈ queues w.scheduler i, other.eligible gate now = true →
      other = entry ∨ Before entry other
  grantCandidate : w.scheduler.grantCandidate i gate now =
    if w.scheduler.Idle i now then (w.scheduler.choice i gate now).map kind else none
  grantCandidateRequest : w.scheduler.grantCandidateRequest i gate now =
    if w.scheduler.Idle i now then (w.scheduler.choice i gate now).map requestId
    else none
  prepareQueuedGrant : ∀ grant, w.answer (.prepareQueuedGrant i gate now) = .ok (.grant grant) →
    ((¬ w.scheduler.Idle i now ∨ w.scheduler.choice i gate now = none) ∧ grant = none) ∨
      ∃ entry p, w.scheduler.Idle i now ∧ w.scheduler.choice i gate now = some entry ∧
        grant = some p ∧ p.GrantsEntry i entry
  prepareTransferGated : ∀ token connectionId reason releaseRequestId preparation,
    token.instanceId = i → reason ≠ .preempted →
    w.answer (.prepareTransferGated token connectionId reason releaseRequestId gate now) =
      .ok (.transfer preparation) →
    preparation = .deferred ∨
      (w.scheduler.choice i gate now = none ∧ preparation = .noCandidate) ∨
      ∃ entry p, w.scheduler.choice i gate now = some entry ∧ preparation = .ready p ∧
        p.queued = entry
  /-- Around the queue nobody gets a new lease while an eligible entry waits. -/
  prepareAcquire : w.scheduler.choice i gate now ≠ none → ∀ requestId holderId connectionId,
    ∃ answer, w.answer (.prepareAcquire requestId i holderId connectionId now) =
      answer.map .prepared ∧ GivesWay w.scheduler i requestId answer
  prepareClaimAcquire : w.scheduler.choice i gate now ≠ none → ∀ claim, claim.instanceId = i →
    ∃ answer, w.answer (.prepareClaimAcquire claim gate now) = answer.map .prepared ∧
      GivesWay w.scheduler i claim.requestId answer
  requestQueued : w.scheduler.choice i gate now ≠ none → ∀ request immediateAllowed,
    request.instanceId = i → ∀ p expired,
      w.answer (.requestQueuedGated request gate immediateAllowed now) ≠
          .ok (.admitted ⟨.lease (.new p), expired⟩) ∧
        w.answer (.requestQueued request now) ≠ .ok (.admitted ⟨.lease (.new p), expired⟩)

lemma SeedScheduler.choice_open (claimed : s.choice i gate now ≠ none) :
    s.choice i .open now ≠ none := by
  obtain ⟨entry, waiting, passes⟩ := choice_iff.mp claimed
  exact choice_iff.mpr ⟨entry, waiting, eligible_open passes⟩

lemma QueueRequested.not_new {expired r} (bounded : Bounded s)
    (claimed : s.choice request.instanceId gate now ≠ none)
    (requested : QueueRequested s request gate now r t) :
    r.map Response.admitted ≠ .ok (.admitted ⟨.lease (.new p), expired⟩) := by
  intro granted
  cases r with
  | error e => cases granted
  | ok outcome =>
    obtain rfl := Response.admitted.inj (ok.inj granted)
    obtain ⟨u, _, swept, fresh⟩ := requested.fresh bounded
    exact choice_after_sweep swept claimed fresh.no_choice

lemma World.Reachable.choiceAgrees (reachable : w.Reachable) (i : InstanceId) (gate : ClaimGate)
    (now : Nat) : ChoiceAgrees w i gate now where
  first entry := choice_eq_some_iff (reachable.queuesWellFormed.sorted i)
  grantCandidate := grantCandidateOf_eq _ _ i gate now
  grantCandidateRequest := grantCandidateOf_eq _ _ i gate now
  prepareQueuedGrant grant answered := by
    obtain ⟨_, ⟨⟩, step⟩ := World.steps_of_answer rfl answered
    exact prepareQueuedGrant_choice step
  prepareTransferGated token connectionId reason releaseRequestId preparation here kept
      answered := by
    obtain ⟨_, ⟨⟩, step⟩ := World.steps_of_answer rfl answered
    subst here
    rcases prepareTransferGated_steps step with ⟨_, ⟨⟩, _⟩ | ⟨_, ⟨⟩, _⟩ | ⟨_, _, ⟨⟩, _⟩ |
      ⟨_, ⟨⟩, _, _, _, nobody⟩ | ⟨p, ⟨⟩, _, _, _, _, choice, _⟩
    · exact .inl rfl
    · exact .inr (.inl ⟨choice_eq_none_iff.mpr (nobody.resolve_right kept), rfl⟩)
    · exact .inr (.inr ⟨_, p, choice, rfl, rfl⟩)
  prepareAcquire claimed requestId holderId connectionId := by
    obtain ⟨q, step, answered⟩ :=
      steps_map.mp (w.step_steps (.prepareAcquire requestId i holderId connectionId now))
    exact ⟨q, answered, prepareAcquireWithPolicy_givesWay (choice_open claimed)
      (steps_get_bind.mp step)⟩
  prepareClaimAcquire claimed claim here := by
    obtain ⟨q, step, answered⟩ := steps_map.mp (w.step_steps (.prepareClaimAcquire claim gate now))
    refine ⟨q, answered, ?_⟩
    subst here
    simp only [SchedulerM.prepareClaimAcquire, steps_get_bind, steps_read_bind] at step
    rcases step with ⟨e, _, rfl, _⟩ | ⟨_, _, step⟩
    · exact .inl ⟨e, rfl⟩
    · exact prepareAcquireWithPolicy_givesWay claimed step
  requestQueued claimed request immediateAllowed here p expired := by
    subst here
    obtain ⟨q, step, answered⟩ :=
      steps_map.mp (w.step_steps (.requestQueuedGated request gate immediateAllowed now))
    obtain ⟨q', step', answered'⟩ := steps_map.mp (w.step_steps (.requestQueued request now))
    rw [answered, answered']
    exact ⟨(requestQueuedGated_steps reachable.bounded step).not_new reachable.bounded claimed,
      (requestQueuedGated_steps reachable.bounded step').not_new reachable.bounded
        (choice_open claimed)⟩

/-- On every instance, behind every gate, the pump, its two reads and a transfer pick the first
eligible entry, and whoever does not wait gets no new lease while there is one. So while a
continuation waits, only a hand-off prepares its instance for a request that is not a waiting
continuation. -/
theorem grant_choice (w : World) (reachable : w.Reachable) :
    (∀ i gate now, ChoiceAgrees w i gate now) ∧
    ∀ i, ∀ entry ∈ queues w.scheduler i, entry.kind = .ladderContinuation →
      (∀ command o, command.handsOff = false → o ∈ produced (w.answer command) →
        o.instanceId = i → ∃ chosen ∈ queues w.scheduler i,
          chosen.kind = .ladderContinuation ∧ chosen.requestId = o.requestId) ∧
      ∀ requestId holderId connectionId now token,
        w.answer (.acquire requestId i holderId connectionId now) = .ok (.token token) →
          ∃ lease, w.scheduler.leaseOf i = some lease ∧ lease.acquireRequestId = requestId ∧
            lease.token = token :=
  ⟨reachable.choiceAgrees, fun _ _ waiting kind =>
    ⟨fun _ _ queued made here => reachable.continuation_first waiting kind queued made here,
      fun _ _ _ _ _ answered => reachable.acquire_gives_way waiting kind answered⟩⟩

namespace Sample

/-- The holder queues its continuation, a client queues behind it, and the holder lets go. -/
def continued : List Command :=
  [acquire, queueHigh, .enqueueClaim ⟨⟨8⟩, instanceId, ⟨1⟩, connection, .ladderContinuation,
    .normal, 120000⟩ 6, release]

end Sample

theorem grant_choice_continued :
    (world.run continued).scheduler.grantCandidate Sample.instanceId .routineHeld 20 =
        some .ladderContinuation ∧
      ChoiceAgrees (world.run continued) Sample.instanceId .routineHeld 20 :=
  ⟨by decide +kernel,
    (grant_choice _ (reachable (by decide +kernel))).1 Sample.instanceId .routineHeld 20⟩

/-- A client waits, and the holder that repeats its acquisition is not refused: it gets the lease
it holds. -/
theorem repeated_acquire_not_refused :
    (world.run [Sample.acquire, queueHigh]).Reachable ∧
      (∃ entry ∈ queues (world.run [Sample.acquire, queueHigh]).scheduler
        Sample.instanceId, entry.eligible .open 6 = true) ∧
      (world.run [Sample.acquire, queueHigh]).answer
        (.prepareAcquire ⟨1⟩ Sample.instanceId ⟨1⟩ connection 6) =
          .ok (.prepared (.existing Sample.token)) :=
  ⟨reachable (by decide +kernel), by decide +kernel, rfl⟩

end Scheduler
