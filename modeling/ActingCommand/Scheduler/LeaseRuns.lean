import ActingCommand.Scheduler.GrantChoice
import ActingCommand.Scheduler.DestructiveStep

/-!
# Leases along a run

An open step stays on its lease until it is finished or the lease ends, but the finish compares
whole tokens, so a renewal in between locks the holder out of its own step. A transfer turns a
granted continuation back into its ladder; the pump does not.
-/

namespace Scheduler

open Machine Call SchedulerM List Option Except SeedScheduler Sample

variable {s t : SeedScheduler} {i : InstanceId}

/-! ## An open step -/

/-- The lease with this identifier has ended, or it is held on the instance with this step open
and a token as required. -/
def StepStands (leaseId : LeaseId) (i : InstanceId) (step : StepId × FencedWritePurpose)
    (required : LeaseToken → Prop) (w : World) : Prop :=
  Spent leaseId (w.scheduler, w.outstanding) ∨
    ∃ lease, (w.scheduler.stateAt i).lease = some lease ∧ lease.token.leaseId = leaseId ∧
      lease.destructiveStep = some step ∧ required lease.token

/-- The call does not finish the step. -/
def LeavesStep (stepId : StepId) (w : World) (command : Command) : Prop :=
  ∀ witness connectionId, command = .finishDestructiveStep witness connectionId →
    witness.stepId = stepId → w.answer command ≠ .ok .done

lemma StepStands.step {leaseId : LeaseId} {step required} {w : World} {command : Command}
    (reachable : w.Reachable) (legal : w.Legal command) (unfinished : LeavesStep step.1 w command)
    (renewal : ∀ held renewed record, command.Renews (w.answer command) held renewed record →
      held.token.instanceId = i → required held.token → required renewed)
    (stands : StepStands leaseId i step required w) :
    StepStands leaseId i step required (w.step command) := by
  rcases stands with spent | ⟨lease, held, same, opened, fits⟩
  · exact .inl ((World.Continues.refl.step legal).spent reachable spent)
  have kept : ∀ after, ((w.step command).scheduler.stateAt i).lease = some after →
      after.token.leaseId = leaseId → after.destructiveStep = some step → required after.token →
      StepStands leaseId i step required (w.step command) :=
    fun after here id step fits => .inr ⟨after, here, id, step, fits⟩
  cases reachable.touches command i with
  | kept refreshed =>
    obtain ⟨⟨flag, after⟩, _⟩ := refreshed
    rw [held] at after
    exact kept _ after same opened fits
  | granted p flag grants here free =>
    rw [held] at free
    cases free
  | transferred p flag now commits answered here source =>
    -- A transfer was prepared from a lease without an open step.
    obtain rfl := some.inj (source.symm.trans held)
    subst commits
    have prepared := reachable.leasesIndexed.pending _ (legal _ (mem_singleton_self _))
    rw [prepared.2.2.2] at opened
    cases opened
  | renewed other token record renews here sameLease before after =>
    obtain rfl := some.inj (before.symm.trans held)
    exact kept _ after (sameLease.trans same) opened (renewal other token record renews here fits)
  | opened other witness opens here before idle =>
    obtain rfl := some.inj (before.symm.trans held)
    rw [idle] at opened
    cases opened
  | closed other witness closes answered here token marked before =>
    obtain rfl := some.inj (before.symm.trans held)
    obtain rfl := some.inj (marked.symm.trans opened)
    exact absurd answered (unfinished witness _ closes rfl)
  | ended other record ends here before =>
    obtain rfl := some.inj (before.symm.trans held)
    refine .inl ?_
    have located := (reachable.leasesIndexed.exact leaseId i).mpr
      (heldId_eq_some_iff.mpr ⟨other, held, same⟩)
    rw [← same]
    rw [← same] at located
    exact reachable.ended_spent legal located ends.endsOf

lemma StepStands.run {leaseId : LeaseId} {step required condition} {w v : World}
    (reachable : w.Reachable) (run : w.ContinuesBy condition v)
    (unfinished : ∀ u command, condition u command → LeavesStep step.1 u command)
    (renewal : ∀ u command held renewed record, condition u command →
      command.Renews (u.answer command) held renewed record → held.token.instanceId = i →
      required held.token → required renewed)
    (stands : StepStands leaseId i step required w) : StepStands leaseId i step required v := by
  induction run with
  | refl => exact stands
  | step run legal allowed ih =>
    exact ih.step (reachable.continues run.continues) legal (unfinished _ _ allowed)
      fun held renewed record => renewal _ _ held renewed record allowed

/-- The call begins a step. -/
def Command.Begins (command : Command) (token : LeaseToken) (connectionId : ConnectionId) : Prop :=
  ∃ now, command = .beginDestructiveStep token connectionId now ∨
    command = .beginResourceClose token connectionId now

/-- Right after the begin the step stands, with the token it was begun under. -/
theorem Command.Begins.stands {w : World} {command : Command} {token connectionId witness}
    (begins : command.Begins token connectionId)
    (begun : w.answer command = .ok (.opened witness)) :
    witness.token = token ∧ witness.connectionId = connectionId.value ∧
      StepStands token.leaseId token.instanceId (witness.stepId, witness.purpose) (· = token)
        (w.step command) := by
  have opens : ∃ purpose, Scheduler.Opens token connectionId purpose w.scheduler (.ok witness)
      (w.step command).scheduler := by
    obtain ⟨now, rfl | rfl⟩ := begins
    all_goals obtain ⟨_, ⟨⟩, step⟩ := World.steps_of_answer rfl begun
    · exact ⟨_, beginDestructiveStep_opens step⟩
    · exact ⟨_, beginResourceClose_opens step⟩
  obtain ⟨purpose, ⟨_, ⟨⟩, _⟩ | ⟨lease, stepId, _, same, _, _, ⟨⟩, after⟩⟩ := opens
  refine ⟨rfl, rfl, .inr ⟨{ lease with destructiveStep := some (stepId, purpose) }, ?_,
    by rw [← same], rfl, same⟩⟩
  rw [after]
  exact (congrArg InstanceState.lease (stateAt_setInstance w.scheduler _ _ _)).trans
    (by rw [if_pos rfl])

lemma finishDestructiveStep_ok_iff {witness connectionId r}
    (step : Steps (finishDestructiveStep witness connectionId) s r t) :
    r = .ok () ↔ ∃ state lease, s.locateLease witness.token = .ok (state, lease) ∧
      lease.token = witness.token ∧ lease.connectionId = connectionId ∧
      witness.connectionId = connectionId.value ∧
      lease.destructiveStep = some (witness.stepId, witness.purpose) := by
  rcases finishDestructiveStep_steps step with ⟨⟨e, rfl⟩, _, fails⟩ |
    ⟨state, lease, rfl, located, opened, _⟩
  · refine iff_of_false (by simp) ?_
    rintro ⟨state, lease, located, token, connection, own, step⟩
    exact fails state lease located ⟨token, connection, own, step⟩
  · exact iff_of_true rfl
      ⟨state, lease, located, opened.token, opened.connection, opened.own, opened.step⟩

lemma StepStands.weaken {leaseId : LeaseId} {step required weaker} {w : World}
    (stands : StepStands leaseId i step required w)
    (implied : ∀ token, required token → weaker token) : StepStands leaseId i step weaker w := by
  rcases stands with spent | ⟨lease, held, same, opened, fits⟩
  · exact .inl spent
  · exact .inr ⟨lease, held, same, opened, implied _ fits⟩

/-- Where the step is open on the lease its own connection holds, only the token decides. -/
theorem finish_answer_iff {w : World} {witness connectionId lease} (reachable : w.Reachable)
    (held : w.scheduler.leaseOf witness.token.instanceId = some lease)
    (own : lease.connectionId = connectionId)
    (connection : witness.connectionId = connectionId.value)
    (marked : lease.destructiveStep = some (witness.stepId, witness.purpose)) :
    w.answer (.finishDestructiveStep witness connectionId) = .ok .done ↔
      lease.token = witness.token := by
  rw [leaseOf_eq_stateAt] at held
  obtain ⟨q, step, answered⟩ :=
    steps_map.mp (w.step_steps (.finishDestructiveStep witness connectionId))
  have done : w.answer (.finishDestructiveStep witness connectionId) = .ok .done ↔ q = .ok () := by
    rw [answered]
    cases q with
    | error | ok => simp [Except.map]
  rw [done, finishDestructiveStep_ok_iff step]
  constructor
  · rintro ⟨state, other, located, token, _⟩
    obtain ⟨_, _, found, here⟩ := locateLease_ok_iff.mp located
    rw [stateAt_of_some found, here] at held
    rw [← some.inj held]
    exact token
  · intro token
    obtain ⟨_, state, located⟩ := reachable.leasesIndexed.locates_own held
    exact ⟨state, lease, by rw [← token]; exact located, token, own, connection, marked⟩

theorem StepStands.held {leaseId : LeaseId} {step required} {w : World} {j lease}
    (stands : StepStands leaseId i step required w) (reachable : w.Reachable)
    (held : w.scheduler.leaseOf j = some lease) (same : lease.token.leaseId = leaseId) :
    j = i ∧ lease.destructiveStep = some step ∧ required lease.token := by
  rw [leaseOf_eq_stateAt] at held
  rcases stands with spent | ⟨other, found, id, opened, fits⟩
  · exact absurd same (reachable.leasesIndexed.not_held spent.unlocated held)
  · obtain ⟨rfl, rfl⟩ := reachable.leasesIndexed.same_lease found held (same.trans id.symm)
    exact ⟨rfl, opened, fits⟩

/-- The call does not renew the lease of the instance. -/
def LeavesToken (i : InstanceId) (w : World) (command : Command) : Prop :=
  ∀ held renewed record, held.token.instanceId = i →
    ¬ command.Renews (w.answer command) held renewed record

/-- A step that its connection began and nobody finished can be finished by that connection, as
long as it holds the lease, exactly when the lease still has the token the step was begun under;
so it can as long as nobody renews the lease. -/
theorem open_step_closes_iff (w : World) (reachable : w.Reachable) (command : Command)
    (legal : w.Legal command) (token : LeaseToken) (connectionId : ConnectionId)
    (witness : FencedWrite) (begins : command.Begins token connectionId)
    (begun : w.answer command = .ok (.opened witness)) :
    (∀ v j lease, (w.step command).ContinuesBy (LeavesStep witness.stepId) v →
      v.scheduler.leaseOf j = some lease → lease.token.leaseId = token.leaseId →
      lease.connectionId = connectionId →
      (v.answer (.finishDestructiveStep witness connectionId) = .ok .done ↔
        lease.token = token)) ∧
    (∀ v j lease, (w.step command).ContinuesBy (fun u command =>
        LeavesStep witness.stepId u command ∧ LeavesToken token.instanceId u command) v →
      v.scheduler.leaseOf j = some lease → lease.token.leaseId = token.leaseId →
      lease.connectionId = connectionId →
      v.answer (.finishDestructiveStep witness connectionId) = .ok .done) := by
  obtain ⟨rfl, connection, stands⟩ := begins.stands begun
  have after := reachable.step legal
  have closes : ∀ v j lease, (w.step command).ContinuesBy (LeavesStep witness.stepId) v →
      v.scheduler.leaseOf j = some lease → lease.token.leaseId = witness.token.leaseId →
      lease.connectionId = connectionId →
      (v.answer (.finishDestructiveStep witness connectionId) = .ok .done ↔
        lease.token = witness.token) := by
    intro v j lease run held same own
    have reached := after.continues run.continues
    have standing := (stands.weaken fun _ _ => trivial).run after run (fun _ _ allowed => allowed)
      fun _ _ _ _ _ _ _ _ _ => trivial
    obtain ⟨rfl, marked, -⟩ := standing.held reached held same
    exact finish_answer_iff reached held own connection marked
  refine ⟨closes, fun v j lease run held same own => ?_⟩
  have weaker := run.weaken fun _ _ allowed => allowed.1
  have unrenewed := stands.run after run (fun _ _ allowed => allowed.1)
    fun u command held renewed record allowed renews here _ =>
      absurd renews (allowed.2 held renewed record here)
  exact (closes v j lease weaker held same own).mpr
    (unrenewed.held (after.continues run.continues) held same).2.2

namespace Sample

def begin : Command := .beginDestructiveStep token connection 5

def witness : FencedWrite := ⟨token, connection.value, ⟨1, Nat.one_ne_zero⟩, .business⟩

def renew : Command := .renew ⟨9⟩ token connection 10

def stepping : World := (world.run [acquire]).step begin

def renewed : World := stepping.step renew

/-- The preemption that the queued client asks for. -/
def preempt : Command := .prepareTransfer token connection .preempted none 10

def contested : World := (stepping.step queueHigh).step preempt

def shown (w : World) : Option (LeaseToken × ConnectionId × Option (StepId × FencedWritePurpose)) :=
  (w.scheduler.leaseOf instanceId).map fun lease =>
    (lease.token, lease.connectionId, lease.destructiveStep)

end Sample

/-- While the step is open another client queues, and the preemption it asks for is put off. -/
theorem open_step_closes_contested :
    (stepping.step queueHigh).answer preempt = .ok (.transfer .deferred) ∧
      contested.answer (.finishDestructiveStep witness connection) = .ok .done := by
  have shown : shown contested =
      some (Sample.token, connection, some (witness.stepId, .business)) := by
    decide +kernel
  obtain ⟨lease, held, same⟩ := map_eq_some_iff.mp shown
  obtain ⟨token, own, _⟩ := by simpa only [Prod.mk.injEq] using same
  have run : stepping.ContinuesBy (fun u command => LeavesStep witness.stepId u command ∧
      LeavesToken Sample.token.instanceId u command) contested := by
    refine .step (.step .refl (fun _ none => absurd none not_mem_nil) ?_)
      (fun _ none => absurd none not_mem_nil) ?_ <;>
    simp [LeavesStep, LeavesToken, Command.Renews, queueHigh, preempt]
  exact ⟨by decide +kernel, (open_step_closes_iff (world.run [acquire])
    (reachable (by decide +kernel)) begin (fun _ held => absurd held not_mem_nil)
    Sample.token connection witness ⟨5, .inl rfl⟩ rfl).2 contested instanceId lease run held
    (by rw [token]) own⟩

/-- The holder renews its lease while its step is open, and can then no longer finish the step,
though the lease is active, unexpired and its own. -/
theorem renewed_step_not_closed :
    renewed.Reachable ∧
      (world.run [acquire]).answer begin = .ok (.opened witness) ∧
      shown renewed = some ({ token with expiresAtMonotonicMs := 120010 },
        connection, some (witness.stepId, witness.purpose)) ∧
      renewed.answer (.finishDestructiveStep witness connection) =
        .error .connectionMismatch :=
  ⟨(@reachable [acquire, begin, renew] (by decide +kernel)), rfl,
    by decide +kernel, rfl⟩

/-! ## Continuations -/

/-- A continuation is prepared only as an entry of the queue. -/
def ContinuationsQueued (w : World) : Prop :=
  ∀ p, .lease p ∈ w.outstanding → p.fromQueue = false → p.kind ≠ .ladderContinuation

/-- No lease is held as a continuation. -/
def NoneContinues (s : SeedScheduler) : Prop :=
  ∀ i lease, s.leaseOf i = some lease → lease.kind ≠ .ladderContinuation

/-- The call commits the pump's grant of a continuation. -/
def PumpsContinuation (w : World) (command : Command) : Prop :=
  ∃ p now, command = .commitAcquire (.new p) now ∧ p.fromQueue = true ∧
    p.kind = .ladderContinuation ∧ w.answer command = .ok (.token p.token)

lemma produced_direct {w : World} {command : Command} {p}
    (reachable : w.Reachable) (entered : command.claimKind ≠ some .ladderContinuation)
    (made : .lease p ∈ produced (w.answer command)) (direct : p.fromQueue = false) :
    p.kind ≠ .ladderContinuation := by
  intro continues
  rcases reachable.produces made with ⟨_, _, _, _, _, ⟨⟩, _, _, _, claimed⟩ |
    ⟨_, _, _, _, ⟨⟩, _, grants⟩ | ⟨_, _, _, ⟨⟩, _⟩ | ⟨_, ⟨⟩, _⟩
  · exact entered (claimed continues)
  · exact absurd (grants.queued.symm.trans direct) (by simp)

lemma ContinuationsQueued.step {w : World} {command : Command} (reachable : w.Reachable)
    (entered : command.claimKind ≠ some .ladderContinuation) (queued : ContinuationsQueued w) :
    ContinuationsQueued (w.step command) := by
  intro p held direct
  rcases mem_append.mp held with made | kept
  · exact produced_direct reachable entered made direct
  · exact queued p (diff_subset _ _ kept) direct

/-- One call leaves no lease a continuation, unless it commits the pump's grant of one. -/
theorem NoneContinues.step {w : World} {command : Command} (reachable : w.Reachable)
    (legal : w.Legal command) (queued : ContinuationsQueued w)
    (unpumped : ¬ PumpsContinuation w command) (none : NoneContinues w.scheduler) :
    NoneContinues (w.step command).scheduler := by
  intro i lease held
  rw [leaseOf_eq_stateAt] at held
  have before : ∀ other, (w.scheduler.stateAt i).lease = some other →
      other.kind ≠ .ladderContinuation := fun other here =>
    none i other (by rw [leaseOf_eq_stateAt]; exact here)
  cases reachable.touches command i with
  | kept refreshed =>
    obtain ⟨⟨flag, after⟩, _⟩ := refreshed
    obtain ⟨old, here, rfl⟩ := map_eq_some_iff.mp (after.symm.trans held)
    exact before old here
  | granted p flag grants here free after =>
    obtain rfl := some.inj (after.symm.trans held)
    obtain ⟨answered, ⟨now, rfl⟩ | ⟨_, kind, _⟩⟩ := grants
    · have prepared : .lease p ∈ w.outstanding := legal _ (mem_singleton_self _)
      intro kind
      cases source : p.fromQueue with
      | false => exact queued p prepared source kind
      | true => exact unpumped ⟨p, now, rfl, source, kind, answered⟩
    · intro continues
      cases kind.symm.trans continues
  | transferred p flag now commits answered here source after =>
    obtain rfl := some.inj (after.symm.trans held)
    change transferredKind p.queued.kind ≠ _
    unfold transferredKind
    split
    · decide
    · assumption
  | renewed other token record renews here same source after
  | opened other witness opens here source idle after
  | closed other witness closes answered here token marked source after =>
    obtain rfl := some.inj (after.symm.trans held)
    exact before other source
  | ended other record ends here source after =>
    rw [after] at held
    cases held

/-- The pump's grant leaves a lease that is a continuation. -/
theorem PumpsContinuation.continues {w : World} {command : Command}
    (pumps : PumpsContinuation w command) : ¬ NoneContinues (w.step command).scheduler := by
  obtain ⟨p, now, rfl, _, kind, answered⟩ := pumps
  obtain ⟨_, ⟨⟩, step⟩ := World.steps_of_answer rfl answered
  rcases commitAcquireNew_steps step with ⟨e, ⟨⟩, _⟩ | ⟨queue, _, _, _, _, _, after⟩
  intro none
  refine none p.token.instanceId ((grantedLease p).flagged (preemptWanted (grantedLease p) queue))
    ?_ kind
  rw [leaseOf_eq_stateAt, after]
  exact (congrArg InstanceState.lease (stateAt_setInstance w.scheduler _ _ _)).trans
    (by rw [if_pos rfl]; rfl)

/-- The calls of a run with the worlds they are made in. -/
def World.trace (w : World) : List Command → List (World × Command)
  | [] => []
  | command :: rest => (w, command) :: (w.step command).trace rest

/-- In a run whose continuations enter only through the queue, no lease is ever a continuation
exactly when the run never commits the pump's grant of one. -/
theorem continuations_never_hold_iff (ownerEpoch : OwnerEpoch) (config : SchedulerConfig)
    (takeover : List InstanceId) (nameSpace : Option Nat) (now : Nat) (s : SeedScheduler)
    (made : new ownerEpoch config takeover nameSpace now = .ok s)
    (commands : List Command) (legal : (World.start s).LegalRun commands)
    (entered : ∀ command ∈ commands, command.claimKind ≠ some .ladderContinuation) :
    (∀ visited ∈ (World.start s).trace commands,
      NoneContinues (visited.1.step visited.2).scheduler) ↔
      ∀ visited ∈ (World.start s).trace commands, ¬ PumpsContinuation visited.1 visited.2 := by
  constructor
  · exact fun none visited called pumps => pumps.continues (none visited called)
  have along : ∀ (commands : List Command) (w : World), w.Reachable → ContinuationsQueued w →
      NoneContinues w.scheduler → w.LegalRun commands →
      (∀ command ∈ commands, command.claimKind ≠ some .ladderContinuation) →
      (∀ visited ∈ w.trace commands, ¬ PumpsContinuation visited.1 visited.2) →
      ∀ visited ∈ w.trace commands, NoneContinues (visited.1.step visited.2).scheduler := by
    intro commands
    induction commands with
    | nil => exact fun _ _ _ _ _ _ _ visited called => absurd called not_mem_nil
    | cons command rest ih =>
      intro w reachable queued none legal entered unpumped visited called
      have here := forall_mem_cons.mp entered
      have pumps := forall_mem_cons.mp unpumped
      have next := none.step reachable legal.1 queued pumps.1
      rcases mem_cons.mp called with rfl | later
      · exact next
      · exact ih _ (reachable.step legal.1) (queued.step reachable here.1) next legal.2 here.2
          pumps.2 visited later
  refine along commands _ ⟨_, _, _, _, _, s, made, .refl⟩ ?_ ?_ legal entered
  · exact fun p held => absurd held not_mem_nil
  intro i lease held
  obtain ⟨_, _, _, _, _, states⟩ := new_ok made
  obtain ⟨cooldown, _, state⟩ := states i
  rw [leaseOf_eq_stateAt, show (World.start s).scheduler.stateAt i = _ from state]
    at held
  cases held

namespace Sample

/-- The continuation the holder queues. -/
def continuation : ClaimRequest :=
  ⟨⟨8⟩, instanceId, ⟨1⟩, connection, .ladderContinuation, .normal, 120000⟩

/-- The release that passes the lease on to the continuation. -/
def transferred : PreparedLeaseTransfer where
  source := ⟨token, connection, false, ⟨1⟩, none, .normal, none, false, .clientLease⟩
  queued := { claimEntry continuation with arrivalSequence := 1 }
  toToken := ⟨ownerEpoch, ⟨3 * 2 ^ 64 + 2⟩, instanceId, ⟨1⟩, 120010⟩
  reason := .explicitRelease
  releaseRequestId := some ⟨3⟩
  handOff := false

/-- The holder releases the instance and passes it on to the continuation it queued. -/
def transferring : List Command :=
  [acquire, .enqueueClaim continuation 5,
    .prepareTransfer token connection .explicitRelease (some ⟨3⟩) 10,
    .commitTransfer transferred 10]

/-- The pump's grant of the continuation. -/
def pumped : PreparedLease :=
  ⟨⟨ownerEpoch, ⟨3 * 2 ^ 64 + 2⟩, instanceId, ⟨1⟩, 120020⟩, connection, ⟨8⟩, .normal, false,
    .ladderContinuation, true⟩

/-- The holder lets go before the continuation is granted, and the pump grants it. -/
def pumping : List Command :=
  [acquire, .enqueueClaim continuation 5, release, .prepareQueuedGrant instanceId .open 20,
    .commitAcquire (.new pumped) 20]

end Sample

/-- Without the pump the run keeps every lease from being a continuation, also the one that the
release transfers to the queued continuation. -/
theorem continuations_never_hold_queued :
    (∀ visited ∈ world.trace transferring, NoneContinues (visited.1.step visited.2).scheduler) ∧
      ((world.run transferring).scheduler.leaseOf instanceId).map
        (fun lease => (lease.acquireRequestId, lease.kind)) = some (⟨8⟩, .ladder) := by
  refine ⟨(continuations_never_hold_iff _ _ _ _ _ _ new_eq transferring (by decide +kernel)
    (by decide)).mpr fun visited called pumps => ?_, by decide +kernel⟩
  obtain ⟨p, now, committed, _⟩ := pumps
  simp only [transferring, World.trace, mem_cons, not_mem_nil, or_false] at called
  rcases called with rfl | rfl | rfl | rfl <;> cases committed

/-- The pump's grant of a waiting continuation is held as a continuation. -/
theorem pumped_continuation_holds :
    (world.run pumping).Reachable ∧
      (∀ command ∈ pumping, command.claimKind ≠ some .ladderContinuation) ∧
      ((world.run pumping).scheduler.leaseOf instanceId).map LeaseEntry.kind =
        some .ladderContinuation :=
  ⟨reachable (by decide +kernel), by decide, by decide +kernel⟩

end Scheduler
