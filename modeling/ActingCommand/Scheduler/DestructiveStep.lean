import ActingCommand.Scheduler.Fencing

/-!
# Exclusion under an open step

While a destructive step or a resource close is open on a lease, nobody opens a second one,
nobody prepares a transfer of the lease, and the transfers prepared before it no longer
commit: each holds a copy of the lease from before the step, which the commit compares.
-/

namespace Scheduler

open Machine Call SchedulerM List Option Except SeedScheduler Sample

variable {s t : SeedScheduler} {scope : Scope} {a b : SeedScheduler × List Outstanding}
  {out : List Outstanding} {i j : InstanceId} {lease other : LeaseEntry} {token : LeaseToken}
  {connectionId : ConnectionId}

/-! ## The lease behind a token -/

/-- An identifier determines the instance and the lease that holds it. -/
theorem LeasesIndexed.same_lease (indexed : LeasesIndexed (s, out))
    (held : (s.stateAt i).lease = some lease) (found : (s.stateAt j).lease = some other)
    (same : other.token.leaseId = lease.token.leaseId) : j = i ∧ other = lease := by
  have here := heldId_eq_some_iff.mpr ⟨lease, held, rfl⟩
  have there := heldId_eq_some_iff.mpr ⟨other, found, same⟩
  obtain rfl : j = i := indexed.exact.unique there here
  exact ⟨rfl, some.inj (found.symm.trans held)⟩

variable {now : Nat}

section

variable (indexed : LeasesIndexed (s, out)) (held : (s.stateAt i).lease = some lease)

include indexed held

/-- A held lease is found by its own token. -/
theorem LeasesIndexed.locates_own :
    lease.token.instanceId = i ∧ ∃ state, s.locateLease lease.token = .ok (state, lease) := by
  obtain ⟨here, epoch⟩ := indexed.own i lease held
  have located := (indexed.exact lease.token.leaseId i).mpr
    (heldId_eq_some_iff.mpr ⟨lease, held, rfl⟩)
  have known : ∃ state, s.instances[i]? = some state ∧ state.lease = some lease := by
    rw [← leaseOf_eq_stateAt] at held
    exact bind_eq_some_iff.mp held
  obtain ⟨state, known, holds⟩ := known
  refine ⟨here, state, locateLease_ok_iff.mpr ⟨epoch, ?_, ?_, holds⟩⟩
  · rw [here]
    exact located
  · rw [here]
    exact known

/-- A token of the lease's identifier can be transferred exactly when it is the lease's own,
on the connection that holds it. -/
theorem LeasesIndexed.transferableLease_iff (carries : token.leaseId = lease.token.leaseId) :
    s.transferableLease token connectionId = .ok other ↔
      (token = lease.token ∧ connectionId = lease.connectionId) ∧ other = lease := by
  constructor
  · intro passed
    obtain ⟨_, _, found, same, connection⟩ := transferableLease_ok passed
    obtain ⟨_, rfl⟩ := indexed.same_lease held found (by rw [same, carries])
    exact ⟨⟨same.symm, connection.symm⟩, rfl⟩
  · rintro ⟨⟨rfl, rfl⟩, rfl⟩
    obtain ⟨_, state, found⟩ := indexed.locates_own held
    simp only [transferableLease, bind_ok_iff, failIf_ok_iff, pure_ok_iff]
    exact ⟨_, found, (), by simp, (), by simp, rfl⟩

/-! ## Beginning a second step -/

lemma Opens.refuses {purpose r} (opens : Opens token connectionId purpose s r t)
    (opened : lease.destructiveStep ≠ none) (carries : token.leaseId = lease.token.leaseId) :
    (∃ e, r = .error e) ∧ t = s := by
  rcases opens with ⟨e, rfl, rfl⟩ | ⟨other, _, found, same, idle, _⟩
  · exact ⟨⟨e, rfl⟩, rfl⟩
  · obtain ⟨_, rfl⟩ := indexed.same_lease held found (by rw [same, carries])
    exact absurd idle opened

/-! ## Preparing a transfer -/

/-- On a lease with an open step the preparation writes nothing: it answers deferred if its
arguments are accepted and fails if they are not. -/
theorem Readies.defers {accepted nobody : Prop} {candidate reason releaseRequestId r}
    (opened : lease.destructiveStep ≠ none) (carries : token.leaseId = lease.token.leaseId)
    (readies : Readies accepted nobody candidate reason releaseRequestId token connectionId s r t) :
    t = s ∧ ((accepted ∧ token = lease.token ∧ connectionId = lease.connectionId) ∧
        r = .ok .deferred ∨
      ¬ (accepted ∧ token = lease.token ∧ connectionId = lease.connectionId) ∧
        ∃ e, r = .error e) := by
  -- Past the checks the source is the lease itself, which is not idle.
  have busy : ∀ {other}, s.transferableLease token connectionId = .ok other →
      other.destructiveStep ≠ none := by
    intro other source
    obtain ⟨_, rfl⟩ := (indexed.transferableLease_iff held carries).mp source
    exact opened
  rcases readies with ⟨e, rfl, rfl, fails⟩ | ⟨_, rfl, rfl, passes, source, _⟩ |
    ⟨_, _, _, _, source, idle⟩ | ⟨_, _, _, source, idle, _⟩ | ⟨_, _, _, _, source, idle, _⟩
  · refine ⟨rfl, .inr ⟨fun both => fails ⟨both.1, lease, ?_⟩, e, rfl⟩⟩
    exact (indexed.transferableLease_iff held carries).mpr ⟨both.2, rfl⟩
  · obtain ⟨own, _⟩ := (indexed.transferableLease_iff held carries).mp source
    exact ⟨rfl, .inl ⟨⟨passes, own⟩, rfl⟩⟩
  · exact absurd idle (busy source)
  · exact absurd idle (busy source)
  · exact absurd idle (busy source)

end

/-- The token and the connection of a call that prepares a transfer or a hand-off. -/
def Command.prepares : Command → Option (LeaseToken × ConnectionId)
  | .prepareTransfer token connectionId _ _ _ | .prepareTransferGated token connectionId _ _ _ _
  | .prepareHandOff token connectionId _ _ _ _
  | .prepareReleaseHandOff token connectionId _ _ _ _ =>
    some (token, connectionId)
  | _ => none

/-- The checks such a call makes of its other arguments. -/
def Command.ArgumentsPass (s : SeedScheduler) : Command → Prop
  | .prepareTransfer _ _ reason releaseRequestId _
  | .prepareTransferGated _ _ reason releaseRequestId _ _ =>
    reason = .explicitRelease ↔ releaseRequestId.isSome = true
  | .prepareHandOff token _ reason claim _ _ =>
    reason ≠ .explicitRelease ∧ s.validateClaimTtl claim.leaseTtlMs = .ok () ∧
      claim.instanceId = token.instanceId
  | .prepareReleaseHandOff token _ _ claim _ _ =>
    s.validateClaimTtl claim.leaseTtlMs = .ok () ∧ claim.instanceId = token.instanceId
  | _ => True

variable {command : Command}

/-- A preparation for a lease with an open step prepares nothing. -/
theorem exec_defers {r} (indexed : LeasesIndexed (s, out))
    (held : (s.stateAt i).lease = some lease) (opened : lease.destructiveStep ≠ none)
    (prepares : command.prepares = some (token, connectionId))
    (carries : token.leaseId = lease.token.leaseId) (ran : Steps (exec command) s r t) :
    t = s ∧
      ((command.ArgumentsPass s ∧ token = lease.token ∧ connectionId = lease.connectionId) ∧
          r = .ok (.transfer .deferred) ∨
        ¬ (command.ArgumentsPass s ∧ token = lease.token ∧ connectionId = lease.connectionId) ∧
          ∃ e, r = .error e) := by
  cases command with
  | prepareTransfer | prepareTransferGated =>
    obtain ⟨q, step, rfl⟩ := steps_map.mp ran
    obtain ⟨rfl, rfl⟩ := Prod.mk.inj (some.inj prepares)
    obtain ⟨same, ⟨passes, rfl⟩ | ⟨fails, e, rfl⟩⟩ :=
      (prepareTransferGated_steps step).defers indexed held opened carries
    · exact ⟨same, .inl ⟨passes, rfl⟩⟩
    · exact ⟨same, .inr ⟨fails, e, rfl⟩⟩
  | prepareReleaseHandOff =>
    obtain ⟨q, step, rfl⟩ := steps_map.mp ran
    obtain ⟨rfl, rfl⟩ := Prod.mk.inj (some.inj prepares)
    obtain ⟨same, ⟨passes, rfl⟩ | ⟨fails, e, rfl⟩⟩ :=
      (prepareClaimHandOff_steps step).defers indexed held opened carries
    · exact ⟨same, .inl ⟨passes, rfl⟩⟩
    · exact ⟨same, .inr ⟨fails, e, rfl⟩⟩
  | prepareHandOff _ _ reason claim =>
    obtain ⟨q, step, rfl⟩ := steps_map.mp ran
    obtain ⟨rfl, rfl⟩ := Prod.mk.inj (some.inj prepares)
    rcases steps_failIf_bind.mp step with ⟨explicit, rfl, rfl⟩ | ⟨implicit, step⟩
    · exact ⟨rfl, .inr ⟨fun accepted => accepted.1.1 explicit, _, rfl⟩⟩
    obtain ⟨same, ⟨passes, rfl⟩ | ⟨fails, e, rfl⟩⟩ :=
      (prepareClaimHandOff_steps step).defers indexed held opened carries
    · exact ⟨same, .inl ⟨⟨⟨implicit, passes.1⟩, passes.2⟩, rfl⟩⟩
    · exact ⟨same, .inr ⟨fun accepted => fails ⟨accepted.1.2, accepted.2⟩, e, rfl⟩⟩
  | _ => cases prepares

/-! ## Committing a transfer -/

variable {p : PreparedLeaseTransfer}

/-- A lease with an open step is not the one an outstanding transfer was prepared from. -/
theorem LeasesIndexed.not_source (indexed : LeasesIndexed (s, out)) (prepared : .transfer p ∈ out)
    (opened : lease.destructiveStep ≠ none) : lease ≠ p.source := by
  rintro rfl
  obtain ⟨_, _, _, idle⟩ := indexed.pending _ prepared
  exact opened idle

lemma commitTransfer_refuses (indexed : LeasesIndexed (s, out)) (prepared : .transfer p ∈ out)
    (held : (s.stateAt i).lease = some lease) (opened : lease.destructiveStep ≠ none)
    (same : p.source.token.leaseId = lease.token.leaseId) : Refuses (commitTransfer p now) s := by
  intro r t step
  rcases commitTransfer_steps step with ⟨e, rfl, rfl⟩ | ⟨_, _, _, source, _⟩
  · exact ⟨⟨e, rfl⟩, rfl⟩
  · obtain ⟨_, taken⟩ := indexed.same_lease held source same
    exact absurd taken.symm (indexed.not_source prepared opened)

/-- Whatever a commit answers, a lease with an open step stays where it is. -/
theorem commitTransfer_keeps {r} (indexed : LeasesIndexed (s, out)) (prepared : .transfer p ∈ out)
    (held : (s.stateAt i).lease = some lease) (opened : lease.destructiveStep ≠ none)
    (step : Steps (commitTransfer p now) s r t) : (t.stateAt i).lease = some lease := by
  rcases commitTransfer_steps step with ⟨_, _, rfl⟩ | ⟨_, _, _, source, _, rfl⟩
  · exact held
  have elsewhere : p.source.token.instanceId ≠ i := by
    rintro rfl
    exact indexed.not_source prepared opened (some.inj (held.symm.trans source))
  refine (congrArg InstanceState.lease (stateAt_setInstance s _ _ _)).trans ?_
  rw [if_neg elsewhere]
  exact held

/-! ## Step numbers -/

def openedStep : Command × SchedulerResult Response → Option Nat
  | (_, .ok (.opened witness)) => some witness.stepId.value
  | _ => none

/-- The numbers handed out in a run. -/
def stepIds (history : List (Command × SchedulerResult Response)) : List Nat :=
  history.filterMap openedStep

lemma Change.nextStepId_le (change : Change scope a b) : a.1.nextStepId ≤ b.1.nextStepId := by
  cases change with
  | calm calm | prepare _ calm => exact calm.nextStepId.ge
  | openStep => exact Nat.le_succ _
  | _ => exact le_rfl

variable {w : World}

/-- A step gets the next number, which no later step gets. -/
theorem World.opened_next {number : Nat}
    (opened : openedStep (command, w.answer command) = some number) :
    number = w.scheduler.nextStepId ∧ number < (w.step command).scheduler.nextStepId := by
  have ran := w.step_steps command
  generalize w.answer command = r at opened ran
  have numbered : ∀ {purpose token connectionId q},
      Opens token connectionId purpose w.scheduler q (w.step command).scheduler →
      openedStep (command, q.map .opened) = some number →
      number = w.scheduler.nextStepId ∧ number < (w.step command).scheduler.nextStepId := by
    rintro purpose token connectionId q
      (⟨e, rfl, _⟩ | ⟨_, stepId, _, _, _, next, rfl, after⟩) opened
    · cases opened
    obtain rfl := some.inj opened
    rw [after]
    exact ⟨next, next.trans_lt (Nat.lt_succ_self _)⟩
  cases command with
  | beginDestructiveStep =>
    obtain ⟨q, step, rfl⟩ := steps_map.mp ran
    exact numbered (beginDestructiveStep_opens step) opened
  | beginResourceClose =>
    obtain ⟨q, step, rfl⟩ := steps_map.mp ran
    exact numbered (beginResourceClose_opens step) opened
  | _ =>
    obtain ⟨q, _, rfl⟩ := steps_map.mp ran
    cases q <;> cases opened

structure StepsNumbered (w : World) : Prop where
  distinct : (stepIds w.history).Nodup
  below : ∀ number ∈ stepIds w.history, number < w.scheduler.nextStepId

lemma World.Reachable.stepsNumbered (reachable : w.Reachable) : StepsNumbered w := by
  have both : Bounded w.scheduler ∧ StepsNumbered w := by
    refine reachable.invariant (fun v => Bounded v.scheduler ∧ StepsNumbered v) ?_ ?_
    · intro _ _ _ _ _ _ made
      exact ⟨new_bounded made, nodup_nil, fun _ listed => absurd listed not_mem_nil⟩
    rintro v command ⟨bounded, numbered⟩ legal
    have changes := World.step_changes bounded legal
    have grows := changes.preserve
      (fun c => v.scheduler.nextStepId ≤ c.1.nextStepId)
      (fun change sofar => sofar.trans change.nextStepId_le) le_rfl
    refine ⟨changes.bounded bounded, ?_⟩
    have history : stepIds (v.step command).history =
        (openedStep (command, v.answer command)).toList ++ stepIds v.history := by
      change List.filterMap openedStep ((command, v.answer command) :: v.history) = _
      rw [filterMap_cons]
      cases openedStep (command, v.answer command) <;> rfl
    cases opened : openedStep (command, v.answer command) with
    | none =>
      rw [opened] at history
      refine ⟨by rw [history]; exact numbered.distinct, fun number listed => ?_⟩
      rw [history] at listed
      exact (numbered.below number listed).trans_le grows
    | some number =>
      obtain ⟨next, fits⟩ := World.opened_next opened
      rw [opened] at history
      refine ⟨?_, fun earlier listed => ?_⟩
      · rw [history]
        refine nodup_cons.mpr ⟨fun listed => ?_, numbered.distinct⟩
        exact absurd next (numbered.below number listed).ne
      rw [history] at listed
      rcases mem_cons.mp listed with rfl | listed
      · exact fits
      · exact (numbered.below earlier listed).trans_le grows
  exact both.2

/-! ## Exclusion -/

structure StepExcludes (w : World) (lease : LeaseEntry) : Prop where
  beginDestructiveStep : ∀ token connectionId now, token.leaseId = lease.token.leaseId →
    (∃ e, w.answer (.beginDestructiveStep token connectionId now) = .error e) ∧
      (w.step (.beginDestructiveStep token connectionId now)).scheduler = w.scheduler
  beginResourceClose : ∀ token connectionId now, token.leaseId = lease.token.leaseId →
    (∃ e, w.answer (.beginResourceClose token connectionId now) = .error e) ∧
      (w.step (.beginResourceClose token connectionId now)).scheduler = w.scheduler
  /-- A preparation whose arguments are accepted is deferred, any other fails, and neither
  prepares anything. -/
  prepare : ∀ command token connectionId, command.prepares = some (token, connectionId) →
    token.leaseId = lease.token.leaseId →
    (w.step command).scheduler = w.scheduler ∧ (w.step command).outstanding = w.outstanding ∧
    ((command.ArgumentsPass w.scheduler ∧ token = lease.token ∧
          connectionId = lease.connectionId) ∧ w.answer command = .ok (.transfer .deferred) ∨
      ¬ (command.ArgumentsPass w.scheduler ∧ token = lease.token ∧
          connectionId = lease.connectionId) ∧ ∃ e, w.answer command = .error e)
  commitTransfer : ∀ p now, .transfer p ∈ w.outstanding →
    p.source.token.leaseId = lease.token.leaseId →
    (∃ e, w.answer (.commitTransfer p now) = .error e) ∧
      (w.step (.commitTransfer p now)).scheduler = w.scheduler

lemma Command.consumes_of_prepares (prepares : command.prepares = some (token, connectionId)) :
    command.consumes = [] := by
  cases command with
  | prepareTransfer | prepareTransferGated | prepareHandOff | prepareReleaseHandOff => rfl
  | _ => cases prepares

lemma World.Reachable.stepExcludes (reachable : w.Reachable)
    (held : (w.scheduler.stateAt i).lease = some lease) (opened : lease.destructiveStep ≠ none) :
    StepExcludes w lease where
  beginDestructiveStep token connectionId now carries :=
    Refuses.map (fun _ _ step => (beginDestructiveStep_opens step).refuses
      reachable.leasesIndexed held opened carries) _ _ _
      (w.step_steps (.beginDestructiveStep token connectionId now))
  beginResourceClose token connectionId now carries :=
    Refuses.map (fun _ _ step => (beginResourceClose_opens step).refuses
      reachable.leasesIndexed held opened carries) _ _ _
      (w.step_steps (.beginResourceClose token connectionId now))
  prepare command token connectionId prepares carries := by
    obtain ⟨same, answered⟩ :=
      exec_defers reachable.leasesIndexed held opened prepares carries (w.step_steps command)
    refine ⟨same, ?_, answered⟩
    have nothing : produced (w.answer command) = [] := by
      rcases answered with ⟨_, deferred⟩ | ⟨_, e, failed⟩
      · rw [deferred]
        rfl
      · rw [failed]
        rfl
    change produced (w.answer command) ++ w.outstanding.diff command.consumes = w.outstanding
    rw [nothing, Command.consumes_of_prepares prepares, diff_nil, nil_append]
  commitTransfer p now prepared same :=
    (commitTransfer_refuses reachable.leasesIndexed prepared held opened same).map _ _ _
      (w.step_steps (.commitTransfer p now))

/-- While a step is open on a lease, no second one begins, every preparation of a transfer is
deferred, and every transfer prepared earlier fails to commit. So no commit takes a lease from
under its open step; and no step number is handed out twice. -/
theorem destructive_step_exclusion (w : World) (reachable : w.Reachable) :
    (∀ i lease, w.scheduler.leaseOf i = some lease → lease.destructiveStep ≠ none →
      StepExcludes w lease ∧
      ∀ p now, w.Legal (.commitTransfer p now) →
        (w.step (.commitTransfer p now)).scheduler.leaseOf i = some lease) ∧
    (stepIds w.history).Nodup := by
  refine ⟨fun i lease held opened => ?_, reachable.stepsNumbered.distinct⟩
  rw [leaseOf_eq_stateAt] at held
  refine ⟨reachable.stepExcludes held opened, fun p now legal => ?_⟩
  obtain ⟨q, step, _⟩ := steps_map.mp (w.step_steps (.commitTransfer p now))
  rw [leaseOf_eq_stateAt]
  exact commitTransfer_keeps reachable.leasesIndexed (legal _ (mem_singleton_self _)) held
    opened step

/-- A transfer is prepared, the holder then opens a resource close, and the transfer no longer
commits. -/
theorem destructive_step_exclusion_closing :
    ∃ lease p, (world.run closing).scheduler.leaseOf instanceId =
        some lease ∧ lease.destructiveStep ≠ none ∧
      .transfer p ∈ (world.run closing).outstanding ∧
      (∃ e, (world.run closing).answer (.commitTransfer p 30) = .error e) ∧
      ((world.run closing).step (.commitTransfer p 30)).scheduler.leaseOf
        instanceId = some lease ∧
      stepIds (world.run closing).history = [1] ∧
      (stepIds (world.run closing).history).Nodup := by
  obtain ⟨excludes, distinct⟩ :=
    destructive_step_exclusion (world.run closing) (reachable (by decide))
  obtain ⟨step, keeps⟩ := excludes instanceId _ rfl (by decide)
  refine ⟨_, _, rfl, by decide, mem_singleton_self _, ?_, ?_, rfl, distinct⟩
  · exact (step.commitTransfer _ 30 (mem_singleton_self _) rfl).1
  · exact keeps _ 30 (by decide)

end Scheduler
