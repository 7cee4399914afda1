import ActingCommand.Scheduler.LeaseRuns

/-!
# Repeating a call

A renewal and a release leave a record of what was asked and what was answered. While the record
stands, the same call is answered from it and changes nothing, and the same request with another
token or connection is refused. A queue request leaves its entry or its lease, which answers it
in the same way.
-/

namespace Scheduler

open Machine Call SchedulerM List Option Except SeedScheduler SchedulerError World

variable {s t : SeedScheduler} {i : InstanceId} {requestId : RequestId} {token : LeaseToken}
  {connectionId : ConnectionId}

/-- The call is answered so, and changes nothing. -/
def World.Repeats (w : World) (command : Command) (answer : SchedulerResult Response) : Prop :=
  w.answer command = answer ∧ (w.step command).scheduler = w.scheduler

/-- The call fails and changes nothing. -/
def World.Refuses (w : World) (command : Command) : Prop := ∃ e, w.Repeats command (.error e)

section Answers

variable {α : Type} {m : SchedulerM α} {wrap : α → Response} {w : World} {command : Command}

/-- A call of an operation is answered with what the operation comes to. -/
theorem World.repeats_of_replays {a : α} (runs : exec command = wrap <$> m)
    (replays : ∀ {r t}, Steps m w.scheduler r t → r = .ok a ∧ t = w.scheduler) :
    w.Repeats command (.ok (wrap a)) := by
  have ran := w.step_steps command
  rw [runs] at ran
  obtain ⟨q, step, answered⟩ := steps_map.mp ran
  obtain ⟨rfl, unchanged⟩ := replays step
  exact ⟨answered, unchanged⟩

lemma World.refuses_of_refuses (runs : exec command = wrap <$> m)
    (refuses : Call.Refuses m w.scheduler) : w.Refuses command := by
  have ran := w.step_steps command
  rw [runs] at ran
  obtain ⟨q, step, answered⟩ := steps_map.mp ran
  obtain ⟨⟨e, rfl⟩, unchanged⟩ := refuses q _ step
  exact ⟨e, answered, unchanged⟩

end Answers

/-! ## Calls that leave a lease alone -/

/-- The call renews, replaces, newly grants or ends the lease of the instance. -/
def Rewrites (i : InstanceId) (w : World) (command : Command) : Prop :=
  (∃ held renewed record, w.scheduler.leaseOf i = some held ∧
      command.Renews (w.answer command) held renewed record) ∨
    (∃ p now, command = .commitTransfer p now ∧ p.source.token.instanceId = i ∧
      w.answer command = .ok (.token p.toToken)) ∨
    (∃ p, p.token.instanceId = i ∧ command.Grants (w.answer command) p) ∨
    (∃ held record, w.scheduler.leaseOf i = some held ∧
      command.Ends (w.answer command) held record)

/-- It does none of these: it changes nothing at all, as a repeated call does, or it is another
call. -/
def LeavesLease (i : InstanceId) (w : World) (command : Command) : Prop :=
  (w.step command).scheduler = w.scheduler ∨ ¬ Rewrites i w command

/-- What is kept of an instance by the calls that leave its lease alone. -/
theorem LeavesLease.keeps {w : World} {command : Command} (leaves : LeavesLease i w command)
    (reachable : w.Reachable) :
    ((w.step command).scheduler.stateAt i).lastRelease = (w.scheduler.stateAt i).lastRelease ∧
      ∀ lease, (w.scheduler.stateAt i).lease = some lease →
        ∃ flag step, ((w.step command).scheduler.stateAt i).lease =
          some { lease with preemptRequested := flag, destructiveStep := step } := by
  rcases leaves with same | leaves
  · rw [same]
    exact ⟨rfl, fun lease held => ⟨_, _, held⟩⟩
  have current : ∀ held, (w.scheduler.stateAt i).lease = some held →
      w.scheduler.leaseOf i = some held := fun held here => by
    rw [leaseOf_eq_stateAt]
    exact here
  cases reachable.touches command i with
  | kept refreshed =>
    obtain ⟨⟨flag, after⟩, release⟩ := refreshed
    refine ⟨release, fun lease held => ?_⟩
    rw [held] at after
    exact ⟨flag, _, after⟩
  | granted p flag grants here =>
    exact absurd (.inr (.inr (.inl ⟨p, here, grants⟩))) leaves
  | transferred p flag now commits answered here =>
    exact absurd (.inr (.inl ⟨p, now, commits, here, answered⟩)) leaves
  | renewed held token record renews here same before =>
    exact absurd (.inl ⟨held, token, record, current held before, renews⟩) leaves
  | opened held witness opens here before idle after release
  | closed held witness closes answered here token step before after release =>
    refine ⟨release, fun lease held' => ?_⟩
    obtain rfl := some.inj (before.symm.trans held')
    exact ⟨_, _, after⟩
  | ended held record ends here before =>
    exact absurd (.inr (.inr (.inr ⟨held, record, current held before, ends⟩))) leaves

lemma Change.ownerEpoch {scope : Scope} {a b}
    (change : Change scope a b) : b.1.ownerEpoch = a.1.ownerEpoch := by
  cases change with
  | calm calm | prepare _ calm => exact calm.ownerEpoch
  | _ => rfl

lemma Change.config {scope : Scope} {a b}
    (change : Change scope a b) : b.1.config = a.1.config := by
  cases change.queueChange with
  | fewer config | entered config => exact config

section Constants

variable {w : World} {command : Command}

lemma World.Reachable.step_ownerEpoch (reachable : w.Reachable) (legal : w.Legal command) :
    (w.step command).scheduler.ownerEpoch = w.scheduler.ownerEpoch :=
  (step_changes reachable.bounded legal).preserve
    (fun c => c.1.ownerEpoch = w.scheduler.ownerEpoch)
    (fun change same => change.ownerEpoch.trans same) rfl

lemma World.Reachable.step_config (reachable : w.Reachable) (legal : w.Legal command) :
    (w.step command).scheduler.config = w.scheduler.config :=
  (step_changes reachable.bounded legal).preserve
    (fun c => c.1.config = w.scheduler.config) (fun change same => change.config.trans same) rfl

end Constants

/-! ## Renewals and releases -/

section Recorded

variable {α : Type} {memory : InstanceState → Option (Remembered α)} {answer : α}
  {replayed : SeedScheduler → SchedulerResult (Option α)}
  {rest : SeedScheduler → Option α → SchedulerM α}

/-- An operation that first looks its call up answers a remembered one and changes nothing. -/
theorem Recorded.replays {r} (returns : ∀ s a, rest s (some a) = pure a)
    (looks : replayed s = remembered memory s requestId token connectionId)
    (recorded : Recorded memory requestId token connectionId answer s)
    (step : Steps (do let s ← get; let found ← read (replayed s); rest s found) s r t) :
    r = .ok answer ∧ t = s := by
  simp only [steps_get_bind, steps_read_bind, looks, remembered_iff.mpr recorded, reduceCtorEq,
    false_and, exists_false, false_or, ok.injEq, exists_eq_left', returns] at step
  exact steps_pure.mp step

/-- The request with another token of the instance or another connection is refused. -/
theorem Recorded.refuses {other otherConnection}
    (recorded : Recorded memory requestId token connectionId answer s)
    (here : other.instanceId = token.instanceId)
    (differs : other ≠ token ∨ otherConnection ≠ connectionId)
    (looks : replayed s = remembered memory s requestId other otherConnection) :
    Refuses (do let s ← get; let found ← read (replayed s); rest s found) s := by
  refine refuses_get_bind (refuses_read_bind fun found answered => ?_)
  simp only [looks, remembered, here, recorded.2, filter_some, decide_true, if_true, bind_ok_iff,
    failIf_ok_iff, not_not] at answered
  obtain ⟨_, -, _, rfl, _, rfl, -⟩ := answered
  simp at differs

lemma Recorded.run {w v : World} (reachable : w.Reachable)
    (keeps : ∀ {u command record}, LeavesLease token.instanceId u command → u.Reachable →
      memory (u.scheduler.stateAt token.instanceId) = some record →
      memory ((u.step command).scheduler.stateAt token.instanceId) = some record)
    (run : w.ContinuesBy (LeavesLease token.instanceId) v)
    (recorded : Recorded memory requestId token connectionId answer w.scheduler) :
    Recorded memory requestId token connectionId answer v.scheduler := by
  induction run with
  | refl => exact recorded
  | step run legal leaves ih =>
    have reached := reachable.continues run.continues
    exact ⟨by rw [reached.step_ownerEpoch legal]; exact ih.1, keeps leaves reached ih.2⟩

end Recorded

/-- A release that is remembered is answered as it was, and its request id is refused to others. -/
theorem Recorded.released {w v : World} {released} (reachable : w.Reachable)
    (run : w.ContinuesBy (LeavesLease token.instanceId) v)
    (recorded : Recorded endedLease requestId token connectionId released w.scheduler)
    (later : Nat) :
    v.Repeats (.release requestId token connectionId later) (.ok (.released released)) ∧
      ∀ other otherConnection, other.instanceId = token.instanceId →
        other ≠ token ∨ otherConnection ≠ connectionId →
        v.Refuses (.release requestId other otherConnection later) := by
  have kept := recorded.run reachable
    (fun leaves reachable recorded => by rwa [endedLease, (leaves.keeps reachable).1]) run
  exact ⟨repeats_of_replays rfl (kept.replays (fun _ _ => rfl) replayedRelease_eq),
    fun _ _ here differs =>
      refuses_of_refuses rfl (kept.refuses here differs replayedRelease_eq)⟩

/-- A renewal that succeeded has left its record, now or when it was first made. -/
theorem renew_recorded {renewed} {now : Nat}
    (step : Steps (renew requestId token connectionId now) s (.ok renewed) t) :
    Recorded renewal requestId token connectionId renewed t := by
  rcases renew_steps step with ⟨_, ⟨⟩, _⟩ | ⟨_, recorded, ⟨⟩, rfl⟩ |
    ⟨lease, _, rfl, rfl, ⟨⟩, _, epoch, _, rfl⟩
  · exact recorded
  refine ⟨epoch, ?_⟩
  rw [stateAt_setInstance, if_pos rfl]
  rfl

lemma release_recorded {released} {now : Nat}
    (step : Steps (release requestId token connectionId now) s (.ok released) t) :
    Recorded endedLease requestId token connectionId released t := by
  rcases release_steps step with ⟨_, ⟨⟩, _⟩ | ⟨_, recorded, ⟨⟩, rfl⟩ |
    ⟨state, lease, located, rfl, rfl, ⟨⟩, rfl⟩
  · exact recorded
  obtain ⟨_, passed, _⟩ := bind_ok_iff.mp located
  refine ⟨validateEpoch_ok_iff.mp passed, ?_⟩
  have written := stateAt_setInstance s lease.token.instanceId lease.token.instanceId
    { state with
      lease := none
      lastRelease := some ⟨requestId, lease.token, lease.connectionId, ⟨lease.token, .explicit⟩⟩ }
  rw [if_pos rfl] at written
  exact congrArg endedLease written

/-! ## Releases that became a transfer -/

variable {p : PreparedLeaseTransfer}

/-- A transfer is prepared for a release request at an explicit release only. -/
theorem World.Reachable.transfer_reason {w : World} (reachable : w.Reachable)
    (prepared : .transfer p ∈ w.outstanding) :
    p.releaseRequestId.isSome = true → p.reason = .explicitRelease := by
  refine reachable.along (fun v => ∀ q, Outstanding.transfer q ∈ v.outstanding →
    q.releaseRequestId.isSome = true → q.reason = .explicitRelease) ?_ ?_ p prepared
  · intro _ _ _ _ _ _ _ q held
    exact absurd held not_mem_nil
  intro v command reached held _ q waiting
  rcases mem_append.mp waiting with made | kept
  · intro asked
    rcases reached.produces made with ⟨_, _, _, _, _, ⟨⟩, _⟩ | ⟨_, _, _, _, ⟨⟩, _⟩ |
      ⟨_, _, _, ⟨⟩, _, paired⟩ | ⟨_, ⟨⟩, _, paired⟩
    · exact paired.mpr asked
    · exact paired asked
  · exact held q (diff_subset _ _ kept)

theorem commitTransfer_recorded {given} {now : Nat} {out}
    (indexed : LeasesIndexed (s, out)) (asked : p.releaseRequestId = some requestId)
    (reason : p.reason = .explicitRelease) (step : Steps (commitTransfer p now) s (.ok given) t) :
    Recorded endedLease requestId p.source.token p.source.connectionId
      ⟨p.source.token, .explicit⟩ t := by
  rcases commitTransfer_steps step with ⟨_, ⟨⟩, _⟩ | ⟨queue, _, _, held, _, rfl⟩
  refine ⟨(indexed.own _ _ held).2, ?_⟩
  have written := stateAt_setInstance s p.source.token.instanceId p.source.token.instanceId
    (transferredState (s.stateAt p.source.token.instanceId) p queue (transferRecord p))
  rw [if_pos rfl] at written
  refine (congrArg endedLease written).trans ?_
  simp [endedLease, transferredState, refreshPreemptRequested, transferRecord,
    transferReleaseReason, asked, reason]

/-! ## Queue requests -/

structure QueueEntry.Carries (entry : QueueEntry) (request : QueueLeaseRequest) : Prop where
  requestId : entry.requestId = request.requestId
  holderId : entry.holderId = request.holderId
  priority : entry.priority = request.priority
  connectionId : entry.connectionId = request.connectionId

structure LeaseEntry.Serves (lease : LeaseEntry) (request : QueueLeaseRequest) : Prop where
  requestId : lease.acquireRequestId = request.requestId
  holderId : lease.token.holderId = request.holderId
  priority : lease.priority = request.priority
  connectionId : lease.connectionId = request.connectionId

/-- No lease of the instance was acquired under the request id. -/
def Unleased (state : InstanceState) (requestId : RequestId) : Prop :=
  ∀ lease, state.lease = some lease → lease.acquireRequestId ≠ requestId

/-- Nor does an entry of its queue have it. -/
def Unasked (state : InstanceState) (requestId : RequestId) : Prop :=
  Unleased state requestId ∧ ∀ entry ∈ state.queue, entry.requestId ≠ requestId

section Lookup

variable {request : QueueLeaseRequest} {state : InstanceState} {lease : LeaseEntry}
  {entry : QueueEntry} {rest : List (InstanceId × InstanceState)}

lemma Unleased.filter (unleased : Unleased state requestId) :
    state.lease.filter (fun lease => lease.acquireRequestId = requestId) = none := by
  rw [filter_eq_none_iff]
  exact fun lease held asked => unleased lease held (of_decide_eq_true asked)

lemma replayQueueRequestIn_skip (unasked : Unasked state request.requestId) :
    replayQueueRequestIn request ((i, state) :: rest) =
      replayQueueRequestIn request rest := by
  have missing : state.queue.findFinIdx? (fun entry => entry.requestId = request.requestId) =
      none := by
    rw [findFinIdx?_eq_none_iff]
    exact fun entry waiting named => unasked.2 entry waiting (of_decide_eq_true named)
  rw [replayQueueRequestIn, unasked.1.filter]
  simp [missing]

lemma replayQueueRequestIn_append {before}
    (unasked : ∀ located ∈ before, Unasked located.2 request.requestId) :
    replayQueueRequestIn request (before ++ rest) =
      replayQueueRequestIn request rest := by
  induction before with
  | nil => rfl
  | cons head before ih =>
    obtain ⟨first, others⟩ := forall_mem_cons.mp unasked
    rw [cons_append, replayQueueRequestIn_skip first, ih others]

/-- A request id that occurs on one instance only is looked up there. -/
theorem replayQueueRequest_reaches (known : (i, s.stateAt i) ∈ s.instances.toList)
    (elsewhere : ∀ j, j ≠ i → Unasked (s.stateAt j) request.requestId) :
    ∃ rest, s.replayQueueRequest request =
      replayQueueRequestIn request ((i, s.stateAt i) :: rest) := by
  obtain ⟨before, rest, split⟩ := append_of_mem known
  refine ⟨rest, ?_⟩
  rw [replayQueueRequest, split]
  refine replayQueueRequestIn_append fun located earlier => ?_
  have distinct := s.instances.distinct_keys_toList
  rw [split, pairwise_append] at distinct
  have apart : located.1 ≠ i := by
    have compared := distinct.2.2 located earlier _ mem_cons_self
    exact fun same => compared (Std.LawfulEqCmp.compare_eq_iff_eq.mpr same)
  have found : s.instances[located.1]? = some located.2 := by
    rw [← Std.ExtTreeMap.mem_toList_iff_getElem?_eq_some, split]
    exact mem_append_left _ earlier
  rw [← stateAt_of_some found]
  exact elsewhere located.1 apart

lemma replayQueueRequestIn_waiting (unleased : Unleased state request.requestId)
    (distinct : (state.queue.map QueueEntry.requestId).Nodup)
    (small : state.queue.length ≤ maxQueueDepthPerInstanceLimit) (waiting : entry ∈ state.queue)
    (named : entry.requestId = request.requestId) :
    ∃ queued, Reports state i entry queued ∧
      replayQueueRequestIn request ((i, state) :: rest) = (do
        failIf (i ≠ request.instanceId ∨ entry.holderId ≠ request.holderId ∨
            entry.priority ≠ request.priority)
          queueRequestMismatch
        failIf (entry.connectionId ≠ request.connectionId) queueConnectionMismatch
        return some (.queued queued)) := by
  cases found : state.queue.findFinIdx? (fun entry => entry.requestId = request.requestId) with
  | none =>
    rw [findFinIdx?_eq_none_iff] at found
    exact absurd (decide_eq_true named) (found entry waiting)
  | some position =>
    have matched : state.queue[position].requestId = request.requestId :=
      of_decide_eq_true (findFinIdx?_eq_some_iff.mp found).1
    have only : state.queue[position] = entry :=
      inj_on_of_nodup_map distinct (getElem_mem _) waiting (matched.trans named.symm)
    change state.queue[position.1] = entry at only
    have here : state.queue[position.1]? = some entry := only ▸ getElem?_eq_getElem position.isLt
    have answered := queuedAtPosition_eq state i here (position.isLt.trans_le small)
    refine ⟨_, ⟨position, here, rfl⟩, ?_⟩
    rw [replayQueueRequestIn, unleased.filter]
    simp only [found, Fin.getElem_fin, only, answered]
    rfl

end Lookup

section Requests

variable {request : QueueLeaseRequest} {lease : LeaseEntry} {entry : QueueEntry}
  {gate : ClaimGate} {immediateAllowed : Bool} {now : Nat}
  {r : SchedulerResult QueueAdmissionOutcome}

lemma mem_toList_of_held (held : (s.stateAt i).lease = some lease) :
    (i, s.stateAt i) ∈ s.instances.toList := by
  rw [Std.ExtTreeMap.mem_toList_iff_getElem?_eq_some]
  cases found : s.instances[i]? with
  | none =>
    rw [stateAt, recordAt, found] at held
    cases held
  | some state => rw [stateAt_of_some found]

variable (s request) in
/-- The lookup finds what that holder asked for on the instance, at that priority and on that
connection, and compares the request with it. -/
def Finds (i : InstanceId) (holderId : HolderId)
    (priority : LeasePriority) (connectionId : ConnectionId) (decision : QueueAdmissionDecision) :
    Prop :=
  s.replayQueueRequest request = (do
    failIf (i ≠ request.instanceId ∨ holderId ≠ request.holderId ∨ priority ≠ request.priority)
      queueRequestMismatch
    failIf (connectionId ≠ request.connectionId) queueConnectionMismatch
    return some decision)

lemma finds_waiting (formed : QueuesWellFormed s) (bounded : Bounded s)
    (waiting : entry ∈ queues s i) (named : entry.requestId = request.requestId)
    (unleased : ∀ j, Unleased (s.stateAt j) request.requestId) :
    ∃ queued, Reports (s.stateAt i) i entry queued ∧
      Finds s request i entry.holderId entry.priority entry.connectionId (.queued queued) := by
  have elsewhere : ∀ j, j ≠ i → Unasked (s.stateAt j) request.requestId := fun j apart =>
    ⟨unleased j, fun other here same => apart
      (formed.requests.across j i other entry here waiting (same.trans named.symm))⟩
  obtain ⟨rest, reached⟩ := replayQueueRequest_reaches (exists_of_mem_queue waiting) elsewhere
  obtain ⟨queued, reports, looked⟩ := @replayQueueRequestIn_waiting i request (s.stateAt i) entry
    rest (unleased i) (formed.requests.within i)
      ((bounded.depth i).trans bounded.limit) waiting named
  exact ⟨queued, reports, reached.trans looked⟩

lemma finds_granted (held : (s.stateAt i).lease = some lease)
    (asked : lease.acquireRequestId = request.requestId)
    (elsewhere : ∀ j, j ≠ i → Unasked (s.stateAt j) request.requestId) :
    Finds s request i lease.token.holderId lease.priority lease.connectionId
      (.lease (.existing lease.token)) := by
  obtain ⟨rest, reached⟩ := replayQueueRequest_reaches (mem_toList_of_held held) elsewhere
  refine reached.trans ?_
  rw [replayQueueRequestIn, held, filter_some, if_pos (decide_eq_true asked)]

variable (s request) in
/-- The queue timeout of the request is one the scheduler takes. -/
def Accepts : Prop :=
  request.timeoutMs ≠ 0 ∧ request.timeoutMs ≤ s.config.maximumQueueTimeoutMs

/-- A request that is found is answered with what was found. -/
theorem Finds.replays {decision} (accepts : Accepts s request)
    (finds : Finds s request request.instanceId request.holderId request.priority
      request.connectionId decision) (stands : replayExpired decision now = false)
    (step : Steps (requestQueuedGated request gate immediateAllowed now) s r t) :
    r = .ok ⟨decision, []⟩ ∧ t = s := by
  have taken : ¬ (request.timeoutMs = 0 ∨ request.timeoutMs > s.config.maximumQueueTimeoutMs) := by
    obtain ⟨positive, bounded⟩ := accepts
    omega
  have found : s.replayQueueRequest request = .ok (some decision) := by
    rw [finds]
    simp [failIf, bind, Except.bind, pure, Except.pure]
  simp only [requestQueuedGated, steps_get_bind, steps_failIf_bind, steps_read_bind, found, taken,
    reduceCtorEq, false_and, exists_false, false_or, not_false_eq_true, true_and,
    ok.injEq] at step
  obtain ⟨_, rfl, step⟩ := step
  simp only [stands, Bool.false_eq_true, if_false] at step
  exact steps_pure.mp step

/-- Its request id is refused to every other request. -/
theorem Finds.refuses {holderId priority decision}
    (finds : Finds s request i holderId priority connectionId decision)
    (differs : i ≠ request.instanceId ∨ holderId ≠ request.holderId ∨
      priority ≠ request.priority ∨ connectionId ≠ request.connectionId) :
    Refuses (requestQueuedGated request gate immediateAllowed now) s := by
  refine refuses_get_bind (refuses_failIf_bind fun _ => refuses_read_bind fun decision found => ?_)
  rw [finds] at found
  simp only [bind_ok_iff, failIf_ok_iff, not_or, not_not] at found
  obtain ⟨_, ⟨rfl, rfl, rfl⟩, _, rfl, _⟩ := found
  simp at differs

/-- A replay that reports an entry reports one that waits for the request. -/
theorem replayQueueRequestIn_queued {queued located}
    (answered : replayQueueRequestIn request located = .ok (some (.queued queued))) :
    ∃ state, (request.instanceId, state) ∈ located ∧ ∃ entry ∈ state.queue,
      Reports state request.instanceId entry queued ∧ entry.Carries request := by
  induction located with
  | nil => cases answered
  | cons head rest ih =>
    obtain ⟨candidate, state⟩ := head
    unfold replayQueueRequestIn at answered
    split at answered
    · simp [bind_ok_iff, pure, Except.pure] at answered
    split at answered
    · rename_i position found
      simp only [bind_ok_iff, failIf_ok_iff, not_or, not_not, pure_ok_iff, some.injEq,
        QueueAdmissionDecision.queued.injEq] at answered
      obtain ⟨_, ⟨rfl, holder, priority⟩, _, connection, _, described, rfl⟩ := answered
      obtain ⟨entry, listed, reports⟩ := queuedAtPosition_ok described
      have named : state.queue[position].requestId = request.requestId :=
        of_decide_eq_true (findFinIdx?_eq_some_iff.mp found).1
      have reported : Reports state _ entry _ := ⟨position, listed, reports⟩
      obtain ⟨_, rfl⟩ := List.getElem?_eq_some_iff.mp listed
      exact ⟨state, mem_cons_self, _, getElem_mem _, reported, named, holder, priority,
        connection⟩
    · obtain ⟨state, listed, rest⟩ := ih answered
      exact ⟨state, mem_cons_of_mem _ listed, rest⟩

/-- A request that is queued waits as an entry of its own. -/
theorem requestQueuedGated_queued {queued expired} (bounded : Bounded s)
    (step : Steps (requestQueuedGated request gate immediateAllowed now) s
      (.ok ⟨.queued queued, expired⟩) t) :
    ∃ entry ∈ queues t request.instanceId,
      Reports (t.stateAt request.instanceId) request.instanceId entry queued ∧
        entry.Carries request := by
  rcases requestQueuedGated_steps bounded step with ⟨_, ⟨⟩, _⟩ | ⟨⟨⟩, _⟩ | ⟨_, ⟨⟩, rfl, found⟩ |
    ⟨u, _, q, answer, _, _, _, admits⟩
  · obtain ⟨state, listed, entry, waiting, found⟩ := replayQueueRequestIn_queued found
    rw [Std.ExtTreeMap.mem_toList_iff_getElem?_eq_some] at listed
    rw [queues, stateAt_of_some listed]
    exact ⟨entry, waiting, found⟩
  rcases admits with ⟨_, rfl, _⟩ | ⟨q, rfl, _⟩ | ⟨rfl, _⟩ | ⟨q, deadline, rfl, _, _, inserts⟩
  · cases answer
  · cases q <;> cases answer
  · cases answer
  cases q with
  | error e => cases answer
  | ok reported =>
    obtain ⟨⟨⟩, _⟩ := QueueAdmissionOutcome.mk.inj (ok.inj answer)
    have waits := (inserts.mem_queues request.instanceId _).mpr (.inr ⟨rfl, rfl⟩)
    rcases inserts with ⟨_, ⟨⟩, _⟩ | ⟨_, ⟨⟩, reports, _⟩
    exact ⟨_, waits, reports, rfl, rfl, rfl, rfl⟩

end Requests

/-! ## Repeated calls over runs -/

lemma Command.Requests.exec_eq {command : Command} {request} {now : Nat}
    (requests : command.Requests request now) : ∃ gate immediateAllowed,
      exec command =
        .admitted <$> SchedulerM.requestQueuedGated request gate immediateAllowed now := by
  rcases requests with rfl | ⟨gate, immediateAllowed, rfl⟩
  · exact ⟨_, _, rfl⟩
  · exact ⟨_, _, rfl⟩

/-- The request was made and answered. -/
def Asked (w : World) (request : QueueLeaseRequest) : Prop :=
  ∃ command now outcome, command.Requests request now ∧
    (command, .ok (.admitted outcome)) ∈ w.history

lemma Command.Requests.accepts {command : Command} {request} {now : Nat}
    {w : World} {outcome} (requests : command.Requests request now)
    (answered : w.answer command = .ok (.admitted outcome)) : Accepts w.scheduler request := by
  obtain ⟨gate, immediateAllowed, runs⟩ := requests.exec_eq
  obtain ⟨given, -, step⟩ := steps_of_answer runs answered
  simp only [SchedulerM.requestQueuedGated, steps_get_bind, steps_failIf_bind, reduceCtorEq,
    false_and, and_false, false_or, not_or, not_lt] at step
  exact step.1

lemma World.Reachable.accepts {w : World} (reachable : w.Reachable) {request}
    (asked : Asked w request) : Accepts w.scheduler request := by
  refine reachable.along (fun v => ∀ request, Asked v request → Accepts v.scheduler request)
    ?_ ?_ request asked
  · rintro _ _ _ _ _ _ _ request ⟨_, _, _, _, listed⟩
    exact absurd listed not_mem_nil
  rintro v command reached held legal request ⟨asking, now, outcome, requests, listed⟩
  have config := reached.step_config legal
  unfold Accepts
  rw [config]
  rcases mem_cons.mp listed with new | older
  · obtain ⟨rfl, answered⟩ := Prod.mk.inj new
    exact requests.accepts answered.symm
  · exact held request ⟨asking, now, outcome, requests, older⟩

lemma World.Reachable.continues_accepts {w v : World} (reachable : w.Reachable)
    (run : w.Continues v) {request} (accepts : Accepts w.scheduler request) :
    Accepts v.scheduler request := by
  induction run with
  | refl => exact accepts
  | step run legal ih =>
    unfold Accepts
    rw [(reachable.continues run).step_config legal]
    exact ih

/-- A queue request changes nothing that was prepared, so it can be made at any time. -/
theorem Command.Requests.legal {command : Command} {request} {now : Nat}
    (requests : command.Requests request now) (w : World) : w.Legal command := by
  rcases requests with rfl | ⟨_, _, rfl⟩
  · exact fun _ held => absurd held not_mem_nil
  · exact fun _ held => absurd held not_mem_nil

/-- The two requests differ in what they ask for. -/
def QueueLeaseRequest.Differs (other request : QueueLeaseRequest) : Prop :=
  other.instanceId ≠ request.instanceId ∨ other.holderId ≠ request.holderId ∨
    other.priority ≠ request.priority ∨ other.connectionId ≠ request.connectionId

lemma QueueLeaseRequest.Differs.symm {other request : QueueLeaseRequest}
    (differs : other.Differs request) : request.Differs other :=
  differs.imp Ne.symm fun rest => rest.imp Ne.symm fun rest => rest.imp Ne.symm Ne.symm

/-- A lease that serves a request still does when its lease is left alone, with the same token. -/
theorem serves_run {w v : World} {request lease} (reachable : w.Reachable)
    (run : w.ContinuesBy (LeavesLease request.instanceId) v)
    (held : (w.scheduler.stateAt request.instanceId).lease = some lease)
    (serves : lease.Serves request) :
    ∃ after, (v.scheduler.stateAt request.instanceId).lease = some after ∧
      after.Serves request ∧ after.token = lease.token := by
  induction run with
  | refl => exact ⟨lease, held, serves, rfl⟩
  | step run legal leaves ih =>
    obtain ⟨after, here, still, same⟩ := ih
    obtain ⟨flag, step, next⟩ := (leaves.keeps (reachable.continues run.continues)).2 after here
    exact ⟨_, next, ⟨still.requestId, still.holderId, still.priority, still.connectionId⟩, same⟩

/-- How the calls of a world are answered when they are made again. -/
structure Replays (w : World) : Prop where
  /-- A renewal, while the lease of its instance is left alone. -/
  renew : ∀ requestId token connectionId now renewed,
    w.answer (.renew requestId token connectionId now) = .ok (.token renewed) →
    ∀ v, (w.step (.renew requestId token connectionId now)).ContinuesBy
        (LeavesLease token.instanceId) v →
      ∀ later, v.Repeats (.renew requestId token connectionId later) (.ok (.token renewed)) ∧
        ∀ other otherConnection, other.instanceId = token.instanceId →
          other ≠ token ∨ otherConnection ≠ connectionId →
          v.Refuses (.renew requestId other otherConnection later)
  /-- A release, while nothing is granted on its instance. -/
  release : ∀ requestId token connectionId now released,
    w.answer (.release requestId token connectionId now) = .ok (.released released) →
    ∀ v, (w.step (.release requestId token connectionId now)).ContinuesBy
        (LeavesLease token.instanceId) v →
      ∀ later, v.Repeats (.release requestId token connectionId later)
          (.ok (.released released)) ∧
        ∀ other otherConnection, other.instanceId = token.instanceId →
          other ≠ token ∨ otherConnection ≠ connectionId →
          v.Refuses (.release requestId other otherConnection later)
  /-- A release that a transfer realised, while the lease of the receiver is left alone. -/
  transferred : ∀ p now requestId, w.Legal (.commitTransfer p now) →
    w.answer (.commitTransfer p now) = .ok (.token p.toToken) →
    p.releaseRequestId = some requestId →
    ∀ v, (w.step (.commitTransfer p now)).ContinuesBy (LeavesLease p.source.token.instanceId) v →
      ∀ later, v.Repeats (.release requestId p.source.token p.source.connectionId later)
          (.ok (.released ⟨p.source.token, .explicit⟩)) ∧
        ∀ other otherConnection, other.instanceId = p.source.token.instanceId →
          other ≠ p.source.token ∨ otherConnection ≠ p.source.connectionId →
          v.Refuses (.release requestId other otherConnection later)
  /-- A queue request whose entry still waits, while no lease was acquired under its id. -/
  waiting : ∀ request command now queued expired, command.Requests request now →
    w.answer command = .ok (.admitted ⟨.queued queued, expired⟩) →
    ∃ entry ∈ queues (w.step command).scheduler request.instanceId,
      Reports ((w.step command).scheduler.stateAt request.instanceId) request.instanceId entry
        queued ∧
      ∀ v, (w.step command).Continues v → entry ∈ queues v.scheduler request.instanceId →
        (∀ j, Unleased (v.scheduler.stateAt j) request.requestId) → ∀ again later,
        (again.Requests request later → later < entry.deadlineMonotonicMs →
          ∃ queued, Reports (v.scheduler.stateAt request.instanceId) request.instanceId
            entry queued ∧
            v.Repeats again (.ok (.admitted ⟨.queued queued, []⟩))) ∧
        ∀ other : QueueLeaseRequest, other.requestId = request.requestId →
          other.Differs request → again.Requests other later → v.Refuses again
  /-- A queue request that was granted, while its lease is left alone and its id is used on no
  other instance. -/
  granted : ∀ request lease, Asked w request →
    (w.scheduler.stateAt request.instanceId).lease = some lease → lease.Serves request →
    ∀ v, w.ContinuesBy (LeavesLease request.instanceId) v →
      (∀ j, j ≠ request.instanceId → Unasked (v.scheduler.stateAt j) request.requestId) →
      ∀ again later,
      (again.Requests request later →
        v.Repeats again (.ok (.admitted ⟨.lease (.existing lease.token), []⟩))) ∧
      ∀ other : QueueLeaseRequest, other.requestId = request.requestId →
        other.Differs request → again.Requests other later → v.Refuses again

/-- Repeated calls are answered as they were and change nothing, and their request ids are
refused to others. -/
theorem replay_idempotent (w : World) (reachable : w.Reachable) : Replays w where
  renew requestId token connectionId now renewed answered v run later := by
    have legal : w.Legal (.renew requestId token connectionId now) :=
      fun _ held => absurd held not_mem_nil
    obtain ⟨_, ⟨⟩, step⟩ := steps_of_answer rfl answered
    have recorded := (renew_recorded step).run (reachable.step legal)
      (fun leaves reachable recorded => by
        obtain ⟨lease, held, kept⟩ := bind_eq_some_iff.mp recorded
        obtain ⟨flag, step, after⟩ := (leaves.keeps reachable).2 lease held
        rw [renewal, after]
        exact kept) run
    exact ⟨repeats_of_replays rfl (recorded.replays (fun _ _ => rfl) replayedRenew_eq),
      fun _ _ here differs =>
        refuses_of_refuses rfl (recorded.refuses here differs replayedRenew_eq)⟩
  release requestId token connectionId now released answered v run later := by
    have legal : w.Legal (.release requestId token connectionId now) :=
      fun _ held => absurd held not_mem_nil
    obtain ⟨_, ⟨⟩, step⟩ := steps_of_answer rfl answered
    exact (release_recorded step).released (reachable.step legal) run later
  transferred p now requestId legal answered asked v run later := by
    obtain ⟨given, -, step⟩ := steps_of_answer rfl answered
    have reason := reachable.transfer_reason (legal _ (mem_singleton_self _))
      (isSome_iff_exists.mpr ⟨requestId, asked⟩)
    exact (commitTransfer_recorded reachable.leasesIndexed asked reason step).released
      (reachable.step legal) run later
  waiting request command now queued expired requests answered := by
    have reached := reachable.step (requests.legal w)
    obtain ⟨gate, immediateAllowed, runs⟩ := requests.exec_eq
    obtain ⟨_, ⟨⟩, step⟩ := steps_of_answer runs answered
    obtain ⟨entry, waits, reports, carries⟩ := requestQueuedGated_queued reachable.bounded step
    refine ⟨entry, waits, reports, fun v run still unleased again later => ⟨?_, ?_⟩⟩
    · intro repeated timely
      have accepts : Accepts v.scheduler request := by
        refine reached.continues_accepts run ?_
        unfold Accepts
        rw [reachable.step_config (requests.legal w)]
        exact requests.accepts answered
      obtain ⟨gate, immediateAllowed, runs⟩ := repeated.exec_eq
      obtain ⟨queued, reports, finds⟩ := finds_waiting (reached.continues run).queuesWellFormed
        (reached.continues run).bounded still carries.requestId unleased
      rw [carries.holderId, carries.priority, carries.connectionId] at finds
      have stands : replayExpired (.queued queued) later = false := by
        obtain ⟨_, -, rfl⟩ := reports
        exact decide_eq_false (not_le.mpr timely)
      exact ⟨queued, reports, repeats_of_replays runs (finds.replays accepts stands)⟩
    · intro other named differs repeated
      obtain ⟨gate, immediateAllowed, runs⟩ := repeated.exec_eq
      obtain ⟨queued, -, finds⟩ := finds_waiting (reached.continues run).queuesWellFormed
        (reached.continues run).bounded still (carries.requestId.trans named.symm)
        (by rw [named]; exact unleased)
      rw [carries.holderId, carries.priority, carries.connectionId] at finds
      exact refuses_of_refuses runs (finds.refuses differs.symm)
  granted request lease asked held serves v run elsewhere again later := by
    obtain ⟨after, here, still, sameToken⟩ := serves_run reachable run held serves
    constructor
    · intro repeated
      obtain ⟨gate, immediateAllowed, runs⟩ := repeated.exec_eq
      have finds := finds_granted here still.requestId elsewhere
      rw [still.holderId, still.priority, still.connectionId, sameToken] at finds
      have accepts := reachable.continues_accepts run.continues (reachable.accepts asked)
      exact repeats_of_replays runs (finds.replays accepts rfl)
    · intro other named differs repeated
      obtain ⟨gate, immediateAllowed, runs⟩ := repeated.exec_eq
      have finds := finds_granted here (still.requestId.trans named.symm)
        (by rw [named]; exact elsewhere)
      rw [still.holderId, still.priority, still.connectionId] at finds
      exact refuses_of_refuses runs (finds.refuses differs.symm)

namespace Sample

def renewedToken : LeaseToken := { Sample.token with expiresAtMonotonicMs := 120010 }

/-- The holder takes a second instance. -/
def acquireSecond : Command := .acquire ⟨5⟩ ⟨2⟩ ⟨1⟩ connection 0

def secondToken : LeaseToken :=
  { Sample.token with leaseId := ⟨3 * 2 ^ 64 + 2⟩, instanceId := ⟨2⟩ }

/-- A client that queues behind the one of high priority. -/
def patient : QueueLeaseRequest := ⟨⟨6⟩, instanceId, ⟨3⟩, otherConnection, .normal, 1000⟩

/-- The lease is released after its renewal. -/
def ended : List Command :=
  [Sample.acquire, Sample.renew, .release ⟨3⟩ renewedToken connection 20]

/-- The holder has a lease of another instance when it renews. -/
def shared : List Command := [Sample.acquire, acquireSecond, Sample.renew]

/-- The client ahead leaves the queue. -/
def moved : List Command :=
  [Sample.acquire, queueHigh, .requestQueued patient 6, .cancelQueued ⟨2⟩ otherConnection]

/-- The request id of a waiting client acquires a lease elsewhere. -/
def reused : List Command :=
  [Sample.acquire, .requestQueued patient 6, .acquire ⟨6⟩ ⟨0⟩ ⟨3⟩ otherConnection 7]

def position (answer : SchedulerResult Response) : Option Nat :=
  match answer with
  | .ok (.admitted ⟨.queued queued, _⟩) => some queued.position
  | _ => none

end Sample

open Sample

lemma queueHigh_leaves (w : World) : LeavesLease instanceId w queueHigh := by
  refine .inr ?_
  simp [Rewrites, Command.Renews, Command.Grants, Command.Ends, queueHigh]

/-- A renewal made again, after another client has queued, is answered with the token it gave. -/
theorem replay_idempotent_renewed :
    (world.run [Sample.acquire]).answer Sample.renew = .ok (.token renewedToken) ∧
      queues (world.run [Sample.acquire, Sample.renew, queueHigh]).scheduler instanceId ≠ [] ∧
      (world.run [Sample.acquire, Sample.renew, queueHigh]).Repeats
        (.renew ⟨9⟩ Sample.token connection 50) (.ok (.token renewedToken)) := by
  have answered : (world.run [Sample.acquire]).answer Sample.renew =
      .ok (.token renewedToken) := by decide +kernel
  have run : ((world.run [Sample.acquire]).step Sample.renew).ContinuesBy
      (LeavesLease Sample.token.instanceId)
      (world.run [Sample.acquire, Sample.renew, queueHigh]) :=
    .step .refl (fun _ held => absurd held not_mem_nil) (queueHigh_leaves _)
  exact ⟨answered, by decide +kernel, ((replay_idempotent (world.run [Sample.acquire])
    (@reachable [Sample.acquire] (by decide +kernel))).renew ⟨9⟩ Sample.token
    connection 10 renewedToken answered _ run 50).1⟩

/-- Without the conditions the calls differ: the lease was released after its renewal, the request
id of the renewal comes with the token of another instance, a client has left the queue, or the
request id has acquired a lease elsewhere. -/
theorem replay_differs :
    ((world.run [Sample.acquire]).answer Sample.renew = .ok (.token renewedToken) ∧
      (world.run ended).Reachable ∧ (world.run ended).answer Sample.renew = .error .leaseMismatch) ∧
    ((world.run shared).Reachable ∧
      (world.run shared).answer (.renew ⟨9⟩ secondToken connection 20) =
        .ok (.token { secondToken with expiresAtMonotonicMs := 120020 })) ∧
    (Sample.position ((world.run [Sample.acquire, queueHigh]).answer
        (.requestQueued patient 6)) = some 2 ∧
      (world.run moved).Reachable ∧
      Sample.position ((world.run moved).answer (.requestQueued patient 7)) = some 1) ∧
    (world.run reused).Reachable ∧
      (world.run reused).answer (.requestQueued patient 8) = .error .queueRequestMismatch :=
  ⟨⟨by decide +kernel, reachable (by decide +kernel), by decide +kernel⟩,
    ⟨reachable (by decide +kernel), by decide +kernel⟩,
    ⟨by decide +kernel, reachable (by decide +kernel), by decide +kernel⟩,
    reachable (by decide +kernel), by decide +kernel⟩

end Scheduler
