import ActingCommand.Scheduler.Queue
import ActingCommand.Scheduler.Time

/-!
# Conservation of the queues

An entry leaves a queue only through a call that names it, and a call that fails leaves the
queues, the leases and the index as they were. Only a queue request writes before it can still
fail: it first takes the expired entries of its instance out.
-/

namespace Scheduler

open Machine Call SchedulerM List Option SeedScheduler InstanceState

variable {s t u : SeedScheduler} {now : Nat}

/-! ## Calls that leave the queues alone -/

/-- The queues, the leases and the index are as they were. -/
structure Kept (s t : SeedScheduler) : Prop where
  queues : ∀ i, queues t i = queues s i
  leases : ∀ i, t.leaseOf i = s.leaseOf i
  leaseLocations : t.leaseLocations = s.leaseLocations

lemma Kept.refl (s : SeedScheduler) : Kept s s := ⟨fun _ => rfl, fun _ => rfl, rfl⟩

lemma Calm.kept (calm : Calm s t) : Kept s t where
  queues i := calm.queue i
  leases i := by
    rw [leaseOf_eq_stateAt, calm.lease i, leaseOf_eq_stateAt]
  leaseLocations := calm.leaseLocations

variable {i : InstanceId} {state : InstanceState}

/-- One record may be rewritten as long as its queue stays. -/
theorem queues_write (written : t.instances = s.instances.insert i state)
    (same : state.queue = (s.stateAt i).queue) (j : InstanceId) : queues t j = queues s j := by
  rw [(writes_insert s i state).queues written j]
  split
  · rename_i here
    subst j
    exact same
  · rfl

/-- Every entry that left is accounted for, and a failure left everything as it was. -/
structure Conserves (command : Command) (s : SeedScheduler) (r : SchedulerResult Response)
    (t : SeedScheduler) : Prop where
  departs : Departs s t (accounted command r)
  atomic : ∀ e, r = .error e → e ≠ .queueExpired → Kept s t

variable {command : Command} {r : SchedulerResult Response}

lemma Kept.conserves (kept : Kept s t) (none : accounted command r = []) :
    Conserves command s r t where
  departs := none ▸ departs_none kept.queues
  atomic _ _ _ := kept

/-- A call that answered took out what it accounts for. -/
theorem conserves_ok {response names} (departs : Departs s t names)
    (named : accounted command (.ok response) = names) :
    Conserves command s (.ok response) t where
  departs := named ▸ departs
  atomic e failed := by cases failed

/-! ## Entries that leave with a lease -/

variable {queue : List QueueEntry}

/-- A request that waits at some position is found there by an index search. -/
theorem found_at {left chosen}
    (after : (queue.findIdx? chosen).map (fun position => queue.eraseIdx position) = some left) :
    ∃ position entry, queue[position]? = some entry ∧ chosen entry = true ∧
      left = queue.eraseIdx position := by
  obtain ⟨position, found, rfl⟩ := map_eq_some_iff.mp after
  obtain ⟨inside, matched, _⟩ := findIdx?_eq_some_iff_getElem.mp found
  exact ⟨position, _, getElem?_eq_getElem inside, matched, rfl⟩

lemma grant_departs {p} (distinct : Keyed.Distinct QueueEntry.requestId (queues s))
    (after : queueAfterGrant p (s.stateAt i).queue = some queue)
    (written : t.instances = s.instances.insert i state) (left : state.queue = queue) :
    Departs s t (if p.fromQueue then [p.acquireRequestId] else []) := by
  unfold queueAfterGrant at after
  split at after
  · rename_i queued
    obtain ⟨position, entry, found, matched, rfl⟩ := found_at after
    rw [if_pos queued, ← of_decide_eq_true matched]
    exact departs_erase distinct found written left
  · rename_i direct
    rw [if_neg direct]
    exact departs_none (queues_write written (left.trans (some.inj after).symm))

lemma transfer_departs {p} (distinct : Keyed.Distinct QueueEntry.requestId (queues s))
    (after : queueAfterTransfer p (s.stateAt i).queue = some queue)
    (written : t.instances = s.instances.insert i state) (left : state.queue = queue) :
    Departs s t (if p.handOff then [] else [p.queued.requestId]) := by
  unfold queueAfterTransfer at after
  split at after
  · rename_i handOff
    rw [if_pos handOff]
    split at after
    · cases after
    · exact departs_none (queues_write written (left.trans (some.inj after).symm))
  · rename_i queued
    obtain ⟨position, entry, found, matched, rfl⟩ := found_at after
    rw [if_neg queued, ← of_decide_eq_true matched]
    exact departs_erase distinct found written left

/-! ## Entries that join -/

lemma Inserts.mem_queues {entry queued} (inserts : Inserts i entry s (.ok queued) t)
    (j : InstanceId) (other : QueueEntry) :
    other ∈ queues t j ↔ other ∈ queues s j ∨
      i = j ∧ other = { entry with arrivalSequence := s.nextArrivalSequence } := by
  rcases inserts with ⟨_, ⟨⟩, _⟩ | ⟨_, ⟨⟩, _, _, rfl⟩
  rw [(writes_insert s i _).queues rfl j]
  split
  · rename_i here
    subst j
    exact (sortQueue_perm _).mem_iff.trans (by simp [queues])
  · rename_i there
    simp [there]

/-! ## Any command -/

/-- The request of a call that may queue a client, with its instant. -/
def Command.admission : Command → Option (QueueLeaseRequest × Nat)
  | .requestQueued request now | .requestQueuedGated request _ _ now => some (request, now)
  | _ => none

/-- Any command but a queue request conserves the queues. -/
theorem exec_conserves (bounded : Bounded s) (formed : QueuesWellFormed s)
    (ordinary : command.admission = none) (ran : Steps (exec command) s r t) :
    Conserves command s r t := by
  cases exec_ran bounded ran with
  | failed e answer same names =>
    subst same
    exact (Kept.refl _).conserves names
  | settled calm _ names => exact calm.kept.conserves names
  | granted u p queue now _ grants calm _ names _ _ _ after written =>
    have same : queues u = queues s := funext calm.queue
    have departs : Departs u t _ := grant_departs (same ▸ formed.requests) after
      (congrArg instances written) rfl
    rw [Departs, same] at departs
    exact grants.1 ▸ conserves_ok departs (grants.1 ▸ names)
  | transferred p queue now commits answer _ _ after written =>
    subst commits answer written
    exact conserves_ok (transfer_departs formed.requests after rfl rfl) rfl
  | renewed lease token record renews becomes =>
    obtain ⟨_, _, _, rfl⟩ := becomes
    obtain ⟨rfl, ⟨_, _, rfl, _⟩ | ⟨_, _, rfl, _⟩⟩ := renews
    all_goals exact conserves_ok (departs_none (queues_write rfl rfl)) rfl
  | opened lease witness opens _ _ _ written =>
    subst written
    obtain ⟨rfl, _, _, _, rfl | rfl⟩ := opens
    all_goals exact conserves_ok (departs_none (queues_write rfl rfl)) rfl
  | closed lease witness closes answer _ _ written =>
    subst closes answer written
    exact conserves_ok (departs_none (queues_write rfl rfl)) rfl
  | ended lease record ends _ names _ written =>
    subst written
    refine ⟨names ▸ departs_none (queues_write rfl rfl), fun e failed => ?_⟩
    rcases ends with ⟨_, _, _, rfl, _⟩ | ⟨_, ⟨_, rfl⟩, _⟩
    all_goals cases failed
  | dequeued _ _ _ expired departs =>
    exact ⟨departs formed.requests, fun e failed other => absurd (expired e failed) other⟩
  | enqueued claim now q enqueues answer _ inserts =>
    subst enqueues answer
    cases q with
    | error e =>
      obtain ⟨_, _, calm, _⟩ | ⟨_, ⟨⟩, _⟩ := inserts
      exact calm.kept.conserves rfl
    | ok queued =>
      exact conserves_ok (Keyed.Departed.none fun j other waiting =>
        (inserts.mem_queues j other).mpr (.inl waiting)) rfl
  | requested request gate now q requests =>
    rcases requests with rfl | ⟨_, _, rfl⟩ <;> cases ordinary

/-! ## Queue requests -/

theorem ClaimGate.not_holds_client (gate : ClaimGate) : gate.holds .clientLease = false := by
  cases gate with
  | «open» => rfl
  | routineHeld => rfl
  | silenced isRoutineHeld autostart => cases isRoutineHeld <;> cases autostart <;> rfl

variable {request : QueueLeaseRequest} {gate : ClaimGate}

/-- A request that waits nowhere fails fatally, or finds its instance cooling down or its queue
full. -/
theorem Admits.failed {e} (admits : Admits s request gate now (.error e) t) :
    Calm s t ∧ (e.isFatal = true ∨ e ≠ .queueExpired ∧
      (now < (s.stateAt request.instanceId).cooldownUntilMonotonicMs ∨
        s.config.maxQueueDepthPerInstance ≤ (queues s request.instanceId).length)) := by
  rcases admits with ⟨_, ⟨⟩, calm, hot⟩ | ⟨q, failed, calm, free, cooled, first, acquired⟩ |
    ⟨⟨⟩, calm⟩ | ⟨q, _, failed, _, _, inserts⟩
  · exact ⟨calm, .inr ⟨by simp, .inl hot⟩⟩
  · -- Nobody is ahead, the instance is free and no gate holds a client.
    refine ⟨calm, .inl ?_⟩
    obtain rfl : q = .error e := by cases q <;> cases failed; rfl
    rcases acquired with ⟨_, _, hot⟩ | ⟨_, _, _, held, _⟩ | ⟨_, ⟨⟩, _⟩ | ⟨_, _, _, ahead⟩ |
      ⟨_, _, holds, _⟩ | ⟨_, ⟨⟩, _, fatal, _⟩ | ⟨_, ⟨⟩, _⟩
    · exact absurd cooled (not_le.mpr hot)
    · exact absurd (held.symm.trans free) (by simp)
    · exact absurd (ahead.symm.trans first) (by simp)
    · exact absurd (holds.symm.trans (ClaimGate.not_holds_client gate)) (by simp)
    · exact fatal
  · exact ⟨calm, .inl rfl⟩
  · obtain rfl : q = .error e := by cases q <;> cases failed; rfl
    rcases inserts with ⟨_, ⟨⟩, calm, rfl | ⟨rfl, full⟩⟩ | ⟨_, ⟨⟩, _⟩
    · exact ⟨calm, .inl rfl⟩
    · exact ⟨calm, .inr ⟨by simp, .inr full⟩⟩

/-- An admitted request takes nobody's place. -/
theorem Admits.joins {decision}
    (admits : Admits s request gate now (.ok decision) t) (j : InstanceId) (other : QueueEntry)
    (apart : other.requestId ≠ request.requestId) : other ∈ queues t j ↔ other ∈ queues s j := by
  rcases admits with ⟨_, ⟨⟩, _⟩ | ⟨_, _, calm, _⟩ | ⟨⟨⟩, _⟩ | ⟨q, _, answered, _, _, inserts⟩
  · rw [calm.kept.queues j]
  obtain ⟨queued, rfl⟩ : ∃ queued, q = .ok queued := by
    cases q <;> cases answered
    exact ⟨_, rfl⟩
  rw [inserts.mem_queues j other]
  refine or_iff_left ?_
  rintro ⟨_, rfl⟩
  exact apart rfl

lemma FlagAgrees.refresh (agrees : FlagAgrees state) : refreshPreemptRequested state = state := by
  unfold refreshPreemptRequested
  cases held : state.lease with
  | none => rw [map_none, ← held]
  | some lease =>
    rw [map_some, ← agrees lease held, ← held]

/-- Only the expired entries of one instance are gone, and its lease's flag follows. -/
structure SweptOnly (instanceId : InstanceId) (now : Nat) (s t : SeedScheduler) : Prop where
  remaining : ∀ i, queues t i = if i = instanceId then
    (queues s i).filter fun entry => now < entry.deadlineMonotonicMs else queues s i
  leases : ∀ i, t.leaseOf i =
    (refreshPreemptRequested { s.stateAt i with queue := queues t i }).lease
  leaseLocations : t.leaseLocations = s.leaseLocations

/-- What a sweep of the expired entries of one instance leaves, whatever calm call follows. -/
theorem takeExpiredForInstance_swept {r} (bounded : Bounded s)
    (flags : FlagsAgree s) (step : Steps (takeExpiredForInstance i now) s r t) (calm : Calm t u) :
    SweptOnly i now s u := by
  obtain ⟨removed, m, _, rfl, writes, _⟩ := sweepInstance_steps bounded step
  have expired : ∀ entry : QueueEntry, (!decide (entry.deadlineMonotonicMs ≤ now)) =
      decide (now < entry.deadlineMonotonicMs) := by
    intro entry
    rw [← decide_not, decide_eq_decide]
    exact not_le
  have queuesAfter : ∀ j, queues u j = if j = i then
      (queues s j).filter fun entry => now < entry.deadlineMonotonicMs else queues s j := by
    intro j
    rw [calm.kept.queues j, writes.queues rfl j]
    by_cases same : i = j
    · subst j
      rw [if_pos rfl, if_pos rfl]
      exact filter_congr fun entry _ => expired entry
    · rw [if_neg same, if_neg (Ne.symm same)]
  refine ⟨queuesAfter, fun j => ?_, calm.leaseLocations⟩
  have before : stateAt { s with instances := m } j = _ := writes j
  rw [calm.kept.leases j, leaseOf_eq_stateAt, before, queuesAfter j]
  by_cases same : i = j
  · subst j
    rw [if_pos rfl, if_pos rfl]
    have filtered := filter_congr (l := queues s i) fun entry _ => expired entry
    exact congrArg (fun queue => (refreshPreemptRequested
      { s.stateAt i with queue := queue }).lease) filtered
  · rw [if_neg same, if_neg (Ne.symm same)]
    have unchanged := FlagAgrees.refresh (flags j)
    exact (congrArg lease unchanged).symm

/-- A sweep that finds nothing expired changes nothing. -/
theorem SweptOnly.kept (swept : SweptOnly i now s t) (flags : FlagsAgree s)
    (none : ∀ entry ∈ queues s i, now < entry.deadlineMonotonicMs) : Kept s t := by
  have same : ∀ j, queues t j = queues s j := by
    intro j
    rw [swept.remaining j]
    split
    · rename_i here
      subst j
      exact filter_eq_self.mpr fun entry waiting => decide_eq_true (none entry waiting)
    · rfl
  refine ⟨same, fun j => ?_, swept.leaseLocations⟩
  rw [swept.leases j, same j, leaseOf_eq_stateAt]
  exact congrArg lease (FlagAgrees.refresh (flags j))

def admissionNames (request : QueueLeaseRequest) :
    SchedulerResult QueueAdmissionOutcome → List RequestId
  | .ok outcome => outcome.expired.map QueuedLease.requestId
  | .error .queueExpired => [request.requestId]
  | .error _ => []

lemma admissionNames_error {e} (other : e ≠ .queueExpired) :
    admissionNames request (.error e) = [] := by
  cases e <;> first | rfl | exact absurd rfl other

lemma QueueRequested.outcome {r} (bounded : Bounded s) (formed : QueuesWellFormed s)
    (flags : FlagsAgree s) (cooling : Cooling now (s.stateAt request.instanceId))
    (requested : QueueRequested s request gate now r t) :
    (∃ e, r = .error e ∧ e.isFatal = true ∧ SweptOnly request.instanceId now s t) ∨
      ((∀ e, r = .error e → e.isFatal = false) ∧ Departs s t (admissionNames request r) ∧
        ∀ e, r = .error e → e ≠ .queueExpired → Kept s t) := by
  rcases requested with ⟨e, rfl, rfl, ordinary, other⟩ | ⟨rfl, takes⟩ | ⟨decision, rfl, rfl, _⟩ |
    ⟨u, expired, q, rfl, fresh, _, swept, admits⟩
  · refine .inr ⟨?_, admissionNames_error other ▸ departs_none fun _ => rfl,
      fun _ _ _ => Kept.refl _⟩
    rintro _ ⟨rfl⟩
    exact ordinary
  · refine .inr ⟨?_, takes.departs formed.requests, ?_⟩
    · rintro _ ⟨rfl⟩
      rfl
    · rintro _ ⟨rfl⟩ other
      exact absurd rfl other
  · exact .inr ⟨by simp, departs_none fun _ => rfl, by simp⟩
  cases q with
  | error e =>
    obtain ⟨calm, cause⟩ := admits.failed
    have sweptOnly := takeExpiredForInstance_swept bounded flags swept calm
    rcases cause with fatal | ⟨other, hindered⟩
    · exact .inl ⟨e, rfl, fatal, sweptOnly⟩
    cases fatal : e.isFatal with
    | true => exact .inl ⟨e, rfl, fatal, sweptOnly⟩
    | false =>
      -- Where the instance cools down or the queue stays full, nothing had expired.
      have nothing : ∀ entry ∈ queues s request.instanceId, now < entry.deadlineMonotonicMs := by
        have sweep := takeExpiredForInstance_swept bounded flags swept (Calm.refl u)
        obtain ⟨_, m, _, rfl, writes, _⟩ := sweepInstance_steps bounded swept
        rcases hindered with hot | full
        · rw [show stateAt { s with instances := m } request.instanceId = _ from
            writes request.instanceId, if_pos rfl] at hot
          intro entry waiting
          rw [(cooling.idle hot).2 entry waiting]
          exact hot.trans_le cooling.inRange
        rw [sweep.remaining, if_pos rfl] at full
        have whole := (length_filter_le _ _).antisymm
          ((bounded.depth request.instanceId).trans full)
        exact fun entry waiting =>
          of_decide_eq_true (length_filter_eq_length_iff.mp whole entry waiting)
      have kept := sweptOnly.kept flags nothing
      refine .inr ⟨?_, ?_, fun _ _ _ => kept⟩
      · rintro _ ⟨rfl⟩
        exact fatal
      · exact (admissionNames_error other).symm ▸ departs_none kept.queues
  | ok decision =>
    obtain ⟨_, ⟨⟩, _, left, named⟩ := sweepInstances_steps bounded (nodup_singleton _)
      (sweepInstance_sweeps swept)
    have departs : Departs s u (expired.map QueuedLease.requestId) :=
      named ▸ Keyed.Departed.sweep formed.requests (nodup_singleton _) left
    exact .inr ⟨by simp [Except.map], departs.grow fun j other waiting =>
      admits.joins j other (fresh j other waiting), by simp [Except.map]⟩

/-! ## Conservation -/

/-- A grant applied whole: its lease is held and indexed, its entry is gone, and no other
instance changed. -/
structure GrantApplied (s : SeedScheduler) (p : PreparedLease) (t : SeedScheduler) : Prop where
  lease : ∃ lease, t.leaseOf p.token.instanceId = some lease ∧ lease.token = p.token ∧
    lease.connectionId = p.connectionId ∧ lease.acquireRequestId = p.acquireRequestId
  located : t.leaseLocations = s.leaseLocations.insert p.token.leaseId p.token.instanceId
  queue : queueAfterGrant p (queues s p.token.instanceId) = some (queues t p.token.instanceId)
  elsewhere : ∀ j, p.token.instanceId ≠ j → t.stateAt j = s.stateAt j

/-- A transfer applied whole: the receiver holds the lease in the source's place, in the index
too, its entry is gone, and no other instance changed. -/
structure TransferApplied (s : SeedScheduler) (p : PreparedLeaseTransfer) (t : SeedScheduler) :
    Prop where
  lease : ∃ lease, t.leaseOf p.source.token.instanceId = some lease ∧ lease.token = p.toToken ∧
    lease.connectionId = p.queued.connectionId ∧ lease.acquireRequestId = p.queued.requestId
  located : t.leaseLocations = (s.leaseLocations.erase p.source.token.leaseId).insert
    p.toToken.leaseId p.source.token.instanceId
  queue : queueAfterTransfer p (queues s p.source.token.instanceId) =
    some (queues t p.source.token.instanceId)
  elsewhere : ∀ j, p.source.token.instanceId ≠ j → t.stateAt j = s.stateAt j

lemma setInstance_applied (s : SeedScheduler) (i : InstanceId) (state : InstanceState) :
    (s.setInstance i state).leaseOf i = state.lease ∧
      some state.queue = some (queues (s.setInstance i state) i) ∧
      ∀ j, i ≠ j → (s.setInstance i state).stateAt j = s.stateAt j := by
  have written := (stateAt_setInstance s i i state).trans (if_pos rfl)
  refine ⟨?_, ?_, fun j other => (stateAt_setInstance s i j state).trans (if_neg other)⟩
  · rw [leaseOf_eq_stateAt, written]
  · rw [queues, written]

lemma commitAcquireNew_applied {p r} (step : Steps (commitAcquireNew p now) s r t) :
    (∃ e, r = .error e ∧ t = s) ∨ (r = .ok p.token ∧ GrantApplied s p t) := by
  rcases commitAcquireNew_steps step with ⟨e, rfl, rfl⟩ | ⟨queue, rfl, _, _, _, after, rfl⟩
  · exact .inl ⟨e, rfl, rfl⟩
  obtain ⟨lease, queue, elsewhere⟩ := setInstance_applied s p.token.instanceId _
  exact .inr ⟨rfl, ⟨⟨_, lease, rfl, rfl, rfl⟩, rfl, after.trans queue, elsewhere⟩⟩

lemma commitTransfer_applied {p r} (step : Steps (commitTransfer p now) s r t) :
    (∃ e, r = .error e ∧ t = s) ∨ (r = .ok p.toToken ∧ TransferApplied s p t) := by
  rcases commitTransfer_steps step with ⟨e, rfl, rfl⟩ | ⟨queue, rfl, _, _, after, rfl⟩
  · exact .inl ⟨e, rfl, rfl⟩
  obtain ⟨lease, queue, elsewhere⟩ := setInstance_applied s p.source.token.instanceId _
  exact .inr ⟨rfl, ⟨⟨_, lease, rfl, rfl, rfl⟩, rfl, after.trans queue, elsewhere⟩⟩

/-- A queue request conserves the queues too, unless it fails fatally: then it has taken out
the expired entries of its instance. -/
theorem admission_outcome (bounded : Bounded s) (formed : QueuesWellFormed s) (flags : FlagsAgree s)
    (cooling : ∀ j, Cooling now (s.stateAt j)) (admits : command.admission = some (request, now))
    (ran : Steps (exec command) s r t) :
    (∃ e, r = .error e ∧ e.isFatal = true ∧ SweptOnly request.instanceId now s t) ∨
      ((∀ e, r = .error e → e.isFatal = false) ∧ Conserves command s r t) := by
  obtain ⟨gate, q, rfl, named, requested⟩ : ∃ gate q, r = q.map .admitted ∧
      accounted command r = admissionNames request q ∧
      QueueRequested s request gate now q t := by
    cases command with
    | requestQueued | requestQueuedGated =>
      obtain ⟨rfl, rfl⟩ := Prod.mk.inj (some.inj admits)
      obtain ⟨q, step, rfl⟩ := steps_map.mp ran
      refine ⟨_, q, rfl, ?_, requestQueuedGated_steps bounded step⟩
      cases q with
      | ok => rfl
      | error e => cases e <;> rfl
    | _ => cases admits
  rcases requested.outcome bounded formed flags (cooling _) with ⟨e, rfl, fatal, swept⟩ |
    ⟨ordinary, departs, atomic⟩
  · exact .inl ⟨e, rfl, fatal, swept⟩
  cases q with
  | error e =>
    refine .inr ⟨?_, named ▸ departs, ?_⟩
    · rintro _ ⟨rfl⟩
      exact ordinary e rfl
    · rintro _ ⟨rfl⟩
      exact atomic e rfl
  | ok outcome => exact .inr ⟨by simp [Except.map], conserves_ok departs named⟩

/-- In a run whose instants do not decrease, every call accounts for each entry that leaves a
queue exactly once, and a call that fails otherwise than by the caller's own expiry leaves the
queues, the leases and the index unchanged. The one exception is a queue request that fails
fatally: it has taken exactly the expired entries of its instance out. A commit applies whole
or changes nothing. -/
theorem queue_conservation (w : World) (clock : Nat) (run : w.Timed clock) (command : Command)
    (later : ∀ now, command.instant = some now → clock ≤ now) :
    (∀ request now e, command.admission = some (request, now) →
      w.answer command = .error e → e.isFatal = true →
      SweptOnly request.instanceId now w.scheduler (w.step command).scheduler) ∧
    ((∀ request now e, command.admission = some (request, now) →
        w.answer command = .error e → e.isFatal = false) →
      Conserves command w.scheduler (w.answer command) (w.step command).scheduler) ∧
    (∀ p now, command = .commitAcquire (.new p) now →
      (∃ e, w.answer command = .error e ∧ (w.step command).scheduler = w.scheduler) ∨
      (w.answer command = .ok (.token p.token) ∧
        GrantApplied w.scheduler p (w.step command).scheduler)) ∧
    (∀ p now, command = .commitTransfer p now →
      (∃ e, w.answer command = .error e ∧ (w.step command).scheduler = w.scheduler) ∨
      (w.answer command = .ok (.token p.toToken) ∧
        TransferApplied w.scheduler p (w.step command).scheduler)) := by
  have reachable := run.reachable
  have ran := w.step_steps command
  have admission : ∀ request now, command.admission = some (request, now) →
      (∃ e, w.answer command = .error e ∧ e.isFatal = true ∧
          SweptOnly request.instanceId now w.scheduler (w.step command).scheduler) ∨
        ((∀ e, w.answer command = .error e → e.isFatal = false) ∧
          Conserves command w.scheduler (w.answer command) (w.step command).scheduler) := by
    intro request now admits
    have timed : command.instant = some now := by
      cases command with
      | requestQueued | requestQueuedGated => exact congrArg (Option.map Prod.snd) admits
      | _ => cases admits
    exact admission_outcome reachable.bounded reachable.queuesWellFormed reachable.flagsAgree
      (fun j => (run.cooling j).later (later now timed)) admits ran
  refine ⟨fun request now e admits failed fatal => ?_, fun ordinary => ?_, ?_, ?_⟩
  · rcases admission request now admits with ⟨_, _, _, swept⟩ | ⟨mild, _⟩
    · exact swept
    · exact absurd (fatal.symm.trans (mild e failed)) (by simp)
  · cases admits : command.admission with
    | none => exact exec_conserves reachable.bounded reachable.queuesWellFormed admits ran
    | some admitted =>
      obtain ⟨request, now⟩ := admitted
      rcases admission request now admits with ⟨e, failed, fatal, _⟩ | ⟨_, conserves⟩
      · exact absurd (fatal.symm.trans (ordinary request now e admits failed)) (by simp)
      · exact conserves
  · rintro p now rfl
    obtain ⟨q, step, answer⟩ := steps_map.mp ran
    rcases commitAcquireNew_applied step with ⟨e, rfl, same⟩ | ⟨rfl, applied⟩
    · exact .inl ⟨e, answer, same⟩
    · exact .inr ⟨answer, applied⟩
  · rintro p now rfl
    obtain ⟨q, step, answer⟩ := steps_map.mp ran
    rcases commitTransfer_applied step with ⟨e, rfl, same⟩ | ⟨rfl, applied⟩
    · exact .inl ⟨e, answer, same⟩
    · exact .inr ⟨answer, applied⟩

namespace Sample

/-- The holder is gone and a client with a deadline still waits. -/
def abandoned : World := world.run [acquire, queueHigh, release]

lemma abandoned_timed : abandoned.Timed 10 := by
  have first : (world.step acquire).Timed 0 :=
    (World.Timed.start new_eq).step (by decide) (by rintro _ ⟨rfl⟩; decide)
  have second : ((world.step acquire).step queueHigh).Timed 5 :=
    first.step (by decide) (by rintro _ ⟨rfl⟩; decide)
  exact second.step (by decide) (by rintro _ ⟨rfl⟩; decide)

/-- A request so late that no expiry can be computed for it. -/
def requestTooLate : Command :=
  .requestQueued ⟨⟨9⟩, instanceId, ⟨3⟩, otherConnection, .normal, 1000⟩ u64Max

end Sample

open Sample

/-- A request that overflows its expiry loses the expired entry it took out. -/
theorem queue_request_loses_expired :
    abandoned.Timed 10 ∧ abandoned.Legal requestTooLate ∧
    (∀ now, requestTooLate.instant = some now → 10 ≤ now) ∧
    abandoned.answer requestTooLate = .error .expiryOverflow ∧
    accounted requestTooLate (abandoned.answer requestTooLate) = [] ∧
    (queues abandoned.scheduler instanceId).map QueueEntry.requestId = [⟨2⟩] ∧
    queues (abandoned.step requestTooLate).scheduler instanceId = [] := by
  refine ⟨abandoned_timed, by decide, ?_, by decide +kernel, by decide +kernel,
    by decide +kernel, by decide +kernel⟩
  rintro _ ⟨rfl⟩
  decide

/-- A sweep names the client it takes out; the request that comes too late takes the same
client out. -/
theorem queue_conservation_abandoned :
    accounted (.takeExpiredQueued 2000) (abandoned.answer (.takeExpiredQueued 2000)) =
      [⟨2⟩] ∧
    Conserves (.takeExpiredQueued 2000) abandoned.scheduler
      (abandoned.answer (.takeExpiredQueued 2000))
      (abandoned.step (.takeExpiredQueued 2000)).scheduler ∧
    SweptOnly instanceId u64Max abandoned.scheduler
      (abandoned.step requestTooLate).scheduler := by
  refine ⟨by decide +kernel, ?_, ?_⟩
  · refine (queue_conservation _ _ abandoned_timed _ ?_).2.1 (by rintro _ _ _ ⟨⟩)
    rintro _ ⟨rfl⟩
    decide
  refine (queue_conservation _ _ abandoned_timed requestTooLate ?_).1 _ _
    .expiryOverflow rfl (by decide +kernel) rfl
  rintro _ ⟨rfl⟩
  decide

end Scheduler
