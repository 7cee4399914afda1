import ActingCommand.Scheduler.Conservation

/-!
# What one call does to the leases

The kinds of change say what can happen to the scheduler at all. Here each change of a lease or
of a release record is traced to the call that makes it: a lease comes from a commit, its token
from a renewal, its step from a begin and a finish, and it goes with the calls that end it.
-/

namespace Scheduler

open Machine Call SchedulerM List SeedScheduler

variable {s t u : SeedScheduler} {now : Nat}

/-! ## Runs under a condition -/

/-- The second world follows the first by legal commands, each of which meets the condition where
it is called. -/
inductive World.ContinuesBy (condition : World → Command → Prop) (w : World) : World → Prop
  | refl : ContinuesBy condition w w
  | step {v : World} {command : Command} (run : ContinuesBy condition w v)
      (legal : v.Legal command) (allowed : condition v command) :
      ContinuesBy condition w (v.step command)

variable {w : World}

lemma World.ContinuesBy.continues {condition} {v : World}
    (run : w.ContinuesBy condition v) : w.Continues v := by
  induction run with
  | refl => exact .refl
  | step _ legal _ ih => exact ih.step legal

lemma World.ContinuesBy.weaken {condition weaker} {v : World} (run : w.ContinuesBy condition v)
    (implied : ∀ u command, condition u command → weaker u command) : w.ContinuesBy weaker v := by
  induction run with
  | refl => exact .refl
  | step _ legal allowed ih => exact ih.step legal (implied _ _ allowed)

/-! ## Leases that only have their flag refreshed -/

def LeaseEntry.flagged (lease : LeaseEntry) (flag : Bool) : LeaseEntry :=
  { lease with preemptRequested := flag }

/-- One record keeps its lease, up to the flag, and its last release. -/
def Refreshed (before after : InstanceState) : Prop :=
  (∃ flag, after.lease = before.lease.map (·.flagged flag)) ∧
    after.lastRelease = before.lastRelease

lemma Refreshed.of_eq {before after} (lease : after.lease = before.lease)
    (release : after.lastRelease = before.lastRelease) : Refreshed before after := by
  refine ⟨?_, release⟩
  rw [lease]
  cases before.lease with
  | none => exact ⟨false, rfl⟩
  | some held => exact ⟨held.preemptRequested, rfl⟩

lemma Refreshed.refl (state : InstanceState) : Refreshed state state := .of_eq rfl rfl

lemma Refreshed.trans {first second third} (earlier : Refreshed first second)
    (later : Refreshed second third) : Refreshed first third := by
  obtain ⟨⟨flag, lease⟩, release⟩ := earlier
  obtain ⟨⟨flag', lease'⟩, release'⟩ := later
  refine ⟨⟨flag', ?_⟩, release'.trans release⟩
  rw [lease', lease, Option.map_map]
  rfl

lemma Refreshed.queue (state : InstanceState) (queue : List QueueEntry) :
    Refreshed state (refreshPreemptRequested { state with queue := queue }) := by
  refine ⟨?_, rfl⟩
  change ∃ flag, state.lease.map (fun lease => lease.flagged (preemptWanted lease queue)) = _
  cases state.lease with
  | none => exact ⟨false, rfl⟩
  | some lease => exact ⟨preemptWanted lease queue, rfl⟩

def AllRefreshed (s t : SeedScheduler) : Prop := ∀ i, Refreshed (s.stateAt i) (t.stateAt i)

lemma AllRefreshed.refl (s : SeedScheduler) : AllRefreshed s s := fun _ => .refl _

lemma AllRefreshed.trans (first : AllRefreshed s t) (second : AllRefreshed t u) :
    AllRefreshed s u := fun i => (first i).trans (second i)

lemma Calm.allRefreshed (calm : Calm s t) : AllRefreshed s t :=
  fun i => .of_eq (calm.lease i) (calm.lastRelease i)

variable {m : Std.ExtTreeMap InstanceId InstanceState} {i : InstanceId} {state : InstanceState}

lemma Writes.allRefreshed (writes : Writes s m i state) (written : t.instances = m)
    (here : Refreshed (s.stateAt i) state) : AllRefreshed s t := by
  intro j
  change Refreshed _ (recordAt t.instances j)
  rw [written, writes j]
  split
  · rename_i same
    rw [← same]
    exact here
  · exact .refl _

/-! ## What a call can do to one lease -/

/-- The record of the instance `i` before and after a call. -/
inductive Touch (command : Command) (answer : SchedulerResult Response) (i : InstanceId)
    (before after : InstanceState) : Prop
  | kept (refreshed : Refreshed before after)
  | granted (p : PreparedLease) (flag : Bool) (grants : command.Grants answer p)
      (here : p.token.instanceId = i) (free : before.lease = none)
      (lease : after.lease = some ((grantedLease p).flagged flag))
      (release : after.lastRelease = none)
  | transferred (p : PreparedLeaseTransfer) (flag : Bool) (now : Nat)
      (commits : command = .commitTransfer p now) (answered : answer = .ok (.token p.toToken))
      (here : p.source.token.instanceId = i) (held : before.lease = some p.source)
      (lease : after.lease = some ((receivedLease p).flagged flag))
      (release : after.lastRelease = transferRecord p)
  | renewed (held : LeaseEntry) (token : LeaseToken) (record : Option RenewRecord)
      (renews : command.Renews answer held token record)
      (here : held.token.instanceId = i) (same : token.leaseId = held.token.leaseId)
      (before_lease : before.lease = some held)
      (lease : after.lease = some { held with token := token, lastRenew := record })
      (release : after.lastRelease = before.lastRelease)
  | opened (held : LeaseEntry) (witness : FencedWrite) (opens : command.Opens answer witness)
      (here : witness.token.instanceId = i) (before_lease : before.lease = some held)
      (idle : held.destructiveStep = none)
      (lease : after.lease = some
        { held with destructiveStep := some (witness.stepId, witness.purpose) })
      (release : after.lastRelease = before.lastRelease)
  | closed (held : LeaseEntry) (witness : FencedWrite)
      (closes : command = .finishDestructiveStep witness held.connectionId)
      (answered : answer = .ok .done) (here : witness.token.instanceId = i)
      (token : held.token = witness.token)
      (step : held.destructiveStep = some (witness.stepId, witness.purpose))
      (before_lease : before.lease = some held)
      (lease : after.lease = some { held with destructiveStep := none })
      (release : after.lastRelease = before.lastRelease)
  | ended (held : LeaseEntry) (record : Option ReleaseRecord)
      (ends : command.Ends answer held record) (here : held.token.instanceId = i)
      (before_lease : before.lease = some held) (lease : after.lease = none)
      (release : after.lastRelease = record)

/-- Every record before and after a call. -/
def Touches (command : Command) (answer : SchedulerResult Response) (s t : SeedScheduler) : Prop :=
  ∀ i, Touch command answer i (s.stateAt i) (t.stateAt i)

section Touching

variable {command : Command} {answer : SchedulerResult Response}

lemma AllRefreshed.touches (refreshed : AllRefreshed s t) : Touches command answer s t :=
  fun i => .kept (refreshed i)

lemma Calm.touches (calm : Calm s t) : Touches command answer s t := calm.allRefreshed.touches

lemma touches_self : Touches command answer s s := (AllRefreshed.refl s).touches

/-- One record is written and the others stay. -/
theorem Writes.touches (writes : Writes s m i state) (written : t.instances = m)
    (here : Touch command answer i (s.stateAt i) state) : Touches command answer s t := by
  intro j
  change Touch command answer j _ (recordAt t.instances j)
  rw [written, writes j]
  split
  · rename_i same
    subst j
    exact here
  · exact .kept (.refl _)

end Touching

/-! ## The calls that only touch queues -/

/-- Leases are only refreshed, and an entry that waits afterwards waited before or enters. -/
structure QueueOnly (enters : InstanceId → QueueEntry → Prop) (s t : SeedScheduler) : Prop where
  refreshed : AllRefreshed s t
  entered : ∀ j, ∀ entry ∈ queues t j, entry ∈ queues s j ∨ enters j entry

namespace QueueOnly

variable {enters : InstanceId → QueueEntry → Prop}

lemma refl (s : SeedScheduler) : QueueOnly enters s s :=
  ⟨.refl s, fun _ _ waiting => .inl waiting⟩

lemma trans (first : QueueOnly enters s t) (second : QueueOnly enters t u) :
    QueueOnly enters s u := by
  refine ⟨first.refreshed.trans second.refreshed, fun j entry waiting => ?_⟩
  rcases second.entered j entry waiting with before | new
  · exact first.entered j entry before
  · exact .inr new

lemma of_calm (calm : Calm s t) : QueueOnly enters s t :=
  ⟨calm.allRefreshed, fun j entry waiting => .inl (by rwa [queues, calm.queue j] at waiting)⟩

/-- One queue is rewritten from its own entries and those that enter. -/
theorem of_writes {queue}
    (writes : Writes s m i (refreshPreemptRequested { s.stateAt i with queue := queue }))
    (written : t.instances = m) (from_ : ∀ entry ∈ queue, entry ∈ queues s i ∨ enters i entry) :
    QueueOnly enters s t := by
  refine ⟨writes.allRefreshed written (.queue _ _), fun j entry waiting => ?_⟩
  rw [writes.queues written j] at waiting
  split at waiting
  · rename_i same
    subst j
    exact from_ entry waiting
  · exact .inl waiting

end QueueOnly

/-- The entry, under the arrival number it gets. -/
def QueueEntry.Arrives (entry : QueueEntry) (i : InstanceId) (j : InstanceId)
    (other : QueueEntry) : Prop :=
  j = i ∧ ∃ arrival, other = { entry with arrivalSequence := arrival }

def Command.Enters : Command → InstanceId → QueueEntry → Prop
  | .requestQueued request _, j, entry | .requestQueuedGated request _ _ _, j, entry =>
    ∃ deadline ≤ u64Max, ∃ leaseTtlMs,
      (clientEntry request deadline leaseTtlMs).Arrives request.instanceId j entry
  | .enqueueClaim claim _, j, entry => (claimEntry claim).Arrives claim.instanceId j entry
  | _, _, _ => False

section Queueing

variable {enters : InstanceId → QueueEntry → Prop}

lemma Shrinks.queueOnly (shrinks : Relation.ReflTransGen Shrinks s t) : QueueOnly enters s t := by
  induction shrinks with
  | refl => exact .refl _
  | tail _ last ih =>
    obtain ⟨i, queue, m, sub, writes, rfl⟩ := last
    exact ih.trans (.of_writes writes rfl fun entry waiting => .inl (sub.subset waiting))

lemma Inserts.queueOnly {entry} {r}
    (inserts : Inserts i entry s r t) : QueueOnly (entry.Arrives i) s t := by
  rcases inserts with ⟨e, _, calm, _⟩ | ⟨queued, _, _, _, rfl⟩
  · exact .of_calm calm
  refine .of_writes (writes_insert s _ _) rfl fun other waiting => ?_
  rcases mem_append.mp ((sortQueue_perm _).mem_iff.mp waiting) with older | new
  · exact .inl older
  · exact .inr ⟨rfl, _, mem_singleton.mp new⟩

lemma QueueRequested.queueOnly {request gate r} (bounded : Bounded s)
    (requested : QueueRequested s request gate now r t) :
    QueueOnly (Command.requestQueued request now).Enters s t := by
  rcases requested with ⟨_, _, rfl, _⟩ | ⟨_, takes⟩ | ⟨_, _, rfl, _⟩ |
    ⟨u, expired, q, _, _, _, swept, admits⟩
  · exact .refl _
  · exact Shrinks.queueOnly (.single takes.shrinks)
  · exact .refl _
  obtain ⟨_, _, shrinks, _⟩ := sweepInstances_steps bounded (nodup_singleton _)
    (sweepInstance_sweeps swept)
  refine (Shrinks.queueOnly shrinks).trans ?_
  rcases admits with ⟨_, _, calm, _⟩ | ⟨_, _, calm, _⟩ | ⟨_, calm⟩ |
    ⟨_, deadline, _, inRange, _, inserts⟩
  · exact .of_calm calm
  · exact .of_calm calm
  · exact .of_calm calm
  have only := inserts.queueOnly
  exact ⟨only.refreshed, fun j entry waiting => (only.entered j entry waiting).imp_right
    fun arrives => ⟨deadline, inRange, _, arrives⟩⟩

end Queueing

/-! ## Any call -/

section Calls

variable {command : Command} {r : SchedulerResult Response}

/-- Every call touches each lease in one of the ways of `Touch`. -/
theorem exec_touches (bounded : Bounded s) (ran : Steps (exec command) s r t) :
    Touches command r s t := by
  have queueOnly : QueueOnly (fun _ _ => True) s t → Touches command r s t :=
    fun only => only.refreshed.touches
  cases exec_ran bounded ran with
  | failed e _ same => exact same ▸ touches_self
  | settled calm => exact calm.touches
  | granted u p queue now _ grants calm _ _ _ _ free _ written =>
    subst written
    intro j
    change Touch command r j _ (stateAt (u.setInstance p.token.instanceId
      (grantedState (u.stateAt p.token.instanceId) p queue)) j)
    rw [stateAt_setInstance]
    split
    · rename_i same
      subst j
      exact .granted p _ grants rfl ((calm.lease _).symm.trans free) rfl rfl
    · exact .kept (calm.allRefreshed j)
  | transferred p queue now commits answer _ held _ written =>
    subst written
    exact (writes_insert s _ _).touches rfl (.transferred p _ now commits answer rfl held rfl rfl)
  | renewed lease token record renews becomes =>
    obtain ⟨held, _, ⟨_, renewal⟩, rfl⟩ := becomes
    have same : token.leaseId = lease.token.leaseId := by rw [renewal]
    exact (writes_insert s _ _).touches rfl
      (.renewed lease token record renews rfl same held rfl rfl)
  | opened lease witness opens held idle _ written =>
    subst written
    exact (writes_insert s _ _).touches rfl (.opened lease witness opens rfl held idle rfl rfl)
  | closed lease witness closes answer opened held written =>
    subst written
    exact (writes_insert s _ _).touches rfl
      (.closed lease witness closes answer rfl opened.token opened.step held rfl rfl)
  | ended lease record ends _ _ held written =>
    subst written
    exact (writes_insert s _ _).touches rfl (.ended lease record ends rfl held rfl rfl)
  | dequeued shrinks => exact queueOnly (Shrinks.queueOnly shrinks)
  | enqueued claim now q _ _ _ inserts => exact inserts.queueOnly.refreshed.touches
  | requested request gate now q _ _ requested =>
    exact (requested.queueOnly bounded).refreshed.touches

/-- A record rewritten without new entries gains none. -/
theorem entered_of_write {j entry} (written : t.instances = s.instances.insert i state)
    (sub : state.queue.Sublist (s.stateAt i).queue) (waiting : entry ∈ queues t j) :
    entry ∈ queues s j := by
  rw [(writes_insert s i state).queues written j] at waiting
  split at waiting
  · rename_i same
    subst j
    exact sub.subset waiting
  · exact waiting

/-- An entry that waits after a call waited before it or is the one the call queued. -/
theorem exec_entered (bounded : Bounded s) (ran : Steps (exec command) s r t) (j : InstanceId)
    (entry : QueueEntry) (waiting : entry ∈ queues t j) :
    entry ∈ queues s j ∨ command.Enters j entry := by
  cases exec_ran bounded ran with
  | failed e _ same => exact .inl (same ▸ waiting)
  | settled calm => exact .inl (calm.kept.queues j ▸ waiting)
  | granted u p queue now _ _ calm _ _ _ _ _ after written =>
    have before := entered_of_write (congrArg instances written)
      (queueAfterGrant_sublist after) waiting
    exact .inl (calm.kept.queues j ▸ before)
  | transferred p queue now _ _ _ _ after written =>
    exact .inl (entered_of_write (congrArg instances written)
      (queueAfterTransfer_sublist after) waiting)
  | renewed lease token record _ becomes =>
    exact .inl (entered_of_write (congrArg instances becomes.after) (.refl _)
      waiting)
  | opened lease witness _ _ _ _ written | closed lease witness _ _ _ _ written
  | ended lease record _ _ _ _ written =>
    exact .inl (entered_of_write (congrArg instances written) (.refl _) waiting)
  | dequeued shrinks => exact (Shrinks.queueOnly shrinks).entered j entry waiting
  | enqueued claim now q enqueues _ _ inserts =>
    exact enqueues ▸ inserts.queueOnly.entered j entry waiting
  | requested request gate now q requests _ requested =>
    rcases requests with rfl | ⟨_, _, rfl⟩
    all_goals exact (requested.queueOnly bounded).entered j entry waiting

end Calls

/-- What holds of a new scheduler and survives every legal command of a reachable world holds in
every reachable world. -/
theorem World.Reachable.along (reachable : w.Reachable) (Inv : World → Prop)
    (initial : ∀ ownerEpoch config takeover nameSpace now s,
      new ownerEpoch config takeover nameSpace now = .ok s → Inv (World.start s))
    (preserved : ∀ v command, v.Reachable → Inv v → v.Legal command → Inv (v.step command)) :
    Inv w := by
  have both : w.Reachable ∧ Inv w := by
    refine reachable.invariant (fun v => v.Reachable ∧ Inv v) ?_ ?_
    · exact fun epoch config takeover nameSpace now s made =>
        ⟨⟨epoch, config, takeover, nameSpace, now, s, made, .refl⟩, initial _ _ _ _ _ _ made⟩
    · exact fun v command held legal =>
        ⟨held.1.step legal, preserved v command held.1 held.2 legal⟩
  exact both.2

lemma World.Reachable.touches (reachable : w.Reachable) (command : Command) :
    Touches command (w.answer command) w.scheduler (w.step command).scheduler :=
  exec_touches reachable.bounded (w.step_steps command)

end Scheduler
