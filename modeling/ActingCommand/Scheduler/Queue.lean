import ActingCommand.Keyed
import ActingCommand.Scheduler.Invariant

/-!
# The queues and the preemption flag

In every reachable world the queues are strictly sorted, within their depth, and no
arrival number and no request occurs twice in them; and a lease is flagged for
preemption exactly when the head of its queue asks for it.
-/

namespace Scheduler

open Machine Call List Option Sample QueueEntry

/-! ## The order of a queue -/

variable (s : SeedScheduler) (left right : QueueEntry) (state : InstanceState)

/-- Holder-owned entries first, then high before normal, then the earlier arrival. -/
def Before : Prop :=
  (left.kind.holderOwned = true ∧ right.kind.holderOwned = false) ∨
  (left.kind.holderOwned = right.kind.holderOwned ∧
    (right.priority < left.priority ∨
      (left.priority = right.priority ∧ left.arrivalSequence < right.arrivalSequence)))

/-- The class of an entry as a number: the smaller goes first. -/
def queueRank (entry : QueueEntry) : Nat :=
  2 * (!entry.kind.holderOwned).toNat + (1 - entry.priority.rank)

lemma compareQueued_eq_rank :
    compareQueued left right = (compare (queueRank left) (queueRank right)).then
      (compare left.arrivalSequence right.arrivalSequence) := by
  unfold compareQueued queueRank
  cases left.kind.holderOwned <;> cases right.kind.holderOwned <;>
    cases left.priority <;> cases right.priority <;> rfl

lemma compareQueued_ne_gt_iff {left right} :
    compareQueued left right ≠ .gt ↔ queueRank left < queueRank right ∨
      (queueRank left = queueRank right ∧ left.arrivalSequence ≤ right.arrivalSequence) := by
  rw [compareQueued_eq_rank]
  rcases lt_trichotomy (queueRank left) (queueRank right) with less | same | greater
  · simp [compare_lt_iff_lt.mpr less, less]
  · simp [same, compare_le_iff_le]
  have incomparable : ¬ queueRank left < queueRank right := by omega
  have different : queueRank left ≠ queueRank right := by omega
  simp [compare_gt_iff_gt.mpr greater, incomparable, different]

lemma before_iff_rank {left right} :
    Before left right ↔ queueRank left < queueRank right ∨
      (queueRank left = queueRank right ∧ left.arrivalSequence < right.arrivalSequence) := by
  have lessThan : ∀ p q : LeasePriority, p < q ↔ p.rank < q.rank := fun _ _ => Iff.rfl
  unfold Before queueRank
  rw [lessThan]
  cases left.kind.holderOwned <;> cases right.kind.holderOwned <;>
    cases left.priority <;> cases right.priority <;>
    simp [LeasePriority.rank]

/-- Sorting makes entries of distinct arrivals strictly ordered. -/
theorem sortQueue_before {queue} (distinct : (queue.map arrivalSequence).Nodup) :
    (sortQueue queue).Pairwise Before := by
  have total : ∀ a b, compareQueued a b ≠ .gt ∨ compareQueued b a ≠ .gt := by
    intro a b
    simp only [compareQueued_ne_gt_iff]
    omega
  have transitive : ∀ a b c, compareQueued a b ≠ .gt → compareQueued b c ≠ .gt →
      compareQueued a c ≠ .gt := by
    intro a b c
    simp only [compareQueued_ne_gt_iff]
    omega
  have : Std.Total fun a b => compareQueued a b ≠ .gt := ⟨total⟩
  have : IsTrans QueueEntry fun a b => compareQueued a b ≠ .gt := ⟨transitive⟩
  have sorted : (sortQueue queue).Pairwise fun a b => compareQueued a b ≠ .gt :=
    pairwise_insertionSort _ _
  have apart : (sortQueue queue).Pairwise fun a b => a.arrivalSequence ≠ b.arrivalSequence := by
    have nodup := (((sortQueue_perm queue).map arrivalSequence).nodup_iff).mpr distinct
    exact pairwise_map.mp nodup
  refine (sorted.and apart).imp ?_
  rintro a b ⟨ordered, different⟩
  rw [compareQueued_ne_gt_iff] at ordered
  rw [before_iff_rank]
  omega

/-! ## The queue invariant -/

structure QueuesWellFormed : Prop where
  sorted : ∀ i, (queues s i).Pairwise Before
  arrivals : Keyed.Distinct arrivalSequence (queues s)
  arrived : ∀ i, ∀ entry ∈ queues s i, entry.arrivalSequence < s.nextArrivalSequence
  requests : Keyed.Distinct requestId (queues s)

lemma QueueChange.wellFormed {s t} (change : QueueChange s t)
    (formed : QueuesWellFormed s) : QueuesWellFormed t := by
  cases change with
  | fewer _ arrivals sub =>
    refine ⟨fun i => (formed.sorted i).sublist (sub i), formed.arrivals.sub sub, ?_,
      formed.requests.sub sub⟩
    intro i entry waiting
    rw [arrivals]
    exact formed.arrived i entry ((sub i).subset waiting)
  | entered _ i entry arrivals arrival _ fresh here there =>
    have joined : (queues t i).Perm (entry :: queues s i) := by
      unfold queues
      rw [here]
      exact (sortQueue_perm _).trans (perm_append_singleton _ _)
    have apart : ∀ j, ∀ other ∈ queues s j, other.arrivalSequence ≠ entry.arrivalSequence := by
      intro j other waiting
      have older := formed.arrived j other waiting
      omega
    have distinct := formed.arrivals.insert apart joined there
    refine ⟨?_, distinct, ?_, formed.requests.insert fresh joined there⟩
    · intro j
      by_cases same : i = j
      · subst j
        have nodup := distinct.within i
        rw [queues, here, ((sortQueue_perm _).map arrivalSequence).nodup_iff] at nodup
        rw [queues, here]
        exact sortQueue_before nodup
      · rw [queues, there j same]
        exact formed.sorted j
    intro j other waiting
    rw [arrivals]
    by_cases same : i = j
    · subst j
      rcases mem_cons.mp (joined.mem_iff.mp waiting) with rfl | old
      · omega
      · exact (formed.arrived i other old).trans (Nat.lt_succ_self _)
    · rw [queues, there j same] at waiting
      exact (formed.arrived j other waiting).trans (Nat.lt_succ_self _)

lemma World.Reachable.queuesWellFormed {w : World} (reachable : w.Reachable) :
    QueuesWellFormed w.scheduler := by
  refine reachable.change_invariant (fun a => QueuesWellFormed a.1) ?_ ?_
  · intro _ _ _ _ _ s made
    obtain ⟨_, _, _, _, _, states⟩ := new_ok made
    have empty : ∀ i, queues s i = [] := by
      intro i
      obtain ⟨cooldown, _, state⟩ := states i
      rw [queues, state]
    exact ⟨by simp [empty], ⟨by simp [empty], by simp [empty]⟩, by simp [empty],
      ⟨by simp [empty], by simp [empty]⟩⟩
  · exact fun change formed => change.queueChange.wellFormed formed

def SeedScheduler.waiting : List QueueEntry :=
  s.instances.keys.flatMap (queues s)

/-- In every reachable world each queue is strictly sorted by holder-owned first, high before
normal and arrival; over all queues no arrival number and no request repeats and every arrival
is below the next; and no queue is deeper than configured. -/
theorem queue_invariant (w : World) (reachable : w.Reachable) :
    (∀ i, (w.scheduler.stateAt i).queue.Pairwise Before) ∧
    (w.scheduler.waiting.map arrivalSequence).Nodup ∧
    (∀ entry ∈ w.scheduler.waiting, entry.arrivalSequence < w.scheduler.nextArrivalSequence) ∧
    (w.scheduler.waiting.map requestId).Nodup ∧
    (∀ i, (w.scheduler.stateAt i).queue.length ≤
      w.scheduler.config.maxQueueDepthPerInstance) := by
  have formed := reachable.queuesWellFormed
  have keys := instances_keys_nodup w.scheduler
  refine ⟨formed.sorted, formed.arrivals.flatMap_nodup keys, ?_,
    formed.requests.flatMap_nodup keys, reachable.bounded.depth⟩
  intro entry waiting
  obtain ⟨i, _, here⟩ := mem_flatMap.mp waiting
  exact formed.arrived i entry here

/-- A continuation of the holder goes ahead of a client of high priority. -/
theorem queue_invariant_two_waiting :
    ((world.run [acquire, queueHigh,
        .enqueueClaim ⟨⟨3⟩, instanceId, ⟨1⟩, connection, .ladderContinuation,
          .normal, 120000⟩ 6]).scheduler.waiting.map arrivalSequence = [2, 1]) ∧
      ((world.run [acquire, queueHigh,
        .enqueueClaim ⟨⟨3⟩, instanceId, ⟨1⟩, connection, .ladderContinuation,
          .normal, 120000⟩ 6]).scheduler.stateAt instanceId).queue.Pairwise Before :=
  ⟨by decide +kernel, (queue_invariant _ (reachable (by decide +kernel))).1 _⟩

/-! ## The preemption flag -/

/-- The flag of every lease says what the head of its queue asks for. -/
def FlagsAgree : Prop :=
  ∀ i lease, (s.stateAt i).lease = some lease →
    lease.preemptRequested = preemptWanted lease (s.stateAt i).queue

/-- What a record must satisfy for `FlagsAgree`. -/
def FlagAgrees : Prop :=
  ∀ lease, state.lease = some lease → lease.preemptRequested = preemptWanted lease state.queue

lemma refreshPreemptRequested_agrees : FlagAgrees (refreshPreemptRequested state) := by
  intro lease held
  obtain ⟨old, _, rfl⟩ := map_eq_some_iff.mp held
  rfl

lemma FlagsAgree.writes {s m i state} (flags : FlagsAgree s) (writes : Writes s m i state)
    (agrees : FlagAgrees state) (j : InstanceId) : FlagAgrees (recordAt m j) := by
  rw [writes j]
  split
  · exact agrees
  · exact flags j

lemma Change.flagsAgree {scope : Scope}
    {a b} (change : Change scope a b)
    (flags : FlagsAgree a.1) : FlagsAgree b.1 := by
  cases change with
  | calm calm | prepare o calm =>
    intro i lease held
    rw [calm.lease i] at held
    rw [calm.queue i]
    exact flags i lease held
  | forget => exact flags
  | shrink i queue _ writes => exact flags.writes writes (refreshPreemptRequested_agrees _)
  | enqueue i entry _ _ _ _ writes | transfer p queue _ _ _ _ _ _ writes =>
    exact flags.writes writes (refreshPreemptRequested_agrees _)
  | grant p queue _ _ _ _ writes =>
    -- Forgetting the last release touches neither the lease nor the queue.
    exact flags.writes writes (fun lease held => refreshPreemptRequested_agrees _ lease held)
  | renew i lease token lastRenew held _ _ _ _ writes
  | openStep i lease stepId purpose held _ _ writes | closeStep i lease held writes =>
    -- Neither the flag nor the priority of the lease changes.
    refine flags.writes writes ?_
    rintro _ ⟨rfl⟩
    exact flags i lease held
  | endLease i lease record _ _ _ writes => exact flags.writes writes (by rintro _ ⟨⟩)

lemma World.Reachable.flagsAgree {w : World} (reachable : w.Reachable) :
    FlagsAgree w.scheduler := by
  refine reachable.change_invariant (fun a => FlagsAgree a.1) ?_ ?_
  · intro _ _ _ _ _ s made i lease held
    obtain ⟨_, _, _, _, _, states⟩ := new_ok made
    obtain ⟨cooldown, _, state⟩ := states i
    rw [state] at held
    cases held
  · exact fun change flags => change.flagsAgree flags

/-- In every reachable world a lease is flagged for preemption exactly when the queue of its
instance has a head that may preempt and has a strictly higher priority. -/
theorem preempt_requested_iff (w : World) (reachable : w.Reachable) (i : InstanceId)
    (lease : LeaseEntry) (held : w.scheduler.leaseOf i = some lease) :
    lease.preemptRequested = true ↔
      ∃ head, (w.scheduler.stateAt i).queue.head? = some head ∧ head.mayPreempt = true ∧
        lease.priority < head.priority := by
  rw [SeedScheduler.leaseOf_eq_stateAt] at held
  rw [reachable.flagsAgree i lease held, preemptWanted]
  cases (w.scheduler.stateAt i).queue.head? with
  | none => simp
  | some head => simp

/-- A client of high priority flags the lease it waits for. -/
theorem preempt_requested_by_client :
    ∃ lease, (world.run [acquire, queueHigh]).scheduler.leaseOf
        instanceId = some lease ∧
      (lease.preemptRequested = true ↔
        ∃ head, ((world.run [acquire, queueHigh]).scheduler.stateAt
            instanceId).queue.head? = some head ∧ head.mayPreempt = true ∧
          lease.priority < head.priority) := by
  have held : ((world.run [acquire, queueHigh]).scheduler.leaseOf
      instanceId).isSome = true := by decide +kernel
  obtain ⟨lease, here⟩ := isSome_iff_exists.mp held
  exact ⟨lease, here,
    preempt_requested_iff _ (reachable (by decide +kernel)) _ lease here⟩

end Scheduler
