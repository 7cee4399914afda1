import ActingCommand.Scheduler.Outcome

/-!
# From changes to reachable worlds

What every change preserves holds in every reachable world. The queues stay within
their depth, so the positions the calls report never overflow and a call never stops
half way through a queue.
-/

namespace Scheduler

open Machine Call List Except

variable {scope : Scope} {a b : SeedScheduler × List Outstanding}

/-! ## What a change does to the queues -/

/-- A change shortens queues, or queues one new entry. -/
inductive QueueChange (s t : SeedScheduler) : Prop
  | fewer (config : t.config = s.config)
      (arrivals : t.nextArrivalSequence = s.nextArrivalSequence)
      (sub : ∀ j, (t.stateAt j).queue.Sublist (s.stateAt j).queue)
  | entered (config : t.config = s.config) (i : InstanceId) (entry : QueueEntry)
      (arrivals : t.nextArrivalSequence = s.nextArrivalSequence + 1)
      (arrival : entry.arrivalSequence = s.nextArrivalSequence)
      (room : (s.stateAt i).queue.length < s.config.maxQueueDepthPerInstance)
      (fresh : ∀ j, ∀ other ∈ (s.stateAt j).queue, other.requestId ≠ entry.requestId)
      (here : (t.stateAt i).queue = sortQueue ((s.stateAt i).queue ++ [entry]))
      (there : ∀ j, i ≠ j → (t.stateAt j).queue = (s.stateAt j).queue)

/-- One record rewritten with a part of its queue. -/
theorem Writes.queue_sublist {s : SeedScheduler} {m} {i : InstanceId} {state : InstanceState}
    (writes : Writes s m i state) (sub : state.queue.Sublist (s.stateAt i).queue) (j : InstanceId) :
    (recordAt m j).queue.Sublist (s.stateAt j).queue := by
  rw [writes j]
  split
  · rename_i same
    rw [← same]
    exact sub
  · exact List.Sublist.refl _

lemma Change.queueChange (change : Change scope a b) : QueueChange a.1 b.1 := by
  cases change with
  | calm calm | prepare o calm =>
    exact .fewer calm.config calm.nextArrivalSequence fun j => by rw [calm.queue j]
  | forget => exact .fewer rfl rfl fun _ => List.Sublist.refl _
  | shrink i queue sub writes | grant p queue _ _ _ sub writes
  | transfer p queue _ _ _ sub _ _ writes => exact .fewer rfl rfl (writes.queue_sublist sub)
  | @enqueue s _ m i entry room arrival fresh _ writes =>
    refine .entered rfl i entry rfl arrival room fresh ?_ ?_
    · change (recordAt m i).queue = _
      rw [writes i, if_pos rfl]
      rfl
    intro j other
    change (recordAt m j).queue = _
    rw [writes j, if_neg other]
  | renew _ _ _ _ _ _ _ _ _ writes | openStep _ _ _ _ _ _ _ writes | closeStep _ _ _ writes
  | endLease _ _ _ _ _ _ writes =>
    exact .fewer rfl rfl (writes.queue_sublist (List.Sublist.refl _))

lemma QueueChange.bounded {s t : SeedScheduler} (change : QueueChange s t)
    (bounded : Bounded s) : Bounded t := by
  cases change with
  | fewer config _ sub =>
    refine ⟨by rw [config]; exact bounded.limit, fun j => ?_⟩
    rw [config]
    exact (sub j).length_le.trans (bounded.depth j)
  | entered config i entry _ _ room _ here there =>
    refine ⟨by rw [config]; exact bounded.limit, fun j => ?_⟩
    rw [config]
    by_cases same : i = j
    · subst j
      rw [here, (sortQueue_perm _).length_eq, length_append, length_singleton]
      exact room
    · rw [there j same]
      exact bounded.depth j

/-- What one change preserves, a call preserves. -/
theorem Changes.preserve (P : SeedScheduler × List Outstanding → Prop)
    (preserved : ∀ {a b}, Change scope a b → P a → P b)
    (changes : Changes scope a b) (held : P a) : P b := by
  induction changes with
  | refl => exact held
  | tail _ change ih => exact preserved change ih

lemma Changes.bounded (changes : Changes scope a b) (bounded : Bounded a.1) : Bounded b.1 :=
  changes.preserve (fun c => Bounded c.1) (fun change => change.queueChange.bounded) bounded

/-! ## New schedulers -/

section

variable {ownerEpoch : OwnerEpoch} {config : SchedulerConfig} {takeover : List InstanceId}
  {nameSpace : Option Nat} {instant : Nat} {s : SeedScheduler}
  (made : SeedScheduler.new ownerEpoch config takeover nameSpace instant = .ok s)

include made

lemma new_ok : s.leaseLocations = ∅ ∧ s.nextArrivalSequence = 1 ∧ s.nextStepId = 1 ∧
      s.config.maxQueueDepthPerInstance ≤ maxQueueDepthPerInstanceLimit ∧
      s.leaseIssuer.nextSequence = 1 ∧
      ∀ j, ∃ cooldown ≤ u64Max, s.stateAt j = { cooldownUntilMonotonicMs := cooldown } := by
  simp only [SeedScheduler.new, bind_ok_iff, okOr_ok_iff, pure_ok_iff] at made
  obtain ⟨valid, validated, cooldown, added, nameSpace, _, rfl⟩ := made
  obtain ⟨_, inRange⟩ := checkedAdd_eq_some_iff.mp added
  have limit : valid.maxQueueDepthPerInstance ≤ maxQueueDepthPerInstanceLimit := by
    unfold SchedulerConfig.validate at validated
    split at validated
    · simp at validated
    rename_i passed
    obtain rfl := ok.inj validated
    simp only [not_or, not_lt] at passed
    exact passed.2.2.2.2.2.2
  refine ⟨rfl, rfl, rfl, limit, rfl, ?_⟩
  -- The takeover loop gives every instance it meets the same record.
  have loop : ∀ (ids : List InstanceId) (m : Std.ExtTreeMap InstanceId InstanceState),
      (∀ j, ∃ c ≤ u64Max, recordAt m j = { cooldownUntilMonotonicMs := c }) →
      ∀ j, ∃ c ≤ u64Max, recordAt (ids.foldl (fun instances i =>
        instances.insertIfNew i { cooldownUntilMonotonicMs := cooldown }) m) j =
          { cooldownUntilMonotonicMs := c } := by
    intro ids
    induction ids with
    | nil => exact fun _ held => held
    | cons i rest ih =>
      intro m held
      refine ih _ fun j => ?_
      rw [recordAt, Std.ExtTreeMap.getElem?_insertIfNew]
      split
      · exact ⟨cooldown, inRange, rfl⟩
      · exact held j
  exact loop takeover ∅ fun j => ⟨0, Nat.zero_le _, by simp [recordAt]⟩

lemma new_bounded : Bounded s := by
  obtain ⟨_, _, _, limit, _, states⟩ := new_ok made
  refine ⟨limit, fun j => ?_⟩
  obtain ⟨cooldown, _, state⟩ := states j
  rw [state]
  exact Nat.zero_le _

end

/-! ## Reachable worlds -/

namespace World

/-- A legal step is a sequence of changes of the world's scheduler and preparations. -/
theorem step_changes {w : World} {command : Command} (bounded : Bounded w.scheduler)
    (legal : w.Legal command) :
    Changes (scopeOf command (w.answer command)) (w.scheduler, w.outstanding)
      ((w.step command).scheduler, (w.step command).outstanding) := by
  have taken : (command.consumes ++ w.outstanding.diff command.consumes).Subperm
      w.outstanding := by
    have single : command.consumes = [] ∨ ∃ o, command.consumes = [o] := by
      unfold Command.consumes
      split
      · exact Or.inr ⟨_, rfl⟩
      · exact Or.inr ⟨_, rfl⟩
      · exact Or.inl rfl
    rcases single with none | ⟨o, one⟩
    · rw [none]
      exact List.Subperm.refl _
    rw [one, diff_cons, diff_nil]
    have held : o ∈ w.outstanding := legal o (by rw [one]; exact mem_singleton_self o)
    exact (perm_cons_erase held).symm.subperm
  exact .head (.forget taken) (exec_changes bounded (scopeOf_allows _ _) (w.step_steps command) _)

lemma Reachable.bounded {w : World} (reachable : Reachable w) : Bounded w.scheduler := by
  refine reachable.invariant (fun v => Bounded v.scheduler) ?_ ?_
  · exact fun _ _ _ _ _ _ made => new_bounded made
  · exact fun v command held legal => (step_changes held legal).bounded held

/-- What every change preserves holds in every reachable world. -/
theorem Reachable.change_invariant {w : World} (reachable : Reachable w)
    (P : SeedScheduler × List Outstanding → Prop)
    (initial : ∀ ownerEpoch config takeover nameSpace now s,
      SeedScheduler.new ownerEpoch config takeover nameSpace now = .ok s → P (s, []))
    (preserved : ∀ {scope a b}, Change scope a b → P a → P b) :
    P (w.scheduler, w.outstanding) := by
  have both : Bounded w.scheduler ∧ P (w.scheduler, w.outstanding) := by
    refine reachable.invariant
      (fun v => Bounded v.scheduler ∧ P (v.scheduler, v.outstanding)) ?_ ?_
    · exact fun _ _ _ _ _ _ made => ⟨new_bounded made, initial _ _ _ _ _ _ made⟩
    rintro v command ⟨bounded, held⟩ legal
    have changes := step_changes bounded legal
    exact ⟨changes.bounded bounded, changes.preserve P preserved held⟩
  exact both.2

end World

end Scheduler
