import ActingCommand.Scheduler.Invariant

/-!
# Runs in time

The instants of the calls of a run do not decrease. An instance that is still cooling down
from a takeover then holds no lease, and no entry with a deadline waits on it.
-/

namespace Scheduler

open Machine List Option

variable {s t : SeedScheduler}

/-- A run whose instants do not decrease, with the instant it has reached. -/
inductive World.Timed : World → Nat → Prop
  | start {ownerEpoch : OwnerEpoch} {config : SchedulerConfig} {takeover : List InstanceId}
      {nameSpace : Option Nat} {now : Nat} {s : SeedScheduler}
      (made : SeedScheduler.new ownerEpoch config takeover nameSpace now = .ok s) :
      Timed (World.start s) 0
  | step {w : World} {clock : Nat} {command : Command} (run : Timed w clock)
      (legal : w.Legal command) (later : ∀ now, command.instant = some now → clock ≤ now) :
      Timed (w.step command) (command.instant.getD clock)

lemma World.Timed.reachable {w : World} {clock : Nat} (run : w.Timed clock) : w.Reachable := by
  induction run with
  | start made => exact ⟨_, _, _, _, _, _, made, .refl⟩
  | step _ legal _ ih => exact ih.step legal

/-- An instance still cooling down holds no lease, and nothing with a deadline waits on it. -/
structure Cooling (clock : Nat) (state : InstanceState) : Prop where
  inRange : state.cooldownUntilMonotonicMs ≤ u64Max
  idle : clock < state.cooldownUntilMonotonicMs → state.lease = none ∧
    ∀ entry ∈ state.queue, entry.deadlineMonotonicMs = claimNoDeadlineMonotonicMs

variable {clock : Nat} {state : InstanceState}

lemma Cooling.later {instant : Nat} (cooling : Cooling clock state) (passed : clock ≤ instant) :
    Cooling instant state :=
  ⟨cooling.inRange, fun hot => cooling.idle (passed.trans_lt hot)⟩

/-- A record that is cooled down needs nothing else. -/
theorem Cooling.cooled {next : InstanceState} (cooling : Cooling clock state)
    (same : next.cooldownUntilMonotonicMs = state.cooldownUntilMonotonicMs)
    (cool : state.cooldownUntilMonotonicMs ≤ clock) : Cooling clock next where
  inRange := same ▸ cooling.inRange
  idle hot := absurd cool (not_le.mpr (same ▸ hot))

theorem Cooling.held {lease : LeaseEntry} (cooling : Cooling clock state)
    (held : state.lease = some lease) : state.cooldownUntilMonotonicMs ≤ clock := by
  by_contra hot
  obtain ⟨free, _⟩ := cooling.idle (not_le.mp hot)
  exact absurd (held.symm.trans free) (by simp)

lemma Calm.cooling (calm : Calm s t) (j : InstanceId) (cooling : Cooling clock (s.stateAt j)) :
    Cooling clock (t.stateAt j) := by
  rcases calm.cooldown j with kept | ended
  · have same : t.stateAt j = s.stateAt j := by rw [calm.state j, kept]
    rw [same]
    exact cooling
  · exact ⟨by rw [ended]; exact Nat.zero_le _, fun hot => by rw [ended] at hot; omega⟩

lemma Writes.cooling {m} {i : InstanceId}
    (writes : Writes s m i state) (cooling : ∀ j, Cooling clock (s.stateAt j))
    (here : Cooling clock state) (j : InstanceId) : Cooling clock (recordAt m j) := by
  rw [writes j]
  split
  · exact here
  · exact cooling j

lemma Change.cooling {scope : Scope} {a b} (change : Change scope a b) (timed : scope.now ≤ clock)
    (cooling : ∀ j, Cooling clock (a.1.stateAt j)) : ∀ j, Cooling clock (b.1.stateAt j) := by
  cases change with
  | calm calm | prepare _ calm => exact fun j => calm.cooling j (cooling j)
  | forget => exact cooling
  | shrink i queue sub writes =>
    refine writes.cooling cooling ⟨(cooling i).inRange, fun hot => ?_⟩
    obtain ⟨free, deadlines⟩ := (cooling i).idle hot
    refine ⟨?_, fun entry waiting => deadlines entry (sub.subset waiting)⟩
    rw [refreshPreemptRequested, free, map_none]
  | enqueue i entry _ _ _ timely writes =>
    refine writes.cooling cooling ⟨(cooling i).inRange, fun hot => ?_⟩
    obtain ⟨free, deadlines⟩ := (cooling i).idle hot
    refine ⟨by rw [refreshPreemptRequested, free, map_none], fun other waiting => ?_⟩
    rcases mem_append.mp ((sortQueue_perm _).mem_iff.mp waiting) with old | new
    · exact deadlines other old
    rw [mem_singleton.mp new]
    rcases timely with endless | held | cool
    · exact endless
    · exact absurd free held
    · exact absurd (cool.trans timed) (not_le.mpr hot)
  | grant p queue _ _ cooled _ writes =>
    exact writes.cooling cooling ((cooling _).cooled rfl (cooled.trans timed))
  | transfer p queue record held _ _ _ _ writes
  | renew i lease token lastRenew held _ _ _ _ writes
  | openStep i lease stepId purpose held _ _ writes | closeStep i lease held writes
  | endLease i lease record held _ _ writes =>
    exact writes.cooling cooling ((cooling _).cooled rfl ((cooling _).held held))

lemma World.Timed.cooling {w : World} (run : w.Timed clock) :
    ∀ j, Cooling clock (w.scheduler.stateAt j) := by
  induction run with
  | start made =>
    intro j
    obtain ⟨_, _, _, _, _, states⟩ := new_ok made
    obtain ⟨cooldown, inRange, state⟩ := states j
    rw [show (World.start _).scheduler.stateAt j = _ from state]
    exact ⟨inRange, fun _ => ⟨rfl, fun _ waiting => absurd waiting not_mem_nil⟩⟩
  | @step v clock command run legal later ih =>
    have passed : clock ≤ command.instant.getD clock := by
      cases instant : command.instant with
      | none => exact le_rfl
      | some now => exact later now instant
    have timed : (scopeOf command (v.answer command)).now ≤ command.instant.getD clock := by
      change command.instant.getD 0 ≤ command.instant.getD clock
      cases command.instant with
      | none => exact Nat.zero_le _
      | some now => exact le_rfl
    exact (World.step_changes run.reachable.bounded legal).preserve
      (fun c => ∀ j, Cooling (command.instant.getD clock) (c.1.stateAt j))
      (fun change => change.cooling timed) (fun j => (ih j).later passed)

end Scheduler
