import ActingCommand.Scheduler.Conservation

/-!
# The policy's read and its admission

The policy plans with three reads of the scheduler: the active lease, the first entry the gate
lets through, and the rest of the takeover cooldown. They find the instance free exactly when
the admission of a policy dispatch grants it, a repetition of the holder's own request apart.
-/

namespace Scheduler

open Machine Call SchedulerM Option Except

variable {s t : SeedScheduler} {now : Nat}

/-! ## The reads -/

/-- The host's reading of an instance: who holds it or waits for it, or how long it still
cools down. -/
inductive InstanceOccupancy
  | held (holderKind : ClaimKind) (count : Nat)
  | cooldown (untilUnixMs : Nat)

namespace SeedScheduler

section

variable (s : SeedScheduler) (laneHeld : Bool) (instanceId : InstanceId) (gate : ClaimGate)
  (now : Nat)

/-- The kind of the holder, of the policy run handed to the instance's worker, or of the first
entry the gate lets through. A lapsed holder is no hold. -/
def holderKind : Option ClaimKind :=
  (((s.activeLease instanceId).filter fun lease =>
      now < lease.token.expiresAtMonotonicMs).map (·.kind)).or
    ((if laneHeld then some .policyDispatch else none).or (s.firstEligibleKind instanceId gate now))

/-- `instance_occupancy`: no value where the end of the cooldown overflows the host's clock. -/
def instanceOccupancy (nowUnixMs : Nat) : Option (Option InstanceOccupancy) :=
  match s.holderKind laneHeld instanceId gate now with
  | some kind => some (some (.held kind (s.eligibleCount instanceId gate now)))
  | none =>
    match s.cooldownRemainingMs instanceId now with
    | none => some none
    | some remainingMs =>
      (checkedAdd nowUnixMs remainingMs).map fun untilUnixMs => some (.cooldown untilUnixMs)

/-- No holder, no entry that the gate lets through, and no cooldown. -/
def ReadsFree : Prop :=
  s.activeLease instanceId = none ∧ s.firstEligibleKind instanceId gate now = none ∧
    s.cooldownRemainingMs instanceId now = none

instance (s : SeedScheduler) (instanceId : InstanceId) (gate : ClaimGate) (now : Nat) :
    Decidable (s.ReadsFree instanceId gate now) :=
  inferInstanceAs (Decidable (_ ∧ _ ∧ _))

/-- The host reads an instance whose lane is free as unoccupied exactly when the three reads
find it free, as long as no lapsed lease is waiting for its end. -/
theorem instanceOccupancy_free_iff (nowUnixMs : Nat)
    (live : ∀ lease, s.activeLease instanceId = some lease →
      now < lease.token.expiresAtMonotonicMs) :
    s.instanceOccupancy false instanceId gate now nowUnixMs = some none ↔
      s.ReadsFree instanceId gate now := by
  unfold instanceOccupancy holderKind ReadsFree
  cases held : s.activeLease instanceId with
  | some lease => simp [Option.filter, live lease held]
  | none =>
    cases first : s.firstEligibleKind instanceId gate now with
    | some kind => simp
    | none =>
      cases remaining : s.cooldownRemainingMs instanceId now with
      | none => simp
      | some remainingMs => simp

lemma cooldownRemainingMs_eq_none_iff : s.cooldownRemainingMs instanceId now = none ↔
      (s.stateAt instanceId).cooldownUntilMonotonicMs ≤ now := by
  rw [cooldownRemainingMs, stateAt, recordAt]
  cases s.instances[instanceId]? with
  | none => simp
  | some state =>
    rw [bind_some, getD_some]
    by_cases reached : now ≤ state.cooldownUntilMonotonicMs
    · rw [if_pos reached]
      simp only [filter_eq_none_iff, some.injEq, forall_eq', decide_eq_true_eq]
      omega
    rw [if_neg reached]
    simp only [filter_none, true_iff]
    omega

end

end SeedScheduler

/-! ## The admission -/

def LeaseEntry.Repeats (lease : LeaseEntry) (claim : ClaimRequest) : Prop :=
  lease.acquireRequestId = claim.requestId ∧ lease.connectionId = claim.connectionId ∧
    lease.token.holderId = claim.holderId

/-- A claim's lease fits into the counters: its expiry and its identifier. -/
structure Fits (s : SeedScheduler) (claim : ClaimRequest) (now : Nat) : Prop where
  ttl : s.validateClaimTtl claim.leaseTtlMs = .ok ()
  expiry : now + claim.leaseTtlMs ≤ u64Max
  identifier : s.leaseIssuer.nextSequence + 1 ≤ u64Max

lemma validateClaimTtl_positive {leaseTtlMs : Nat} {u : Unit}
    (valid : s.validateClaimTtl leaseTtlMs = .ok u) : 0 < leaseTtlMs := by
  simp only [SeedScheduler.validateClaimTtl, bind_ok_iff, failIf_ok_iff] at valid
  obtain ⟨_, _, inside⟩ := valid
  omega

/-- The admission of a policy dispatch on a free instance grants a new lease; on a held one it
answers the holder's own repetition, and nothing else. -/
theorem prepareClaimAcquire_ok_iff {claim : ClaimRequest} {gate : ClaimGate}
    {r} (dispatch : claim.kind = .policyDispatch)
    (fits : Fits s claim now) (step : Steps (prepareClaimAcquire claim gate now) s r t) :
    (∃ preparation, r = .ok preparation) ↔
      (s.stateAt claim.instanceId).cooldownUntilMonotonicMs ≤ now ∧
        (((s.stateAt claim.instanceId).lease = none ∧
            firstEligible (s.stateAt claim.instanceId) gate now = none) ∨
          ∃ lease, (s.stateAt claim.instanceId).lease = some lease ∧
            now < lease.token.expiresAtMonotonicMs ∧ lease.Repeats claim) := by
  simp only [prepareClaimAcquire, steps_get_bind, steps_read_bind] at step
  rcases step with ⟨e, failed, _⟩ | ⟨_, _, step⟩
  · exact absurd (fits.ttl.symm.trans failed) (by simp)
  rcases (prepareAcquireWithPolicy_steps step).2 with ⟨_, rfl, hot⟩ |
    ⟨_, rfl, lease, held, foreign⟩ | ⟨lease, rfl, cool, held, live, own⟩ | ⟨_, rfl, free, first⟩ |
    ⟨_, _, _, kind⟩ | ⟨_, _, _, _, full⟩ | ⟨p, rfl, cool, fresh, _⟩
  · simp only [reduceCtorEq, exists_false, false_iff, not_and]
    exact fun cool => absurd cool (not_le.mpr hot)
  · simp only [held, reduceCtorEq, exists_false, false_and, some.injEq, exists_eq_left',
      false_or, false_iff, not_and]
    exact fun _ live own => foreign ⟨live, own⟩
  · exact ⟨fun _ => ⟨cool, Or.inr ⟨lease, held, live, own⟩⟩, fun _ => ⟨_, rfl⟩⟩
  · simp [free, first]
  · exact absurd dispatch kind
  · exact absurd ⟨validateClaimTtl_positive fits.ttl, fits.expiry, fits.identifier⟩ full
  · exact ⟨fun _ => ⟨cool, Or.inl ⟨fresh.free, fresh.unclaimed⟩⟩, fun _ => ⟨_, rfl⟩⟩

/-- The policy's reads find an instance free exactly when a policy dispatch that fits is
admitted there under the same gate at the same instant, unless the dispatch repeats the request
that acquired the active lease. -/
theorem policy_read_agrees (w : World) (claim : ClaimRequest) (gate : ClaimGate) (now : Nat)
    (dispatch : claim.kind = .policyDispatch) (fits : Fits w.scheduler claim now)
    (foreign : ∀ lease, w.scheduler.leaseOf claim.instanceId = some lease →
      ¬ lease.Repeats claim) :
    w.scheduler.ReadsFree claim.instanceId gate now ↔
      ∃ preparation, w.answer (.prepareClaimAcquire claim gate now) =
        .ok (.prepared preparation) := by
  obtain ⟨q, step, answer⟩ := steps_map.mp (w.step_steps (.prepareClaimAcquire claim gate now))
  have answered : (∃ preparation, w.answer (.prepareClaimAcquire claim gate now) =
      .ok (.prepared preparation)) ↔ ∃ preparation, q = .ok preparation := by
    rw [answer]
    cases q with
    | error | ok => simp [Except.map]
  -- An instance the scheduler does not know has no entries.
  have unclaimed : w.scheduler.firstEligibleKind claim.instanceId gate now = none ↔
      firstEligible (w.scheduler.stateAt claim.instanceId) gate now = none := by
    rw [SeedScheduler.firstEligibleKind, SeedScheduler.stateAt, recordAt]
    cases w.scheduler.instances[claim.instanceId]? with
    | none => simp [firstEligible]
    | some state => simp
  rw [answered, prepareClaimAcquire_ok_iff dispatch fits step, SeedScheduler.ReadsFree,
    SeedScheduler.activeLease, map_eq_none_iff, SeedScheduler.leaseOf_eq_stateAt, unclaimed,
    SeedScheduler.cooldownRemainingMs_eq_none_iff]
  constructor
  · rintro ⟨free, first, cool⟩
    exact ⟨cool, Or.inl ⟨free, first⟩⟩
  · rintro ⟨cool, ⟨free, first⟩ | ⟨lease, held, _, own⟩⟩
    · exact ⟨free, first, cool⟩
    · rw [← SeedScheduler.leaseOf_eq_stateAt] at held
      exact absurd own (foreign lease held)

namespace Sample

/-- A policy dispatch of the first client's holder. -/
def dispatch : ClaimRequest where
  requestId := ⟨1⟩
  instanceId := instanceId
  holderId := ⟨1⟩
  connectionId := connection
  kind := .policyDispatch
  priority := .normal
  leaseTtlMs := 120000

/-- The dispatch is admitted and its lease committed. -/
def dispatching : List Command :=
  [.prepareClaimAcquire dispatch .open 0,
    .commitAcquire (.new ⟨token, connection, ⟨1⟩, .normal, false, .policyDispatch, false⟩) 0]

end Sample

open Sample

/-- The holder repeats its dispatch: the reads find the instance held, yet the admission answers
the lease it holds. -/
theorem policy_read_differs_on_repetition :
    (world.run dispatching).Reachable ∧
    Fits (world.run dispatching).scheduler dispatch 5 ∧
    (∀ lease, (world.run dispatching).scheduler.activeLease instanceId =
      some lease → 5 < lease.token.expiresAtMonotonicMs) ∧
    ¬ (world.run dispatching).scheduler.ReadsFree instanceId .open 5 ∧
    (world.run dispatching).answer (.prepareClaimAcquire dispatch .open 5) =
      .ok (.prepared (.existing token)) := by
  refine ⟨reachable (by decide +kernel), ⟨rfl, by decide, by decide⟩, ?_,
    by decide +kernel, by decide +kernel⟩
  intro lease held
  obtain rfl := some.inj held
  decide

/-- On a new scheduler the dispatch is admitted, and on an instance held by a client it is
not. -/
theorem policy_read_agrees_held :
    (∃ preparation, world.answer (.prepareClaimAcquire dispatch .open 0) =
      .ok (.prepared preparation)) ∧
    ¬ ∃ preparation, (world.run [acquireNext]).answer
      (.prepareClaimAcquire dispatch .open 30) = .ok (.prepared preparation) := by
  constructor
  · refine (policy_read_agrees world dispatch .open 0 rfl
      ⟨rfl, by decide, by decide⟩ ?_).mp (by decide +kernel)
    intro lease held
    cases held
  · refine fun admitted => absurd ((policy_read_agrees (world.run [acquireNext])
      dispatch .open 30 rfl ⟨rfl, by decide, by decide⟩ ?_).mpr admitted)
      (by decide +kernel)
    intro lease held own
    obtain rfl := some.inj held
    exact absurd own.1 (by decide)

end Scheduler
