import ActingCommand.Scheduler.LeaseIndex

/-!
# Fencing

A lease that has ended stays ended: its identifier is never active again and is in nobody's
hands, so every later call with a token that carries it is refused. The one exception is
the replay of the release that ended it, which answers its record and changes nothing.
-/

namespace Scheduler

open Machine Call SchedulerM List Option Except Sample

variable {scope : Scope} {s : SeedScheduler} {leaseId : LeaseId} {token : LeaseToken}
  {a b : SeedScheduler × List Outstanding}

/-! ## Spent identifiers -/

variable (leaseId a) in
/-- Minted, and no preparation in hand can still bring the identifier. -/
structure NotPending : Prop where
  issued : Issued a.1 leaseId
  absent : ∀ o ∈ a.2, o.leaseId ≠ leaseId

lemma Change.notPending (change : Change scope a b) (before : NotPending leaseId a) :
    NotPending leaseId b := by
  cases change with
  | calm calm => exact ⟨before.issued.calm calm, before.absent⟩
  | prepare o calm minted =>
    refine ⟨before.issued.calm calm, ?_⟩
    intro other held
    rcases mem_cons.mp held with rfl | old
    · exact minted.ne before.issued
    · exact before.absent other old
  | forget fewer => exact ⟨before.issued, fun o held => before.absent o (fewer.subset held)⟩
  | grant | transfer =>
    exact ⟨before.issued, fun o held => before.absent o (mem_cons_of_mem _ held)⟩
  | shrink | enqueue | renew | openStep | closeStep | endLease =>
    exact ⟨before.issued, before.absent⟩

lemma locatedAt_moved (s : SeedScheduler) (i : InstanceId) (old : LeaseId) {new}
    (other : new ≠ leaseId) : ((s.leaseLocations.erase old).insert new i)[leaseId]? =
      if some old = some leaseId then none else locatedAt s leaseId := by
  rw [locatedAt_insert { s with leaseLocations := s.leaseLocations.erase old },
    if_neg (by simpa using other)]
  exact locatedAt_erase s _ _

variable (leaseId a) in
/-- Minted, not active, and in nobody's hands. -/
structure Spent : Prop extends
    NotPending leaseId a where
  unlocated : locatedAt a.1 leaseId = none

/-- A lease in nobody's hands stays where it is, unless the call may end it. -/
theorem Change.located (change : Change scope a b) (absent : ∀ o ∈ a.2, o.leaseId ≠ leaseId) :
    locatedAt b.1 leaseId = locatedAt a.1 leaseId ∨
      scope.ends leaseId ∧ locatedAt b.1 leaseId = none := by
  cases change with
  | calm calm | prepare o calm => exact .inl (by rw [locatedAt, calm.leaseLocations, locatedAt])
  | grant p =>
    have other : p.token.leaseId ≠ leaseId := absent (.lease p) (mem_cons_self ..)
    exact .inl ((locatedAt_insert _ _ _ _).trans (if_neg (by simpa using other)))
  | @transfer s _ _ p _ _ _ _ _ ended =>
    have other : p.toToken.leaseId ≠ leaseId := absent (.transfer p) (mem_cons_self ..)
    have moved := locatedAt_moved s p.source.token.instanceId p.source.token.leaseId other
    split at moved
    · rename_i old
      exact .inr ⟨some.inj old ▸ ended, moved⟩
    · exact .inl moved
  | @endLease s _ _ _ lease _ _ ended =>
    have erased := locatedAt_erase s lease.token.leaseId leaseId
    split at erased
    · rename_i old
      exact .inr ⟨some.inj old ▸ ended, erased⟩
    · exact .inl erased
  | forget | shrink | enqueue | renew | openStep | closeStep => exact .inl rfl

lemma Change.spent (change : Change scope a b) (spent : Spent leaseId a) : Spent leaseId b := by
  refine ⟨change.notPending spent.toNotPending, ?_⟩
  rcases change.located spent.absent with same | ⟨_, gone⟩
  · exact same.trans spent.unlocated
  · exact gone

variable {i : InstanceId}

lemma Change.keeps_located (change : Change scope a b) (kept : ¬ scope.ends leaseId)
    (indexed : LeasesIndexed a) (located : locatedAt a.1 leaseId = some i) :
    locatedAt b.1 leaseId = some i := by
  have absent : ∀ o ∈ a.2, o.leaseId ≠ leaseId := by
    rintro o pending rfl
    cases located.symm.trans (indexed.pending o pending).2.1
  rcases change.located absent with same | ⟨ended, _⟩
  · exact same.trans located
  · exact absurd ended kept

/-! ## What the replays remember -/

variable (a) in
/-- The replay of a renewal belongs to the lease that keeps it, and the replay of a release to a
lease that is spent. -/
structure ReplaysOwned : Prop where
  renewals : ∀ i lease record, (a.1.stateAt i).lease = some lease →
    lease.lastRenew = some record → record.submittedToken.leaseId = lease.token.leaseId
  releases : ∀ i record, (a.1.stateAt i).lastRelease = some record →
    Spent record.submittedToken.leaseId a

/-- What a rewritten record must satisfy for its renewals to be its own. -/
def RenewalOwned (state : InstanceState) : Prop :=
  ∀ lease record, state.lease = some lease → lease.lastRenew = some record →
    record.submittedToken.leaseId = lease.token.leaseId

lemma RenewalOwned.refresh {state} (owned : RenewalOwned state) :
    RenewalOwned (refreshPreemptRequested state) := by
  intro lease record held renewed
  obtain ⟨old, before, rfl⟩ := map_eq_some_iff.mp held
  exact owned old record before renewed

lemma LeasesIndexed.notPending (indexed : LeasesIndexed a)
    (located : locatedAt a.1 leaseId = some i) : NotPending leaseId a := by
  refine ⟨indexed.issued leaseId i located, ?_⟩
  rintro o pending rfl
  rw [(indexed.pending o pending).2.1] at located
  cases located

lemma Writes.lastRelease {m j state record} (writes : Writes s m i state)
    (recorded : (recordAt m j).lastRelease = some record) :
    (i = j ∧ state.lastRelease = some record) ∨ (s.stateAt j).lastRelease = some record := by
  rw [writes j] at recorded
  split at recorded
  · rename_i same
    exact .inl ⟨same, recorded⟩
  · exact .inr recorded

/-- A release record is an old one, or the call ended the lease it is about. -/
theorem Change.released {j record} (change : Change scope a b) (indexed : LeasesIndexed a)
    (recorded : (b.1.stateAt j).lastRelease = some record) :
    (a.1.stateAt j).lastRelease = some record ∨
      (scope.records record ∧ ∃ i, locatedAt a.1 record.submittedToken.leaseId = some i ∧
        locatedAt b.1 record.submittedToken.leaseId = none) := by
  -- A write that keeps the record of its instance.
  have keeps : ∀ {s : SeedScheduler} {m : Std.ExtTreeMap InstanceId InstanceState}
      {i : InstanceId} {state : InstanceState}, Writes s m i state →
      state.lastRelease = (s.stateAt i).lastRelease →
      (recordAt m j).lastRelease = some record → (s.stateAt j).lastRelease = some record := by
    intro s m i state writes same recorded
    rcases writes.lastRelease recorded with ⟨rfl, here⟩ | old
    · rwa [same] at here
    · exact old
  cases change with
  | calm calm | prepare o calm => exact .inl (by rwa [calm.lastRelease] at recorded)
  | forget => exact .inl recorded
  | shrink _ _ _ writes | enqueue _ _ _ _ _ _ writes | renew _ _ _ _ _ _ _ _ _ writes
  | openStep _ _ _ _ _ _ _ writes | closeStep _ _ _ writes => exact .inl (keeps writes rfl recorded)
  | grant _ _ _ _ _ _ writes =>
    rcases writes.lastRelease recorded with ⟨_, here⟩ | old
    · cases here
    · exact .inl old
  | @transfer s out m p queue kept held _ _ _ about writes =>
    rcases writes.lastRelease recorded with ⟨_, here⟩ | old
    · obtain ⟨allowed, submitted⟩ := about record here
      have located : locatedAt s p.source.token.leaseId = some p.source.token.instanceId :=
        (indexed.exact _ _).mpr (heldId_eq_some_iff.mpr ⟨p.source, held, rfl⟩)
      have other : p.toToken.leaseId ≠ p.source.token.leaseId :=
        (indexed.notPending located).absent (.transfer p) (mem_cons_self ..)
      rw [submitted]
      exact .inr ⟨allowed, _, located, (locatedAt_moved s _ _ other).trans (if_pos rfl)⟩
    · exact .inl old
  | @endLease s out m i lease kept held _ about writes =>
    rcases writes.lastRelease recorded with ⟨_, here⟩ | old
    · obtain ⟨allowed, submitted⟩ := about record here
      rw [submitted]
      exact .inr ⟨allowed, i,
        (indexed.exact _ _).mpr (heldId_eq_some_iff.mpr ⟨lease, held, rfl⟩),
        (locatedAt_erase s _ _).trans (if_pos rfl)⟩
    · exact .inl old

lemma Change.replaysOwned (change : Change scope a b) (indexed : LeasesIndexed a)
    (owned : ReplaysOwned a) : ReplaysOwned b := by
  refine ⟨?_, ?_⟩
  · -- Only a grant, a transfer and a renewal write the replay of a renewal.
    have rewritten : ∀ {s : SeedScheduler} {m : Std.ExtTreeMap InstanceId InstanceState}
        {i : InstanceId} {state : InstanceState}, Writes s m i state →
        (∀ j, RenewalOwned (s.stateAt j)) → RenewalOwned state →
        ∀ j, RenewalOwned (recordAt m j) := by
      intro s m i state writes old new j
      rw [writes j]
      split
      · exact new
      · exact old j
    have old : ∀ j, RenewalOwned (a.1.stateAt j) := fun j lease record =>
      owned.renewals j lease record
    suffices all : ∀ j, RenewalOwned (b.1.stateAt j) from fun j lease record => all j lease record
    cases change with
    | calm calm | prepare o calm =>
      intro j lease record held
      rw [calm.lease] at held
      exact old j lease record held
    | forget => exact old
    | shrink i _ _ writes | enqueue i _ _ _ _ _ writes =>
      exact rewritten writes old (RenewalOwned.refresh (old i))
    | grant _ _ _ _ _ _ writes | transfer _ _ _ _ _ _ _ _ writes =>
      exact rewritten writes old (by rintro _ _ ⟨rfl⟩ ⟨⟩)
    | renew i lease token lastRenew held sameLease _ _ record writes =>
      refine rewritten writes old ?_
      rintro _ kept ⟨rfl⟩ renewed
      rw [sameLease]
      rcases record kept renewed with before | submitted
      · exact old i lease kept held before
      · rw [submitted]
    | openStep i lease _ _ held _ _ writes | closeStep i lease held writes =>
      refine rewritten writes old ?_
      rintro _ kept ⟨rfl⟩ renewed
      exact old i lease kept held renewed
    | endLease _ _ _ _ _ _ writes => exact rewritten writes old (by rintro _ _ ⟨⟩)
  · intro j record recorded
    rcases change.released indexed recorded with before | ⟨_, i, located, unlocated⟩
    · exact change.spent (owned.releases j record before)
    · exact ⟨change.notPending (indexed.notPending located), unlocated⟩

variable {w : World}

lemma World.Reachable.replaysOwned (reachable : w.Reachable) :
    ReplaysOwned (w.scheduler, w.outstanding) := by
  have both := reachable.change_invariant (fun a => LeasesIndexed a ∧ ReplaysOwned a) ?_ ?_
  · exact both.2
  · intro _ _ _ _ _ s made
    obtain ⟨_, _, _, _, _, states⟩ := new_ok made
    refine ⟨new_leasesIndexed made, ?_, ?_⟩
    · intro i lease record held
      obtain ⟨cooldown, _, state⟩ := states i
      rw [state] at held
      cases held
    intro i record recorded
    obtain ⟨cooldown, _, state⟩ := states i
    rw [state] at recorded
    cases recorded
  · rintro scope a b change ⟨indexed, owned⟩
    exact ⟨change.leasesIndexed indexed, change.replaysOwned indexed owned⟩

/-- Every release record was written by a call of the run. -/
theorem World.Reachable.recorded {w : World} (reachable : w.Reachable) {i record}
    (recorded : (w.scheduler.stateAt i).lastRelease = some record) :
    ∃ command answer, (command, answer) ∈ w.history ∧ recordsOf command answer record := by
  have all := reachable.invariant (fun v => v.Reachable ∧ ∀ i record,
    (v.scheduler.stateAt i).lastRelease = some record →
      ∃ command answer, (command, answer) ∈ v.history ∧ recordsOf command answer record) ?_ ?_
  · exact all.2 i record recorded
  · intro epoch config takeover nameSpace now s made
    refine ⟨⟨epoch, config, takeover, nameSpace, now, s, made, .refl⟩, ?_⟩
    intro i record recorded
    obtain ⟨_, _, _, _, _, states⟩ := new_ok made
    obtain ⟨cooldown, _, state⟩ := states i
    change (s.stateAt i).lastRelease = some record at recorded
    rw [state] at recorded
    cases recorded
  rintro v command ⟨reached, written⟩ legal
  refine ⟨reached.step legal, ?_⟩
  have changes := World.step_changes reached.bounded legal
  have origin := changes.preserve (fun b => LeasesIndexed b ∧ ∀ i record,
      (b.1.stateAt i).lastRelease = some record →
        (v.scheduler.stateAt i).lastRelease = some record ∨
          recordsOf command (v.answer command) record)
    (by
      rintro a b change ⟨indexed, before⟩
      refine ⟨change.leasesIndexed indexed, ?_⟩
      intro i record recorded
      rcases change.released indexed recorded with old | ⟨allowed, _⟩
      · exact before i record old
      · exact .inr allowed)
    ⟨reached.leasesIndexed, fun i record old => .inl old⟩
  intro i record recorded
  rcases origin.2 i record recorded with old | now
  · obtain ⟨past, answered, listed, about⟩ := written i record old
    exact ⟨past, answered, mem_cons_of_mem _ listed, about⟩
  · exact ⟨command, v.answer command, mem_cons_self .., now⟩

/-! ## Refused calls -/

lemma locateLease_unlocated (unlocated : locatedAt s token.leaseId = none)
    (located : InstanceState × LeaseEntry) : s.locateLease token ≠ .ok located := by
  intro passed
  obtain ⟨_, found, _⟩ := locateLease_ok_iff.mp passed
  exact absurd (unlocated.symm.trans found) (by simp)

variable {connectionId : ConnectionId}

lemma transferableLease_unlocated (unlocated : locatedAt s token.leaseId = none)
    (lease : LeaseEntry) : s.transferableLease token connectionId ≠ .ok lease := by
  intro passed
  obtain ⟨_, found, _⟩ := transferableLease_ok passed
  exact absurd (unlocated.symm.trans found) (by simp)

variable {now : Nat}

lemma validateCurrentLease_unlocated (unlocated : locatedAt s token.leaseId = none)
    (lease : LeaseEntry) : s.validateCurrentLease token connectionId now ≠ .ok lease := by
  intro passed
  exact absurd (unlocated.symm.trans (validateCurrentLease_ok passed).1) (by simp)

/-- The token a call is made with, for the calls that act on a lease. A release is apart: it
may replay. -/
def Command.carried : Command → Option LeaseToken
  | .beginDestructiveStep token _ _ | .beginResourceClose token _ _
  | .prepareTransfer token _ _ _ _ | .prepareTransferGated token _ _ _ _ _
  | .prepareHandOff token _ _ _ _ _ | .prepareReleaseHandOff token _ _ _ _ _
  | .renewWithTtl token _ _ _ | .renew _ token _ _ | .expireToken token _
  | .releaseOwned token _ _ | .rollbackLease token => some token
  | .finishDestructiveStep witness _ => some witness.token
  | _ => none

lemma prepareClaimHandOff_unlocated {reason releaseRequestId claim gate}
    (unlocated : locatedAt s token.leaseId = none) :
    Refuses (prepareClaimHandOff token connectionId reason releaseRequestId claim gate now) s :=
  refuses_get_bind (refuses_read_bind fun _ _ => refuses_failIf_bind fun _ =>
    refuses_read_bind fun lease passed =>
      absurd passed (transferableLease_unlocated unlocated lease))

lemma prepareTransferGated_unlocated {reason releaseRequestId gate}
    (unlocated : locatedAt s token.leaseId = none) :
    Refuses (prepareTransferGated token connectionId reason releaseRequestId gate now) s :=
  refuses_get_bind (refuses_failIf_bind fun _ =>
    refuses_read_bind fun lease passed =>
      absurd passed (transferableLease_unlocated unlocated lease))

variable {out : List Outstanding}

/-- No active lease has an identifier that is not in the index. -/
theorem LeasesIndexed.not_held (indexed : LeasesIndexed (s, out))
    (unlocated : locatedAt s leaseId = none) {lease}
    (held : (s.stateAt i).lease = some lease) : lease.token.leaseId ≠ leaseId := by
  intro same
  have located := (indexed.exact leaseId i).mpr (heldId_eq_some_iff.mpr ⟨lease, held, same⟩)
  exact absurd (unlocated.symm.trans located) (by simp)

variable {command : Command}

/-- Every call with a token of an unlocated lease is refused and changes nothing. -/
theorem exec_unlocated (indexed : LeasesIndexed (s, out)) (owned : ReplaysOwned (s, out))
    (unlocated : locatedAt s token.leaseId = none) (carried : command.carried = some token) :
    Refuses (exec command) s := by
  cases command with
  | beginDestructiveStep _ connectionId now =>
    obtain rfl := some.inj carried
    refine Refuses.map (refuses_get_bind (refuses_read_bind fun _ passed => ?_)) _
    obtain ⟨lease, current⟩ := validateWrite_ok passed
    exact absurd current (validateCurrentLease_unlocated unlocated lease)
  | beginResourceClose _ connectionId now =>
    obtain rfl := some.inj carried
    exact Refuses.map (refuses_get_bind (refuses_read_bind fun lease passed =>
      absurd passed (validateCurrentLease_unlocated unlocated lease))) _
  | finishDestructiveStep | expireToken | rollbackLease =>
    obtain rfl := some.inj carried
    exact Refuses.map (refuses_get_bind (refuses_read_bind fun located passed =>
      absurd passed (locateLease_unlocated unlocated located))) _
  | prepareTransfer | prepareTransferGated =>
    obtain rfl := some.inj carried
    exact (prepareTransferGated_unlocated unlocated).map _
  | prepareHandOff =>
    obtain rfl := some.inj carried
    exact Refuses.map (refuses_failIf_bind fun _ => prepareClaimHandOff_unlocated unlocated) _
  | prepareReleaseHandOff =>
    obtain rfl := some.inj carried
    exact (prepareClaimHandOff_unlocated unlocated).map _
  | renewWithTtl =>
    obtain rfl := some.inj carried
    refine Refuses.map (fun r t step => ?_) _
    rcases renewWithTtl_steps step with ⟨e, rfl, rfl⟩ | ⟨lease, _, rfl, _, _, becomes⟩
    · exact ⟨⟨e, rfl⟩, rfl⟩
    · exact absurd rfl (indexed.not_held unlocated becomes.held)
  | renew =>
    obtain rfl := some.inj carried
    refine Refuses.map (fun r t step => ?_) _
    rcases renew_steps step with ⟨e, rfl, rfl⟩ | ⟨renewed, recorded, _, _⟩ |
      ⟨lease, _, rfl, _, _, becomes⟩
    · exact ⟨⟨e, rfl⟩, rfl⟩
    · -- A replayed renewal would belong to the lease that keeps it.
      obtain ⟨lease, held, noted⟩ := bind_eq_some_iff.mp recorded.2
      obtain ⟨record, kept, ⟨⟩⟩ := map_eq_some_iff.mp noted
      exact absurd (owned.renewals _ lease _ held kept).symm (indexed.not_held unlocated held)
    · exact absurd rfl (indexed.not_held unlocated becomes.held)
  | releaseOwned =>
    obtain rfl := some.inj carried
    exact Refuses.map (refuses_get_bind (refuses_failIf_bind fun _ =>
      refuses_read_bind fun located passed =>
        absurd passed (locateLease_unlocated unlocated located))) _
  | _ => cases carried

/-! ## The end of a lease -/

variable (s leaseId) in
/-- Some instance holds the lease. -/
def SeedScheduler.Active : Prop :=
  ∃ i lease, s.leaseOf i = some lease ∧ lease.token.leaseId = leaseId

lemma LeasesIndexed.active_iff (indexed : LeasesIndexed (s, out)) :
    s.Active leaseId ↔ ∃ i, locatedAt s leaseId = some i := by
  unfold SeedScheduler.Active
  refine exists_congr fun i => ?_
  rw [indexed.exact leaseId i, heldId_eq_some_iff, SeedScheduler.leaseOf_eq_stateAt]

lemma EndsWith.unlocated {t} (ends : EndsWith token s t) : locatedAt t token.leaseId = none := by
  obtain ⟨state, lease, _, rfl, rfl⟩ := ends
  exact (locatedAt_erase s _ _).trans (if_pos rfl)

section

variable (reachable : w.Reachable) (legal : w.Legal command)
  (located : locatedAt w.scheduler leaseId = some i)

include reachable legal located

/-- The calls that end a lease take it out of the index. -/
theorem World.Reachable.ended_unlocated (ended : endsOf command (w.answer command) leaseId) :
    locatedAt (w.step command).scheduler leaseId = none := by
  have ran := w.step_steps command
  generalize w.answer command = r at ended ran
  cases command with
  | release requestId token connectionId now =>
    obtain ⟨q, step, rfl⟩ := steps_map.mp ran
    rcases release_steps step with ⟨e, rfl, _⟩ | ⟨released, recorded, rfl, _⟩ |
      ⟨state, lease, _, _, _, rfl, after⟩
    · cases ended
    · -- The replay of an active lease's release does not exist: its lease would be spent.
      obtain rfl : token.leaseId = leaseId := ended
      obtain ⟨record, kept, ⟨⟩⟩ := map_eq_some_iff.mp recorded.2
      have spent := reachable.replaysOwned.releases record.submittedToken.instanceId _ kept
      exact absurd (spent.unlocated.symm.trans located) (by simp)
    · obtain rfl : token.leaseId = leaseId := ended
      rw [after]
      exact (locatedAt_erase w.scheduler _ _).trans (if_pos rfl)
  | expireToken token now =>
    obtain ⟨q, step, rfl⟩ := steps_map.mp ran
    rcases expireToken_steps step with ⟨e, rfl, _⟩ | ⟨rfl, ends⟩
    · cases ended
    · obtain rfl : token.leaseId = leaseId := ended
      exact ends.unlocated
  | releaseOwned token connectionId reason =>
    obtain ⟨q, step, rfl⟩ := steps_map.mp ran
    rcases releaseOwned_steps step with ⟨e, rfl, _⟩ | ⟨rfl, ends⟩
    · cases ended
    · obtain rfl : token.leaseId = leaseId := ended
      exact ends.unlocated
  | rollbackLease token =>
    obtain ⟨q, step, rfl⟩ := steps_map.mp ran
    rcases rollbackLease_steps step with ⟨e, rfl, _⟩ | ⟨rfl, ends⟩
    · cases ended
    · obtain rfl : token.leaseId = leaseId := ended
      exact ends.unlocated
  | commitTransfer p now =>
    obtain ⟨q, step, rfl⟩ := steps_map.mp ran
    rcases commitTransfer_steps step with ⟨e, rfl, _⟩ | ⟨queue, rfl, _, _, _, after⟩
    · cases ended
    obtain rfl : p.source.token.leaseId = leaseId := ended
    have other : p.toToken.leaseId ≠ p.source.token.leaseId :=
      (reachable.leasesIndexed.notPending located).absent (.transfer p)
        (legal _ (mem_singleton_self _))
    rw [after]
    refine (locatedAt_insert { w.scheduler with
      leaseLocations := w.scheduler.leaseLocations.erase _ } _ _ _).trans ?_
    rw [if_neg (by simpa using other)]
    exact (locatedAt_erase w.scheduler _ _).trans (if_pos rfl)
  | _ => cases ended

/-- A call that may not end a lease leaves it active. -/
theorem World.Reachable.kept_located (kept : ¬ endsOf command (w.answer command) leaseId) :
    locatedAt (w.step command).scheduler leaseId = some i := by
  have changes := World.step_changes reachable.bounded legal
  have both := changes.preserve
    (fun b => LeasesIndexed b ∧ locatedAt b.1 leaseId = some i)
    (fun change held => ⟨change.leasesIndexed held.1, change.keeps_located kept held.1 held.2⟩)
    ⟨reachable.leasesIndexed, located⟩
  exact both.2

theorem World.Reachable.ended_spent (ended : endsOf command (w.answer command) leaseId) :
    Spent leaseId ((w.step command).scheduler, (w.step command).outstanding) := by
  have pending := (World.step_changes reachable.bounded legal).preserve (NotPending leaseId)
    (fun change held => change.notPending held) (reachable.leasesIndexed.notPending located)
  exact ⟨pending, reachable.ended_unlocated legal located ended⟩

end

lemma World.Continues.spent {v : World} (run : w.Continues v) (reachable : w.Reachable)
    (spent : Spent leaseId (w.scheduler, w.outstanding)) :
    Spent leaseId (v.scheduler, v.outstanding) := by
  induction run with
  | refl => exact spent
  | step run legal ih =>
    exact (World.step_changes (reachable.continues run).bounded legal).preserve (Spent leaseId)
      (fun change held => change.spent held) ih

/-! ## Fencing -/

/-- Every call with a token that carries the identifier is refused; a release may answer the
record that an earlier call of the run kept of it. None of them changes the scheduler. -/
structure Fenced (v : World) (leaseId : LeaseId) : Prop where
  validateWrite : ∀ token connectionId now, token.leaseId = leaseId →
    ∃ e, v.scheduler.validateWrite token connectionId now = .error e
  validateDestructiveStep : ∀ witness connectionId now, witness.token.leaseId = leaseId →
    ∃ e, v.scheduler.validateDestructiveStep witness connectionId now = .error e
  command : ∀ command token, command.carried = some token → token.leaseId = leaseId →
    (∃ e, v.answer command = .error e) ∧ (v.step command).scheduler = v.scheduler
  release : ∀ requestId token connectionId now, token.leaseId = leaseId →
    (v.step (.release requestId token connectionId now)).scheduler = v.scheduler ∧
    ((∃ e, v.answer (.release requestId token connectionId now) = .error e) ∨
      ∃ record past answered, (past, answered) ∈ v.history ∧ recordsOf past answered record ∧
        record.requestId = requestId ∧ record.submittedToken = token ∧
        record.connectionId = connectionId ∧
        v.answer (.release requestId token connectionId now) = .ok (.released record.released))

lemma exists_error {α : Type} {x : SchedulerResult α} (failed : ∀ a, x ≠ .ok a) :
    ∃ e, x = .error e := by
  cases x with
  | error e => exact ⟨e, rfl⟩
  | ok a => exact absurd rfl (failed a)

lemma World.Reachable.fenced {v : World} (reachable : v.Reachable)
    (unlocated : locatedAt v.scheduler leaseId = none) : Fenced v leaseId where
  validateWrite token connectionId now carries := by
    obtain rfl := carries
    refine exists_error fun u passed => ?_
    obtain ⟨lease, current⟩ := validateWrite_ok passed
    exact validateCurrentLease_unlocated unlocated lease current
  validateDestructiveStep witness connectionId now carries := by
    obtain rfl := carries
    refine exists_error fun u passed => ?_
    obtain ⟨lease, current, _⟩ := bind_ok_iff.mp passed
    exact validateCurrentLease_unlocated unlocated lease current
  command command token carried carries := by
    obtain rfl := carries
    exact exec_unlocated reachable.leasesIndexed reachable.replaysOwned unlocated carried _ _
      (v.step_steps command)
  release requestId token connectionId now carries := by
    obtain rfl := carries
    obtain ⟨q, step, answer⟩ :=
      steps_map.mp (v.step_steps (.release requestId token connectionId now))
    rcases release_steps step with ⟨e, rfl, same⟩ | ⟨released, recorded, rfl, same⟩ |
      ⟨state, lease, located, _⟩
    · exact ⟨same, .inl ⟨e, answer⟩⟩
    · obtain ⟨record, kept, ⟨⟩⟩ := map_eq_some_iff.mp recorded.2
      obtain ⟨past, answered, listed, about⟩ := reachable.recorded kept
      exact ⟨same, .inr ⟨record, past, answered, listed, about, rfl, rfl, rfl, answer⟩⟩
    · exact absurd located (locateLease_unlocated unlocated _)

/-- Fencing. An active lease stops being active exactly by a release, an expiry, an owned
release, a rollback or a transfer away from it. From then on, in every continuation of the run,
every call with a token that carries its identifier is refused, except that a release may answer
the recorded replay of the release that ended it. And at every instant of every reachable world
at most one lease identifier and one connection pass `validateWrite` on an instance. -/
theorem fencing :
    (∀ (w : World) (command : Command) (leaseId : LeaseId), w.Reachable → w.Legal command →
      w.scheduler.Active leaseId →
      ((¬ (w.step command).scheduler.Active leaseId ↔
          endsOf command (w.answer command) leaseId) ∧
        (endsOf command (w.answer command) leaseId →
          ∀ v, (w.step command).Continues v → Fenced v leaseId))) ∧
    (∀ (w : World) (token other : LeaseToken) (connectionId otherConnection : ConnectionId)
      (now : Nat), w.Reachable → token.instanceId = other.instanceId →
      w.scheduler.validateWrite token connectionId now = .ok () →
      w.scheduler.validateWrite other otherConnection now = .ok () →
      token.leaseId = other.leaseId ∧ connectionId = otherConnection) := by
  refine ⟨?_, ?_⟩
  · intro w command leaseId reachable legal active
    have indexedAfter := (reachable.step legal).leasesIndexed
    obtain ⟨i, located⟩ := reachable.leasesIndexed.active_iff.mp active
    refine ⟨⟨?_, ?_⟩, ?_⟩
    · intro inactive
      by_contra kept
      exact inactive (indexedAfter.active_iff.mpr ⟨i, reachable.kept_located legal located kept⟩)
    · intro ended active
      obtain ⟨j, still⟩ := indexedAfter.active_iff.mp active
      have unlocated := reachable.ended_unlocated legal located ended
      exact absurd (unlocated.symm.trans still) (by simp)
    · intro ended v run
      have spent := run.spent (reachable.step legal) (reachable.ended_spent legal located ended)
      exact ((reachable.step legal).continues run).fenced spent.unlocated
  · intro w token other connectionId otherConnection now _ place first second
    obtain ⟨lease, current⟩ := validateWrite_ok first
    obtain ⟨lease', current'⟩ := validateWrite_ok second
    obtain ⟨_, held, same, connection⟩ := validateCurrentLease_ok current
    obtain ⟨_, held', same', connection'⟩ := validateCurrentLease_ok current'
    rw [← place, held] at held'
    obtain rfl := some.inj held'
    exact ⟨by rw [← same, ← same'], connection.symm.trans connection'⟩

/-- The holder alone writes; it releases, another client takes the instance, and the first token
is fenced there. -/
theorem fencing_after_release :
    (world.run [Sample.acquire]).scheduler.Active Sample.token.leaseId ∧
    endsOf Sample.release ((world.run [Sample.acquire]).answer Sample.release)
      Sample.token.leaseId ∧
    ¬ (world.run [Sample.acquire, Sample.release]).scheduler.Active
      Sample.token.leaseId ∧
    Fenced (world.run [Sample.acquire, Sample.release, acquireNext])
      Sample.token.leaseId ∧
    (world.run [Sample.acquire]).scheduler.validateWrite Sample.token connection 5 =
      .ok () ∧
    (∀ token connectionId, Sample.token.instanceId = token.instanceId →
      (world.run [Sample.acquire]).scheduler.validateWrite token connectionId 5 = .ok () →
      Sample.token.leaseId = token.leaseId ∧ connection = connectionId) := by
  have acquired : (world.run [Sample.acquire]).Reachable := reachable (by decide)
  have legal : (world.run [Sample.acquire]).Legal Sample.release := by decide
  have active : (world.run [Sample.acquire]).scheduler.Active Sample.token.leaseId :=
    ⟨Sample.instanceId, _, rfl, rfl⟩
  have ended : endsOf Sample.release
      ((world.run [Sample.acquire]).answer Sample.release) Sample.token.leaseId := rfl
  have passes : (world.run [Sample.acquire]).scheduler.validateWrite Sample.token
      connection 5 = .ok () := rfl
  obtain ⟨inactive, fenced⟩ := fencing.1 _ _ _ acquired legal active
  refine ⟨active, ended, inactive.mpr ended, fenced ended _ ?_, passes,
    fun _ _ place writes => fencing.2 _ _ _ _ _ 5 acquired place passes writes⟩
  exact World.Continues.refl.step (by decide)

lemma LeasesIndexed.inactive (indexed : LeasesIndexed (s, out))
    (unlocated : locatedAt s leaseId = none) : ¬ s.Active leaseId := by
  intro active
  obtain ⟨i, located⟩ := indexed.active_iff.mp active
  cases unlocated.symm.trans located

/-- A release that is remembered ended its lease: no instance holds the identifier, nobody has it in
hand, and a call of the run wrote the record. -/
theorem remembered_releases_ended {w : World} (reachable : w.Reachable) {i record}
    (recorded : (w.scheduler.stateAt i).lastRelease = some record) :
    ¬ w.scheduler.Active record.submittedToken.leaseId ∧
      (∀ o ∈ w.outstanding, o.leaseId ≠ record.submittedToken.leaseId) ∧
      ∃ command answer, (command, answer) ∈ w.history ∧ recordsOf command answer record := by
  have spent := reachable.replaysOwned.releases i record recorded
  exact ⟨reachable.leasesIndexed.inactive spent.unlocated, spent.absent,
    reachable.recorded recorded⟩

theorem remembered_releases_ended_released :
    ¬ (world.run [Sample.acquire, Sample.release]).scheduler.Active Sample.token.leaseId :=
  (@remembered_releases_ended (world.run [Sample.acquire, Sample.release]) (reachable (by decide))
    Sample.instanceId _ rfl).1

/-- Of the preparations in hand no two carry one identifier, and none carries an active one. -/
theorem preparations_apart {w : World} (reachable : w.Reachable) :
    (w.outstanding.map Outstanding.leaseId).Nodup ∧
      ∀ o ∈ w.outstanding, ¬ w.scheduler.Active o.leaseId := by
  have indexed := reachable.leasesIndexed
  exact ⟨indexed.distinct, fun o held => indexed.inactive (indexed.pending o held).2.1⟩

namespace Sample

def prepared : PreparedLease := ⟨Sample.token, connection, ⟨1⟩, .normal, false, .clientLease, false⟩

/-- Leases of two instances are prepared and one is committed, and then its transfer to a client of
higher priority is prepared as well. -/
def preparing : List Command :=
  [.prepareAcquire ⟨1⟩ instanceId ⟨1⟩ connection 0, .prepareAcquire ⟨5⟩ ⟨2⟩ ⟨1⟩ connection 0,
    .commitAcquire (.new prepared) 0, queueHigh,
    .prepareTransfer Sample.token connection .preempted none 10]

end Sample

theorem preparations_apart_committed :
    (world.run preparing).outstanding.map Outstanding.leaseId =
        [⟨3 * 2 ^ 64 + 3⟩, ⟨3 * 2 ^ 64 + 2⟩] ∧
      ((world.run preparing).outstanding.map Outstanding.leaseId).Nodup ∧
      ((world.run preparing).scheduler.leaseOf instanceId).map (·.token) = some Sample.token ∧
      ∀ o ∈ (world.run preparing).outstanding,
        ¬ (world.run preparing).scheduler.Active o.leaseId := by
  have apart := @preparations_apart (world.run preparing) (reachable (by decide +kernel))
  exact ⟨by decide +kernel, apart.1, by decide +kernel, apart.2⟩

end Scheduler
