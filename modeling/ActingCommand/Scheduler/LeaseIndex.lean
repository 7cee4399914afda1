import ActingCommand.InverseIndex
import ActingCommand.Scheduler.Invariant

/-!
# The lease index

The scheduler keeps the instance of every active lease in an index of its own. The index
is exact in every reachable world, whatever is prepared and not yet committed: the
identifiers in hand were minted, are pairwise distinct and belong to no active lease.
-/

namespace Scheduler

open Machine Call InverseIndex List Option Sample

variable {scope : Scope} {s t : SeedScheduler} {out : List Outstanding}
  {a b : SeedScheduler × List Outstanding}

def heldId (s : SeedScheduler) (i : InstanceId) : Option LeaseId :=
  (s.stateAt i).lease.map fun lease => lease.token.leaseId

def locatedAt (s : SeedScheduler) (leaseId : LeaseId) : Option InstanceId :=
  s.leaseLocations[leaseId]?

lemma heldId_eq_some_iff {i : InstanceId} {leaseId : LeaseId} :
    heldId s i = some leaseId ↔
      ∃ lease, (s.stateAt i).lease = some lease ∧ lease.token.leaseId = leaseId :=
  map_eq_some_iff

/-! ## Minted identifiers -/

/-- The scheduler's issuer has minted the identifier. -/
def Issued (s : SeedScheduler) (leaseId : LeaseId) : Prop :=
  ∃ sequence < s.leaseIssuer.nextSequence, leaseId = s.leaseIssuer.leaseIdAt sequence

lemma Calm.leaseIdAt (calm : Calm s t) (sequence : Nat) :
    t.leaseIssuer.leaseIdAt sequence = s.leaseIssuer.leaseIdAt sequence := by
  rw [IdentifierIssuer.leaseIdAt, calm.nameSpace, IdentifierIssuer.leaseIdAt]

lemma Issued.calm {leaseId : LeaseId} (issued : Issued s leaseId) (calm : Calm s t) :
    Issued t leaseId := by
  obtain ⟨sequence, below, rfl⟩ := issued
  exact ⟨sequence, below.trans_le calm.issued, (calm.leaseIdAt sequence).symm⟩

lemma MintedBetween.issued {leaseId : LeaseId} (minted : MintedBetween s t leaseId)
    (calm : Calm s t) : Issued t leaseId := by
  obtain ⟨sequence, _, below, rfl⟩ := minted
  exact ⟨sequence, below, (calm.leaseIdAt sequence).symm⟩

/-- An identifier minted now was not minted before. -/
theorem MintedBetween.ne {leaseId old : LeaseId} (minted : MintedBetween s t leaseId)
    (issued : Issued s old) : leaseId ≠ old := by
  obtain ⟨sequence, from_, _, rfl⟩ := minted
  obtain ⟨earlier, below, rfl⟩ := issued
  intro same
  have equal := s.leaseIssuer.leaseIdAt_injective same
  omega

/-! ## The invariant -/

variable (a) in
structure LeasesIndexed : Prop where
  exact : Exact (locatedAt a.1) (heldId a.1)
  own : ∀ i lease, (a.1.stateAt i).lease = some lease →
    lease.token.instanceId = i ∧ lease.token.ownerEpoch = a.1.ownerEpoch
  issued : ∀ leaseId i, locatedAt a.1 leaseId = some i → Issued a.1 leaseId
  distinct : (a.2.map Outstanding.leaseId).Nodup
  pending : ∀ o ∈ a.2, Issued a.1 o.leaseId ∧ locatedAt a.1 o.leaseId = none ∧ WellPrepared o

lemma LeasesIndexed.calm (indexed : LeasesIndexed (s, out)) (calm : Calm s t) :
    LeasesIndexed (t, out) where
  exact := by
    refine indexed.exact.congr (fun i => ?_) (fun leaseId => ?_)
    · rw [heldId, calm.lease i, heldId]
    · rw [locatedAt, calm.leaseLocations, locatedAt]
  own i lease held := by
    rw [calm.lease i] at held
    change _ ∧ _ = t.ownerEpoch
    rw [calm.ownerEpoch]
    exact indexed.own i lease held
  issued leaseId i located := by
    rw [locatedAt, calm.leaseLocations] at located
    exact (indexed.issued leaseId i located).calm calm
  distinct := indexed.distinct
  pending o held := by
    obtain ⟨issued, free, prepared⟩ := indexed.pending o held
    refine ⟨issued.calm calm, ?_, prepared⟩
    change locatedAt t o.leaseId = none
    rw [locatedAt, calm.leaseLocations]
    exact free

lemma LeasesIndexed.prepare {o : Outstanding} (indexed : LeasesIndexed (s, out))
    (calm : Calm s t) (minted : MintedBetween s t o.leaseId) (prepared : WellPrepared o) :
    LeasesIndexed (t, o :: out) := by
  have settled := indexed.calm calm
  refine ⟨settled.exact, settled.own, settled.issued, ?_, ?_⟩
  · refine nodup_cons.mpr ⟨?_, indexed.distinct⟩
    intro repeated
    obtain ⟨other, held, same⟩ := List.mem_map.mp repeated
    exact minted.ne (indexed.pending other held).1 same.symm
  intro other held
  rcases mem_cons.mp held with rfl | old
  · refine ⟨minted.issued calm, ?_, prepared⟩
    cases found : locatedAt t other.leaseId with
    | none => rfl
    | some i =>
      rw [locatedAt, calm.leaseLocations] at found
      exact absurd rfl (minted.ne (indexed.issued _ i found))
  · exact settled.pending other old

lemma LeasesIndexed.forget {kept} (indexed : LeasesIndexed (s, out))
    (fewer : kept.Subperm out) : LeasesIndexed (s, kept) := by
  refine ⟨indexed.exact, indexed.own, indexed.issued, ?_,
    fun o held => indexed.pending o (fewer.subset held)⟩
  obtain ⟨part, permuted, sub⟩ := fewer
  rw [← (permuted.map Outstanding.leaseId).nodup_iff]
  exact indexed.distinct.sublist (sub.map _)

section Rewritten

variable {m : Std.ExtTreeMap InstanceId InstanceState} {i : InstanceId} {state : InstanceState}

/-- A record rewritten with its own lease, another or none, and the index following it. -/
theorem LeasesIndexed.rewrite {kept} (indexed : LeasesIndexed (s, out))
    (writes : Writes s m i state) (new : Option LeaseId)
    (lease : (state.lease.map fun lease => lease.token.leaseId) = new)
    (own : ∀ lease, state.lease = some lease →
      lease.token.instanceId = i ∧ lease.token.ownerEpoch = s.ownerEpoch)
    (fresh : ∀ leaseId, new = some leaseId →
      (heldId s i = some leaseId ∨ locatedAt s leaseId = none) ∧ Issued s leaseId ∧
        ∀ o ∈ kept, o.leaseId ≠ leaseId)
    (sub : kept.Sublist out)
    (rest : t.ownerEpoch = s.ownerEpoch ∧ t.leaseIssuer = s.leaseIssuer ∧ t.instances = m)
    (keys : ∀ leaseId, locatedAt t leaseId = if new = some leaseId then some i
      else if heldId s i = some leaseId then none else locatedAt s leaseId) :
    LeasesIndexed (t, kept) := by
  obtain ⟨epoch, issuer, rfl⟩ := rest
  have issuedIff : ∀ leaseId, Issued t leaseId ↔ Issued s leaseId := by
    intro leaseId
    rw [Issued, issuer, Issued]
  refine ⟨?_, ?_, ?_, indexed.distinct.sublist (sub.map _), ?_⟩
  · refine indexed.exact.write new ?_ ?_ (fun k same => (fresh k same).1) keys
    · rw [heldId, show t.stateAt i = _ from writes i, if_pos rfl]
      exact lease
    · intro j place
      rw [heldId, show t.stateAt j = _ from writes j, if_neg place, heldId]
  · intro j lease held
    change (t.stateAt j).lease = some lease at held
    change _ ∧ _ = t.ownerEpoch
    rw [epoch]
    rw [show t.stateAt j = _ from writes j] at held
    split at held
    · rename_i place
      rw [← place]
      exact own lease held
    · exact indexed.own j lease held
  · intro leaseId j located
    change locatedAt t leaseId = some j at located
    rw [keys] at located
    rw [issuedIff]
    split at located
    · rename_i same
      exact (fresh leaseId same).2.1
    split at located
    · cases located
    · exact indexed.issued leaseId j located
  intro o held
  obtain ⟨issued, free, prepared⟩ := indexed.pending o (sub.subset held)
  refine ⟨(issuedIff _).mpr issued, ?_, prepared⟩
  change locatedAt t o.leaseId = none
  rw [keys]
  split
  · rename_i same
    exact absurd rfl ((fresh _ same).2.2 o held)
  split
  · rfl
  · exact free

/-- A record rewritten with the same lease, up to fields the index does not see. -/
theorem LeasesIndexed.keep (indexed : LeasesIndexed (s, out)) (writes : Writes s m i state)
    (same : (state.lease.map fun lease => lease.token.leaseId) = heldId s i)
    (own : ∀ lease, state.lease = some lease →
      lease.token.instanceId = i ∧ lease.token.ownerEpoch = s.ownerEpoch)
    (rest : t.ownerEpoch = s.ownerEpoch ∧ t.leaseIssuer = s.leaseIssuer ∧
      t.leaseLocations = s.leaseLocations ∧ t.instances = m) : LeasesIndexed (t, out) := by
  obtain ⟨epoch, issuer, locations, instances⟩ := rest
  refine indexed.rewrite writes (heldId s i) same own ?_ (.refl _) ⟨epoch, issuer, instances⟩ ?_
  · intro leaseId held
    have located := (indexed.exact leaseId i).mpr held
    refine ⟨.inl held, indexed.issued leaseId i located, ?_⟩
    rintro o pending rfl
    cases located.symm.trans (indexed.pending o pending).2.1
  intro leaseId
  rw [locatedAt, locations]
  by_cases held : heldId s i = some leaseId
  · rw [if_pos held]
    exact (indexed.exact leaseId i).mpr held
  · rw [if_neg held, if_neg held]
    rfl

/-- A record rewritten with a lease of the same token. -/
theorem LeasesIndexed.keepToken (indexed : LeasesIndexed (s, out)) (writes : Writes s m i state)
    (tokens : state.lease.map LeaseEntry.token = (s.stateAt i).lease.map LeaseEntry.token)
    (rest : t.ownerEpoch = s.ownerEpoch ∧ t.leaseIssuer = s.leaseIssuer ∧
      t.leaseLocations = s.leaseLocations ∧ t.instances = m) : LeasesIndexed (t, out) := by
  refine indexed.keep writes ?_ ?_ rest
  · have ids := congrArg (Option.map LeaseToken.leaseId) tokens
    rw [Option.map_map, Option.map_map] at ids
    exact ids
  intro lease held
  rw [held, map_some] at tokens
  obtain ⟨old, before, same⟩ := map_eq_some_iff.mp tokens.symm
  rw [← same]
  exact indexed.own i old before

end Rewritten

/-- Refreshing the preemption flag keeps every token. -/
theorem refreshPreemptRequested_lease (state : InstanceState) :
    (refreshPreemptRequested state).lease.map LeaseEntry.token =
      state.lease.map LeaseEntry.token := by
  cases held : state.lease with
  | none | some => simp [refreshPreemptRequested, held]

lemma locatedAt_insert (s : SeedScheduler) (leaseId other : LeaseId) (i : InstanceId) :
    (s.leaseLocations.insert leaseId i)[other]? =
      if some leaseId = some other then some i else locatedAt s other := by
  rw [Std.ExtTreeMap.getElem?_insert, locatedAt]
  by_cases same : leaseId = other
  · simp [same]
  · simp [same]

lemma locatedAt_erase (s : SeedScheduler) (leaseId other : LeaseId) :
    (s.leaseLocations.erase leaseId)[other]? =
      if some leaseId = some other then none else locatedAt s other := by
  rw [Std.ExtTreeMap.getElem?_erase, locatedAt]
  by_cases same : leaseId = other
  · simp [same]
  · simp [same]

lemma Change.leasesIndexed (change : Change scope a b) (indexed : LeasesIndexed a) :
    LeasesIndexed b := by
  cases change with
  | calm calm => exact indexed.calm calm
  | prepare o calm minted prepared => exact indexed.prepare calm minted prepared
  | forget fewer => exact indexed.forget fewer
  | shrink i queue _ writes | enqueue i entry _ _ _ _ writes =>
    exact indexed.keepToken writes (refreshPreemptRequested_lease _) ⟨rfl, rfl, rfl, rfl⟩
  | openStep i lease stepId purpose held _ _ writes | closeStep i lease held writes =>
    exact indexed.keepToken writes (by rw [held]; rfl) ⟨rfl, rfl, rfl, rfl⟩
  | renew i lease token lastRenew held sameLease here epoch _ writes =>
    refine indexed.keep writes ?_ ?_ ⟨rfl, rfl, rfl, rfl⟩
    · rw [heldId, held]
      exact congrArg some sameLease
    · rintro _ ⟨rfl⟩
      exact ⟨here, epoch⟩
  | @grant s out m p queue free epoch _ _ writes =>
    obtain ⟨issued, unheld, _⟩ := indexed.pending (.lease p) (mem_cons_self ..)
    obtain ⟨apart, _⟩ := nodup_cons.mp indexed.distinct
    refine indexed.rewrite writes (some p.token.leaseId) rfl ?_ ?_ (sublist_cons_self _ _)
      ⟨rfl, rfl, rfl⟩ ?_
    · rintro _ ⟨rfl⟩
      exact ⟨rfl, epoch⟩
    · rintro _ ⟨rfl⟩
      exact ⟨.inr unheld, issued, fun o held same => apart (List.mem_map.mpr ⟨o, held, same⟩)⟩
    intro leaseId
    have empty : heldId s p.token.instanceId = none := by rw [heldId, free, map_none]
    rw [empty]
    exact locatedAt_insert s _ _ _
  | @transfer s out m p queue record held epoch _ _ _ writes =>
    obtain ⟨issued, unheld, here, _⟩ := indexed.pending (.transfer p) (mem_cons_self ..)
    obtain ⟨apart, _⟩ := nodup_cons.mp indexed.distinct
    refine indexed.rewrite writes (some p.toToken.leaseId) rfl ?_ ?_ (sublist_cons_self _ _)
      ⟨rfl, rfl, rfl⟩ ?_
    · rintro _ ⟨rfl⟩
      exact ⟨here, epoch⟩
    · rintro _ ⟨rfl⟩
      exact ⟨.inr unheld, issued, fun o held same => apart (List.mem_map.mpr ⟨o, held, same⟩)⟩
    intro leaseId
    have old : heldId s p.source.token.instanceId = some p.source.token.leaseId := by
      rw [heldId, held, map_some]
    rw [old, ← locatedAt_erase s]
    exact locatedAt_insert { s with leaseLocations := s.leaseLocations.erase _ } _ _ _
  | @endLease s out m i lease record held _ _ writes =>
    refine indexed.rewrite writes none rfl (by rintro _ ⟨⟩) (by rintro _ ⟨⟩)
      (List.Sublist.refl _) ⟨rfl, rfl, rfl⟩ ?_
    intro leaseId
    have old : heldId s i = some lease.token.leaseId := by rw [heldId, held, map_some]
    rw [old, ← locatedAt_erase s, if_neg (by simp)]
    rfl

lemma new_leasesIndexed {ownerEpoch : OwnerEpoch} {config takeover} {nameSpace : Option Nat}
    {instant : Nat}
    (made : SeedScheduler.new ownerEpoch config takeover nameSpace instant = .ok s) :
    LeasesIndexed (s, []) := by
  obtain ⟨locations, _, _, _, _, states⟩ := new_ok made
  have free : ∀ i, (s.stateAt i).lease = none := by
    intro i
    obtain ⟨cooldown, _, state⟩ := states i
    rw [state]
  have nowhere : ∀ leaseId, locatedAt s leaseId = none := by
    intro leaseId
    rw [locatedAt, locations]
    exact Std.ExtTreeMap.getElem?_empty
  refine ⟨fun leaseId i => ?_, fun i lease held => ?_, fun leaseId i located => ?_,
    nodup_nil, by simp⟩
  · rw [nowhere, heldId, free]
    simp
  · rw [free] at held
    cases held
  · rw [nowhere] at located
    cases located

lemma World.Reachable.leasesIndexed {w : World} (reachable : w.Reachable) :
    LeasesIndexed (w.scheduler, w.outstanding) :=
  reachable.change_invariant LeasesIndexed (fun _ _ _ _ _ _ made => new_leasesIndexed made)
    (fun change indexed => change.leasesIndexed indexed)

/-- In every reachable world the index is exactly the map from the identifier of each active
lease to its instance, every active token names its own instance and the scheduler's epoch, and
no two instances hold the same identifier. -/
theorem lease_index_exact (w : World) (reachable : w.Reachable) :
    (∀ leaseId i, w.scheduler.leaseLocations[leaseId]? = some i ↔
      ∃ lease, w.scheduler.leaseOf i = some lease ∧ lease.token.leaseId = leaseId) ∧
    (∀ i lease, w.scheduler.leaseOf i = some lease →
      lease.token.instanceId = i ∧ lease.token.ownerEpoch = w.scheduler.ownerEpoch) ∧
    (∀ i j lease other, w.scheduler.leaseOf i = some lease →
      w.scheduler.leaseOf j = some other → lease.token.leaseId = other.token.leaseId →
      i = j) := by
  have indexed := reachable.leasesIndexed
  simp only [SeedScheduler.leaseOf_eq_stateAt]
  refine ⟨fun leaseId i => (indexed.exact leaseId i).trans heldId_eq_some_iff, indexed.own, ?_⟩
  intro i j lease other here there same
  exact indexed.exact.unique (heldId_eq_some_iff.mpr ⟨lease, here, same⟩)
    (heldId_eq_some_iff.mpr ⟨other, there, rfl⟩)

theorem lease_index_exact_acquired :
    (world.run [acquire]).scheduler.leaseLocations[token.leaseId]? =
        some instanceId ∧
      ∃ lease, (world.run [acquire]).scheduler.leaseOf instanceId =
        some lease ∧ lease.token.leaseId = token.leaseId := by
  have located : (world.run [acquire]).scheduler.leaseLocations[
      token.leaseId]? = some instanceId := by decide +kernel
  exact ⟨located, ((lease_index_exact _ (reachable (by decide +kernel))).1 _ _).mp located⟩

end Scheduler
