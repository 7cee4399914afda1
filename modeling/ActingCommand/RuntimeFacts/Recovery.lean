import ActingCommand.RuntimeFacts.Host

/-!
# Recovery rebuilds the store

A ledger that a host wrote holds changes, other events and parts of snapshot sets, each
set as far as its seal got. Whatever the newest complete set is, its records are the store
that the changes before it make up, so the changes behind it lead to the store that all
changes of the ledger make up.
-/

namespace RuntimeFacts

open Machine EventLog List Option Except RuntimeFactStore

/-! ## The changes in order -/

/-- One change applied to the store; every other event leaves it as it is. -/
def applyEvent (store : RuntimeFactStore) (event : PersistedEvent) :
    Except RuntimeFactError RuntimeFactStore :=
  match event.payload with
  | .factRecorded record => (store.record record).map (·.2)
  | .factInvalidated invalidation =>
    (store.invalidate invalidation.scope invalidation.key invalidation.reason
      invalidation.atUnixMs).map (·.2)
  | _ => .ok store

/-- The store that the changes of a ledger make up, in order. -/
def applyEvents (ledger : GlobalLedger) : Except RuntimeFactError RuntimeFactStore :=
  ledger.foldlM applyEvent .new

lemma applyEvents_append {ledger event store} (earlier : applyEvents ledger = .ok store) :
    applyEvents (ledger ++ [event]) = applyEvent store event := by
  rw [applyEvents, foldlM_append]
  change (applyEvents ledger >>= fun store => [event].foldlM applyEvent store) = _
  rw [earlier]
  change (applyEvent store event >>= pure) = _
  exact bind_pure _

/-! ## Sealed stores -/

/-- The parts are the whole image of the store, numbered and checked. -/
structure Sealed (store : RuntimeFactStore) (parts : List RuntimeFactSnapshot) : Prop where
  nonempty : parts ≠ []
  records : parts.flatMap (·.records) = store.records
  alike : ∃ snapshotId, ∀ (index : Nat) (part : RuntimeFactSnapshot), parts[index]? = some part →
    part.snapshotId = snapshotId ∧ part.part = index + 1 ∧ part.parts = parts.length
  valid : ∀ part ∈ parts, part.validate = .ok ()

lemma validateParts_ok {encoding} {parts} {u : Unit}
    (answer : validateParts encoding parts = .ok u) : ∀ part ∈ parts, part.validate = .ok () := by
  induction parts with
  | nil => simp
  | cons part rest ih =>
    unfold validateParts at answer
    split at answer
    · cases answer
    rename_i checked
    simp only [RuntimeFactSnapshot.validateForAppend, bind_ok_iff] at checked
    obtain ⟨_, own, -⟩ := checked
    exact forall_mem_cons.mpr ⟨own, ih answer⟩

lemma Host.sealedParts_ok {encoding} {host : Host} {takenAtUnixMs : Nat} {parts}
    (answer : host.sealedParts encoding takenAtUnixMs = .ok (some parts)) :
    Sealed host.store parts := by
  unfold Host.sealedParts at answer
  split at answer
  · cases answer
  simp only at answer
  split at answer
  · cases answer
  rename_i found split
  simp only [bind_ok_iff] at answer
  obtain ⟨_, checked, same⟩ := answer
  obtain rfl := some.inj (ok.inj same)
  obtain ⟨nonempty, records, each⟩ := splitRuntimeFactSnapshot_ok split
  refine ⟨nonempty, records, ⟨host.ledger.latestSequence, fun index part held => ?_⟩,
    validateParts_ok checked⟩
  rw [each index part held]
  exact ⟨rfl, rfl, rfl⟩

theorem recordAll_ok {store whole : RuntimeFactStore} {before records after}
    (all : whole.records = before ++ records ++ after)
    (active : store.active = (∅ : ActiveFacts).insertMany (keyedRecords before)) (sequence : Nat) :
    ∃ next, recordAll sequence records store = .ok next ∧
      next.active = (∅ : ActiveFacts).insertMany (keyedRecords (before ++ records)) := by
  induction records generalizing before store with
  | nil => exact ⟨store, rfl, by rw [active, append_nil]⟩
  | cons record rest ih =>
    have listed : record ∈ whole.records := by simp [all]
    have absent : store.active[record.factKey]? = none := by
      have distinct := @records_distinct whole
      rw [all, keyedRecords, map_append, map_append, append_assoc] at distinct
      obtain ⟨-, -, across⟩ := pairwise_append.mp distinct
      cases found : store.active[record.factKey]? with
      | none => rfl
      | some held =>
        rw [active] at found
        rcases getElem?_insertMany_cases found with ⟨earlier, same⟩ | none
        · refine absurd ?_ (across _ (List.mem_map_of_mem earlier) (record.factKey, record)
            (by simp))
          rw [same]
          exact Std.ReflCmp.compare_self
        · simp at none
    have room : store.active.size < maxRuntimeFacts := by
      have size := @Std.ExtTreeMap.size_insertMany_list_le _ _ FactKey.cmp ∅ _ (keyedRecords before)
      have length := @length_records whole
      have bounded := whole.bounded
      rw [← active, keyedRecords, length_map, Std.ExtTreeMap.size_empty] at size
      rw [all] at length
      simp only [length_append, length_cons] at length
      omega
    obtain ⟨next, accepted, inserted⟩ :=
      record_fresh (records_valid listed) absent room
    have joined : next.active =
        (∅ : ActiveFacts).insertMany (keyedRecords (before ++ [record])) := by
      rw [inserted, active, keyedRecords, keyedRecords, map_append,
        Std.ExtTreeMap.insertMany_append]
      exact Std.ExtTreeMap.insertMany_list_singleton.symm
    obtain ⟨last, answer, final⟩ := ih (by simpa using all) joined
    refine ⟨last, ?_, by rw [final, append_assoc]; rfl⟩
    rw [recordAll, accepted]
    exact answer

/-- The parts of a seal bring back the store they were sealed from. -/
theorem replaySet_ok {store : RuntimeFactStore} {items}
    (whole : Sealed store (items.map (·.2))) : replaySet items = .ok store := by
  have join : ∀ (items : List SequencedPart) (before : List RuntimeFactRecord)
      (held : RuntimeFactStore), store.records = before ++ items.flatMap (·.2.records) →
      held.active = (∅ : ActiveFacts).insertMany (keyedRecords before) →
      joinParts items held = .ok store := by
    intro items
    induction items with
    | nil =>
      intro before held all active
      rw [flatMap_nil, append_nil] at all
      rw [← all, RuntimeFactStore.insertMany_records] at active
      rw [RuntimeFactStore.ext active]
      rfl
    | cons item rest ih =>
      intro before held all active
      obtain ⟨sequence, part⟩ := item
      rw [flatMap_cons, ← append_assoc] at all
      obtain ⟨next, answer, joined⟩ := recordAll_ok all active sequence
      simp only [joinParts, answer]
      exact ih _ next all joined
  cases items with
  | nil => exact absurd rfl whole.nonempty
  | cons item rest =>
    obtain ⟨sequence, part⟩ := item
    have valid : part.validate = .ok () := whole.valid part mem_cons_self
    have all := whole.records
    rw [flatMap_map, flatMap_cons] at all
    have replayed : ∃ held, RuntimeFactStore.replay part = .ok held ∧
        held.active = (∅ : ActiveFacts).insertMany (keyedRecords part.records) := by
      unfold RuntimeFactStore.replay
      split
      · rename_i error refused
        rw [valid] at refused
        cases refused
      · exact ⟨_, rfl, rfl⟩
    obtain ⟨held, answer, active⟩ := replayed
    simp only [replaySet, answer]
    exact join rest part.records held all.symm active

/-! ## What a ledger holds -/

/-- One set as far as it was appended, in part order, with the parts of the whole seal and the
store it was sealed from. -/
structure Segment where
  items : List SequencedPart
  full : List RuntimeFactSnapshot
  store : RuntimeFactStore

/-- The ledgers a host writes, with the store they make up and the sets they hold. -/
inductive Written : GlobalLedger → RuntimeFactStore → List Segment → Prop
  | empty : Written [] .new []
  | other {ledger : GlobalLedger} {store : RuntimeFactStore} {segments : List Segment}
    {event : PersistedEvent} (earlier : Written ledger store segments)
    (module : event.originModule ≠ .runtimeFacts)
    (payload : event.payload.isRuntimeFact = false) :
    Written (ledger ++ [event]) store segments
  | recorded {ledger : GlobalLedger} {store next : RuntimeFactStore} {segments : List Segment}
    {record : RuntimeFactRecord} {atUnixMs : Nat} {change : RuntimeFactChange}
    (earlier : Written ledger store segments)
    (accepted : store.record record = .ok (change, next)) :
    Written (ledger ++ [factEvent atUnixMs (.factRecorded record)]) next segments
  | invalidated {ledger : GlobalLedger} {store next : RuntimeFactStore} {segments : List Segment}
    {invalidation audited : RuntimeFactInvalidation} {atUnixMs : Nat}
    (earlier : Written ledger store segments)
    (accepted : store.invalidate invalidation.scope invalidation.key invalidation.reason
      invalidation.atUnixMs = .ok (audited, next)) :
    Written (ledger ++ [factEvent atUnixMs (.factInvalidated invalidation)]) next segments
  | firstPart {ledger : GlobalLedger} {store : RuntimeFactStore} {segments : List Segment}
    {part : RuntimeFactSnapshot} {rest : List RuntimeFactSnapshot} {atUnixMs : Nat}
    (earlier : Written ledger store segments) (whole : Sealed store (part :: rest)) :
    Written (ledger ++ [factEvent atUnixMs (.factSnapshot part)]) store
      (segments ++ [⟨[(ledger.length + 1, part)], part :: rest, store⟩])
  | nextPart {ledger : GlobalLedger} {store : RuntimeFactStore} {segments : List Segment}
    {items : List SequencedPart} {full : List RuntimeFactSnapshot} {part : RuntimeFactSnapshot}
    {atUnixMs : Nat} (earlier : Written ledger store (segments ++ [⟨items, full, store⟩]))
    (next : full[items.length]? = some part) :
    Written (ledger ++ [factEvent atUnixMs (.factSnapshot part)]) store
      (segments ++ [⟨items ++ [(ledger.length + 1, part)], full, store⟩])

def replayBehind (ledger : GlobalLedger) (after : Nat) (store : RuntimeFactStore) :
    Except HostError RuntimeFactStore :=
  (selected ledger (selectFactEvents (after + 1)) after ledger.length).foldlM replayEvent store

lemma replayBehind_append {ledger} {after : Nat} {start store} (bound : after ≤ ledger.length)
    (earlier : replayBehind ledger after start = .ok store) (event : PersistedEvent) :
    replayBehind (ledger ++ [event]) after start =
      if event.originModule = .runtimeFacts then replayEvent store (ledger.length + 1, event)
      else .ok store := by
  have chosen : selectFactEvents (after + 1) (ledger.length + 1, event) =
      decide (event.originModule = .runtimeFacts) := by simp [selectFactEvents, bound]
  rw [replayBehind, length_append, length_singleton, selected_append event bound,
    chosen, foldlM_append]
  change (replayBehind ledger after start >>= _) = _
  rw [earlier]
  by_cases own : event.originModule = .runtimeFacts
  · simp only [own, decide_true, if_true]
    change (replayEvent store (ledger.length + 1, event) >>= pure) = _
    exact bind_pure _
  · simp only [own, decide_false, Bool.false_eq_true, if_false]
    rfl

/-- What holds of a set the ledger has: its parts are the first ones of a whole seal, and the
changes behind its last part lead from the store that was sealed to the store now. -/
structure Segment.Holds (segment : Segment) (ledger : GlobalLedger) (store : RuntimeFactStore) :
    Prop where
  whole : Sealed segment.store segment.full
  taken : segment.items.map (·.2) = segment.full.take segment.items.length
  behind : ∃ last, segment.items.getLast? = some last ∧ last.1 ≤ ledger.length ∧
    replayBehind ledger last.1 segment.store = .ok store

/-- A further event leads a set on with the store. -/
theorem Segment.Holds.append {segment : Segment} {ledger store next event}
    (holds : segment.Holds ledger store)
    (replayed : (if event.originModule = .runtimeFacts then
      replayEvent store (ledger.length + 1, event) else .ok store) = .ok next) :
    segment.Holds (ledger ++ [event]) next := by
  obtain ⟨last, found, bound, behind⟩ := holds.behind
  refine ⟨holds.whole, holds.taken, last, found, ?_, ?_⟩
  · rw [length_append]
    omega
  · rw [replayBehind_append bound behind]
    exact replayed

lemma replayEvent_recorded {store next record change}
    (accepted : store.record record = .ok (change, next)) (sequence atUnixMs : Nat) :
    replayEvent store (sequence, factEvent atUnixMs (.factRecorded record)) = .ok next := by
  simp [replayEvent, factEvent, accepted]

lemma replayEvent_invalidated {store next invalidation audited}
    (accepted : store.invalidate invalidation.scope invalidation.key invalidation.reason
      invalidation.atUnixMs = .ok (audited, next)) (sequence atUnixMs : Nat) :
    replayEvent store (sequence, factEvent atUnixMs (.factInvalidated invalidation)) =
      .ok next := by
  simp [replayEvent, factEvent, accepted]

/-- The last set of a ledger, one part further. -/
theorem Segment.Holds.part {items full ledger store part} (whole : Sealed store full)
    (taken : items.map (·.2) = full.take items.length) (next : full[items.length]? = some part)
    (atUnixMs : Nat) :
    Segment.Holds ⟨items ++ [(ledger.length + 1, part)], full, store⟩
      (ledger ++ [factEvent atUnixMs (.factSnapshot part)]) store where
  whole := whole
  taken := by
    obtain ⟨bound, held⟩ := List.getElem?_eq_some_iff.mp next
    rw [map_append, taken, length_append, length_singleton, take_add_one, next]
    rfl
  behind := by
    refine ⟨(ledger.length + 1, part), by simp, by simp, ?_⟩
    rw [replayBehind, length_append, length_singleton, selected_of_le (le_refl _)]
    rfl

namespace Written

variable {ledger : GlobalLedger} {store : RuntimeFactStore} {segments : List Segment}

section

variable (written : Written ledger store segments)

include written

lemma applies : applyEvents ledger = .ok store := by
  induction written with
  | empty => rfl
  | other _ _ payload ih =>
    rw [applyEvents_append ih, applyEvent]
    split <;> simp_all [EventPayload.isRuntimeFact]
  | recorded _ accepted ih | invalidated _ accepted ih =>
    rw [applyEvents_append ih]
    simp only [applyEvent, factEvent, accepted]
    rfl
  | firstPart _ _ ih | nextPart _ _ ih =>
    rw [applyEvents_append ih]
    rfl

/-- Without any set, every change of the ledger is replayed. -/
theorem replays : replayBehind ledger 0 .new = .ok store := by
  induction written with
  | empty => rfl
  | other _ module _ ih => rw [replayBehind_append (Nat.zero_le _) ih, if_neg module]
  | recorded _ accepted ih =>
    rw [replayBehind_append (Nat.zero_le _) ih]
    exact replayEvent_recorded accepted _ _
  | invalidated _ accepted ih =>
    rw [replayBehind_append (Nat.zero_le _) ih]
    exact replayEvent_invalidated accepted _ _
  | firstPart _ _ ih | nextPart _ _ ih =>
    rw [replayBehind_append (Nat.zero_le _) ih]
    rfl

lemma holds : ∀ segment ∈ segments, segment.Holds ledger store := by
  induction written with
  | empty => simp
  | other _ module _ ih =>
    exact fun segment listed => (ih segment listed).append (if_neg module)
  | recorded _ accepted ih =>
    exact fun segment listed => (ih segment listed).append (replayEvent_recorded accepted _ _)
  | invalidated _ accepted ih =>
    exact fun segment listed => (ih segment listed).append (replayEvent_invalidated accepted _ _)
  | firstPart _ whole ih =>
    intro segment listed
    rcases mem_append.mp listed with earlier | last
    · exact (ih segment earlier).append rfl
    · obtain rfl := mem_singleton.mp last
      exact @Segment.Holds.part [] _ _ _ _ whole rfl rfl _
  | nextPart _ next ih =>
    intro segment listed
    rcases mem_append.mp listed with earlier | last
    · exact (ih segment (mem_append_left _ earlier)).append rfl
    obtain rfl := mem_singleton.mp last
    have own := ih _ (mem_append_right _ mem_cons_self)
    exact .part own.whole own.taken next _

theorem parts : (selected ledger selectSnapshots 0 ledger.length).map snapshotPart =
      (segments.flatMap (·.items)).map .ok := by
  induction written with
  | empty => rfl
  | @other ledger store segments event _ _ payload ih =>
    have unselected : selectSnapshots (ledger.length + 1, event) = false := by
      cases kind : event.payload <;> simp_all [selectSnapshots, EventPayload.isRuntimeFact,
        EventPayload.isFactSnapshot]
    rw [length_append, length_singleton, selected_append event (Nat.zero_le _),
      unselected, if_neg Bool.false_ne_true, append_nil, ih]
  | @recorded ledger store next segments record atUnixMs change _ _ ih
  | @invalidated ledger store next segments invalidation audited atUnixMs _ _ ih =>
    rw [length_append, length_singleton, selected_append _ (Nat.zero_le _)]
    change (_ ++ []).map _ = _
    rw [append_nil, ih]
  | @firstPart ledger store segments part rest atUnixMs _ whole ih =>
    have valid : part.validate = .ok () := whole.valid part mem_cons_self
    rw [length_append, length_singleton, selected_append _ (Nat.zero_le _)]
    change (_ ++ [(ledger.length + 1, _)]).map _ = _
    rw [map_append, ih, flatMap_append, map_append]
    simp [snapshotPart, factEvent, valid]
  | @nextPart ledger store segments items full part atUnixMs earlier next ih =>
    have own := earlier.holds _ (mem_append_right _ mem_cons_self)
    have valid : part.validate = .ok () := own.whole.valid part (mem_of_getElem? next)
    rw [length_append, length_singleton, selected_append _ (Nat.zero_le _)]
    change (_ ++ [(ledger.length + 1, _)]).map _ = _
    rw [map_append, ih, flatMap_append, flatMap_append]
    simp [snapshotPart, factEvent, valid]

/-- A stop after any number of events leaves a ledger of this kind. -/
theorem take (count : Nat) : ∃ store segments, Written (ledger.take count) store segments := by
  have whole {ledger : GlobalLedger} {event : PersistedEvent} {store : RuntimeFactStore}
      {segments : List Segment} (last : Written (ledger ++ [event]) store segments)
      (earlier : ∃ store segments, Written (ledger.take count) store segments) :
      ∃ store segments, Written ((ledger ++ [event]).take count) store segments := by
    by_cases before : count ≤ ledger.length
    · rw [take_append_of_le_length before]
      exact earlier
    · rw [take_of_length_le (by simp; omega)]
      exact ⟨store, segments, last⟩
  induction written with
  | empty => exact ⟨.new, [], by rw [take_nil]; exact .empty⟩
  | other earlier module payload ih => exact whole (.other earlier module payload) ih
  | recorded earlier accepted ih => exact whole (.recorded earlier accepted) ih
  | invalidated earlier accepted ih => exact whole (.invalidated earlier accepted) ih
  | firstPart earlier sealed ih => exact whole (.firstPart earlier sealed) ih
  | nextPart earlier next ih => exact whole (.nextPart earlier next) ih

/-- Events of other modules lead to a ledger of the same sets. -/
theorem others {events}
    (each : ∀ event ∈ events,
      event.originModule ≠ .runtimeFacts ∧ event.payload.isRuntimeFact = false) :
    Written (ledger ++ events) store segments := by
  induction events generalizing ledger with
  | nil => rwa [append_nil]
  | cons event rest ih =>
    obtain ⟨own, later⟩ := forall_mem_cons.mp each
    have next := ih (.other written own.1 own.2) later
    rwa [append_assoc] at next

end

end Written

/-! ## The search on a written ledger -/

/-- What the backwards read still holds is what the source hands out, newest first. -/
theorem newestFirst_yields {ledger : GlobalLedger} {read : Backwards PersistedEvent}
    {parts : List SequencedPart}
    (remaining : (read.remaining ledger selectSnapshots).map snapshotPart = parts.map .ok) :
    (snapshotEventsNewestFirst ledger).Yields read parts.reverse := by
  induction parts using List.reverseRecOn generalizing read with
  | nil =>
    refine .done ?_
    have none : read.remaining ledger selectSnapshots = [] := map_eq_nil_iff.mp remaining
    simp only [snapshotEventsNewestFirst]
    split
    · rfl
    rename_i entry rest found
    rw [Backwards.next_eq_some found] at none
    simp at none
  | append_singleton parts part ih =>
    cases found : read.next ledger selectSnapshots runtimeFactSnapshotPageEvents with
    | none =>
      rw [Backwards.next_eq_none found] at remaining
      simp at remaining
    | some answer =>
      obtain ⟨entry, rest⟩ := answer
      rw [Backwards.next_eq_some found, map_append, map_append] at remaining
      obtain ⟨earlier, last⟩ := append_inj' remaining rfl
      have own : snapshotPart entry = .ok part := by simpa using last
      rw [reverse_append]
      refine .more ?_ (@ih { rest with
        floor := if part.2.part > 1 then part.2.snapshotId else 0 } earlier)
      simp [snapshotEventsNewestFirst, found, own]

/-- The parts of a set, newest first, as far as it was appended. -/
theorem descends_reverse {full : List RuntimeFactSnapshot} {snapshotId : Nat}
    (alike : ∀ (index : Nat) (part : RuntimeFactSnapshot), full[index]? = some part →
      part.snapshotId = snapshotId ∧ part.part = index + 1 ∧ part.parts = full.length)
    {items : List SequencedPart} (taken : items.map (·.2) = full.take items.length) :
    Descends snapshotId full.length items.length items.reverse := by
  induction items using List.reverseRecOn with
  | nil => rfl
  | append_singleton items last ih =>
    have before : items.map (·.2) = full.take items.length := by
      have cut := congrArg (List.take items.length) taken
      rw [map_append, take_left' (by simp), take_take] at cut
      simpa using cut
    have own : full[items.length]? = some last.2 := by
      have at_last := congrArg (fun l : List RuntimeFactSnapshot => l[items.length]?) taken
      simpa [getElem?_take] using at_last.symm
    obtain ⟨id, part, count⟩ := alike _ _ own
    rw [length_append, length_singleton, reverse_append]
    exact ⟨last, items.reverse, rfl, id, part, count, ih before⟩

namespace Segment

/-- Every part of the seal was appended. -/
def complete (segment : Segment) : Bool := segment.items.length = segment.full.length

/-- The parts of a set that is complete are the whole seal. -/
theorem Holds.sealed {segment : Segment} {ledger store} (holds : segment.Holds ledger store)
    (complete : segment.complete = true) : Sealed segment.store (segment.items.map (·.2)) := by
  have length : segment.items.length = segment.full.length := by
    simpa [Segment.complete] using complete
  rw [holds.taken, length, take_length]
  exact holds.whole

section

variable {segment : Segment} {ledger : GlobalLedger} {store : RuntimeFactStore}

lemma Holds.placed (holds : segment.Holds ledger store) :
    ∀ entry ∈ segment.items.reverse, Placed entry := by
  intro entry member
  have taken := List.mem_map_of_mem (f := (·.2)) (mem_reverse.mp member)
  rw [holds.taken] at taken
  exact placed_of_validate (holds.whole.valid _ (mem_of_mem_take taken))

/-- A set of the ledger, as the search reads it. -/
theorem Holds.run (holds : segment.Holds ledger store) :
    ∃ newest older, segment.items.reverse = newest :: older ∧
      (newest :: older).IsChain (fun a b => follows a b = true) ∧
      newest.2.part = older.length + 1 ∧
      (CompleteRun (newest :: older) ↔ segment.complete = true) := by
  obtain ⟨snapshotId, alike⟩ := holds.whole.alike
  obtain ⟨last, found, -⟩ := holds.behind
  obtain ⟨newest, older, isRun⟩ : ∃ newest older, segment.items.reverse = newest :: older := by
    refine exists_cons_of_ne_nil fun none => ?_
    rw [reverse_eq_nil_iff.mp none] at found
    cases found
  have descends := descends_reverse alike holds.taken
  obtain ⟨length, chain⟩ := descends.chain
  rw [isRun, ← length, isRun, length_cons] at descends
  rw [isRun] at length chain
  obtain ⟨_, _, same, -, part, count, -⟩ := descends
  obtain ⟨rfl, rfl⟩ := cons.inj same
  refine ⟨newest, older, isRun, chain, part, ?_⟩
  rw [completeRun_iff chain, part, count, complete, decide_eq_true_eq, ← length]
  simp

lemma Holds.runs {list : List Segment} (each : ∀ segment ∈ list, segment.Holds ledger store) :
    Runs (list.map (·.items.reverse)) where
  nonempty := forall_mem_map.mpr fun segment listed => by
    obtain ⟨newest, older, isRun, -⟩ := (each segment listed).run
    exact isRun ▸ cons_ne_nil _ _
  chained := forall_mem_map.mpr fun segment listed => by
    obtain ⟨newest, older, isRun, chain, -⟩ := (each segment listed).run
    exact isRun ▸ chain
  placed entry member := by
    obtain ⟨run, isRun, inside⟩ := mem_flatten.mp member
    obtain ⟨segment, listed, rfl⟩ := List.mem_map.mp isRun
    exact (each segment listed).placed entry inside
  apart := by
    refine (pairwise_of_forall_mem_list ?_).isChain
    refine forall_mem_map.mpr fun a inA => forall_mem_map.mpr fun b inB => ?_
    intro oldest isLast older isHead
    obtain ⟨newest, segment, isRun, chain, first, -⟩ := (each a inA).run
    rw [isRun] at isLast
    exact first_apart chain first isLast ((each b inB).placed older (mem_of_mem_head? isHead))

end

end Segment

/-- The newest complete set of a written ledger, read from any source that hands out its parts. -/
theorem Written.search_yields {ledger : GlobalLedger} {store segments}
    (written : Written ledger store segments) {σ ε : Type} {source : Source σ ε SequencedPart}
    {state : σ} (yields : source.Yields state (segments.flatMap (·.items)).reverse) :
    ∃ skipped, newestCompleteRuntimeFactSnapshotSet source state =
      .ok ⟨(segments.reverse.find? (·.complete)).map (·.items), skipped⟩ := by
  have each : ∀ segment ∈ segments.reverse, segment.Holds ledger store :=
    fun segment listed => written.holds segment (mem_reverse.mp listed)
  have complete : ∀ segment ∈ segments.reverse,
      (CompleteRun segment.items.reverse ↔ segment.complete = true) := by
    intro segment listed
    obtain ⟨newest, older, isRun, -, -, same⟩ := (each segment listed).run
    rw [isRun]
    exact same
  have all := Segment.Holds.runs each
  have reversed : (segments.flatMap (·.items)).reverse =
      (segments.reverse.map (·.items.reverse)).flatten := by
    rw [reverse_flatMap, flatMap_def]
    rfl
  rw [reversed] at yields
  cases found : segments.reverse.find? (·.complete) with
  | none =>
    refine ⟨_, newestComplete_none all.placed yields ?_⟩
    rw [all.splitBy]
    refine forall_mem_map.mpr fun segment listed whole => ?_
    exact find?_eq_none.mp found segment listed ((complete segment listed).mp whole)
  | some segment =>
    obtain ⟨isWhole, before, after, isList, earlier⟩ := find?_eq_some_iff_append.mp found
    rw [isList] at all yields complete each
    rw [map_append, map_cons] at all yields
    rw [flatten_append, flatten_cons, ← append_assoc] at yields
    obtain ⟨rest, reads, -⟩ := yields.reads
    have inside : segment ∈ before ++ segment :: after := by simp
    have answer := newestComplete_reads all.of_append
      (forall_mem_map.mpr fun other listed whole => ?_) ((complete segment inside).mpr isWhole)
      (each segment inside).placed reads
    · rw [reverse_reverse] at answer
      exact ⟨_, answer⟩
    · have isOther := (complete other (mem_append_left _ listed)).mp whole
      simpa [isOther] using earlier other listed

lemma readPagesAfter_eq (ledger : GlobalLedger) (select : Nat × PersistedEvent → Bool)
    (after through : Nat) (pageEvents : PageSize) :
    readPagesAfter ledger select after through pageEvents =
      selected ledger select after through := by
  unfold readPagesAfter
  split
  · rw [selected_of_le (by assumption)]
  · exact readPages_eq pageEvents after

/-- A start on a written ledger rebuilds the store that its changes make up. -/
theorem Written.recover {ledger store segments} (written : Written ledger store segments)
    (nowUnixMs : Nat) (pageEvents : PageSize) :
    ∃ recovered, recoverRuntimeFactStore ledger nowUnixMs pageEvents = .ok recovered ∧
      recovered.store = store ∧ recovered.dirty = false ∧
      Written recovered.ledger store segments := by
  have parts : ((newestFirst ledger.latestSequence).remaining ledger selectSnapshots).map
      snapshotPart = (segments.flatMap (·.items)).map .ok := by
    rw [Backwards.remaining, newestFirst, append_nil]
    exact written.parts
  obtain ⟨skipped, search⟩ := written.search_yields (newestFirst_yields parts)
  have grown : Written (ledger ++ skippedEvents nowUnixMs skipped) store segments := by
    refine written.others fun event listed => ?_
    obtain ⟨_, -, rfl⟩ := List.mem_map.mp listed
    exact ⟨by simp, rfl⟩
  refine ⟨⟨store, false, _⟩, ?_, rfl, rfl, grown⟩
  simp only [recoverRuntimeFactStore, bind_ok_iff, readPagesAfter_eq]
  refine ⟨_, search, ?_⟩
  cases found : segments.reverse.find? (·.complete) with
  | none => exact ⟨_, rfl, store, grown.replays, rfl⟩
  | some segment =>
    have inside : segment ∈ segments := mem_reverse.mp (mem_of_find?_eq_some found)
    have holds := grown.holds segment inside
    obtain ⟨last, newest, -, behind⟩ := holds.behind
    refine ⟨_, replaySet_ok (holds.sealed (find?_some found)), store, ?_, rfl⟩
    simp only [Option.map_some, Option.getD_some, newest, Option.elim_some]
    exact behind

/-! ## Whole runs -/

/-- The ledger is one a host writes, and a seal under way holds the parts that its set lacks. -/
def Host.Consistent (host : Host) : Prop :=
  ∃ segments, Written host.ledger host.store segments ∧
    ∀ parts, host.sealing = some parts → ∃ full, Sealed host.store full ∧
      (parts = full ∨ ∃ before items, segments = before ++ [⟨items, full, host.store⟩] ∧
        parts = full.drop items.length)

lemma consistent_initial : Host.initial.Consistent :=
  ⟨[], .empty, fun _ none => nomatch none⟩

section Runs

variable {encoding : Encoding} {registered : InstanceId → Bool}

lemma Host.recordRuntimeFact_ok {host next : Host} {record} {atUnixMs : Nat} {change}
    (answer : host.recordRuntimeFact registered record atUnixMs = .ok (change, next)) :
    next = host ∨ ∃ store change, host.store.record record = .ok (change, store) ∧
      next = { host with
        ledger := host.ledger ++ [factEvent atUnixMs (.factRecorded record)]
        store := store
        dirty := true } := by
  simp only [Host.recordRuntimeFact, bind_ok_iff] at answer
  obtain ⟨checked, -, answer⟩ := answer
  cases checked with
  | some same => exact Or.inl (Prod.mk.inj (ok.inj answer)).2.symm
  | none =>
    simp only [bind_ok_iff] at answer
    obtain ⟨_, -, answer⟩ := answer
    split at answer
    · cases answer
    · rename_i change' store accepted
      exact Or.inr ⟨store, change', accepted, (Prod.mk.inj (ok.inj answer)).2.symm⟩

lemma Step.consistent {host next : Host} (step : Step encoding registered host next)
    (consistent : host.Consistent) : next.Consistent := by
  obtain ⟨segments, written, sealing⟩ := consistent
  cases step with
  | other module payload => exact ⟨segments, .other written module payload, sealing⟩
  | record free answer =>
    rcases Host.recordRuntimeFact_ok answer with rfl | ⟨store, change, accepted, rfl⟩
    · exact ⟨segments, written, sealing⟩
    refine ⟨segments, .recorded written accepted, fun parts held => ?_⟩
    rw [show host.sealing = some parts from held] at free
    cases free
  | invalidate free answer =>
    simp only [Host.invalidateRuntimeFact, bind_ok_iff] at answer
    obtain ⟨_, -, answer⟩ := answer
    split at answer
    · cases answer
    simp only [bind_ok_iff] at answer
    obtain ⟨_, -, answer⟩ := answer
    split at answer
    · cases answer
    rename_i audited store accepted
    obtain ⟨-, rfl⟩ := Prod.mk.inj (ok.inj answer)
    refine ⟨segments, .invalidated written accepted, fun parts held => ?_⟩
    rw [show host.sealing = some parts from held] at free
    cases free
  | beginSeal free answer =>
    refine ⟨segments, written, fun parts held => ?_⟩
    obtain rfl := some.inj held
    exact ⟨_, Host.sealedParts_ok answer, Or.inl rfl⟩
  | @appendPart part rest atUnixMs held =>
    obtain ⟨full, whole, rfl | ⟨before, items, rfl, left⟩⟩ := sealing _ held
    · refine ⟨_, .firstPart written whole, fun parts later => ?_⟩
      obtain rfl := some.inj later
      exact ⟨_, whole, Or.inr ⟨segments, _, rfl, rfl⟩⟩
    have next : full[items.length]? = some part := by
      have head := congrArg List.head? left
      rw [head?_drop] at head
      exact head.symm
    refine ⟨_, .nextPart written next, fun parts later => ?_⟩
    obtain rfl := some.inj later
    refine ⟨_, whole, Or.inr ⟨before, _, rfl, ?_⟩⟩
    have tail := congrArg List.tail left
    rw [tail_drop] at tail
    rw [length_append, length_singleton]
    exact tail
  | endSeal done => exact ⟨segments, written, fun _ none => nomatch none⟩
  | restart answer =>
    obtain ⟨recovered, same, store, -, grown⟩ := written.recover _ _
    obtain rfl := ok.inj (answer.symm.trans same)
    exact ⟨segments, store ▸ grown, fun _ none => nomatch none⟩

lemma Run.consistent {host : Host} (run : Run encoding registered .initial host) :
    host.Consistent := by
  induction run with
  | refl => exact consistent_initial
  | tail _ step ih => exact step.consistent ih

/-- Crash recovery: whenever the process stops, after any number of the events it appended, a start
without a takeover rebuilds exactly the store that the changes among these events make up. -/
theorem recovery_rebuilds_store {host : Host} (run : Run encoding registered .initial host)
    (count nowUnixMs : Nat) (pageEvents : PageSize) :
    ∃ store recovered, applyEvents (host.ledger.take count) = .ok store ∧
      recoverRuntimeFactStore (host.ledger.take count) nowUnixMs pageEvents = .ok recovered ∧
      recovered.store = store ∧ recovered.dirty = false := by
  obtain ⟨segments, written, -⟩ := run.consistent
  obtain ⟨store, segments, stopped⟩ := written.take count
  obtain ⟨recovered, answer, same, clean, -⟩ := stopped.recover nowUnixMs pageEvents
  exact ⟨store, recovered, stopped.applies, answer, same, clean⟩

/-- At any point of a run, inside a seal too, the store is what the ledger makes up, and a stop
there with the start behind it brings it back and leaves a ledger that makes up the same store. -/
theorem restart_keeps_store {host : Host} (run : Run encoding registered .initial host)
    (nowUnixMs : Nat) (pageEvents : PageSize) :
    applyEvents host.ledger = .ok host.store ∧
      ∃ recovered, recoverRuntimeFactStore host.ledger nowUnixMs pageEvents = .ok recovered ∧
        recovered.store = host.store ∧ applyEvents recovered.ledger = .ok host.store := by
  obtain ⟨segments, written, -⟩ := run.consistent
  obtain ⟨recovered, answer, same, -, grown⟩ := written.recover nowUnixMs pageEvents
  exact ⟨written.applies, recovered, answer, same, grown.applies⟩

/-- The parts of a seal, at any sequences, bring back the store they were sealed from. -/
theorem seal_replays {host : Host} {takenAtUnixMs : Nat} {items : List SequencedPart}
    (answer : host.sealedParts encoding takenAtUnixMs = .ok (some (items.map (·.2)))) :
    replaySet items = .ok host.store :=
  replaySet_ok (Host.sealedParts_ok answer)

end Runs

section HandOut

variable (ledger : GlobalLedger) (floors : Nat → Nat)

/-- What so many calls hand out and how they end, if they do, with the floor set anew between
them. -/
def handOut : Nat → Backwards PersistedEvent → List SequencedPart × Option (Except HostError Unit)
  | 0, _ => ([], none)
  | calls + 1, read => match (snapshotEventsNewestFirst ledger).next read with
    | .error failure => ([], some (.error failure))
    | .ok none => ([], some (.ok ()))
    | .ok (some (part, rest)) =>
      let (parts, ending) := handOut calls { rest with floor := floors calls }
      (part :: parts, ending)

/-- The snapshot of an event with its sequence. -/
def snapshotOf (entry : Nat × PersistedEvent) : Option SequencedPart :=
  match entry.2.payload with
  | .factSnapshot snapshot => some (entry.1, snapshot)
  | _ => none

/-- The snapshots at or below a position, newest first. -/
def snapshotsThrough (upper : Nat) : List SequencedPart :=
  (selected ledger selectSnapshots 0 upper).reverse.filterMap snapshotOf

lemma snapshotOf_iff {entry : Nat × PersistedEvent} {part : SequencedPart} :
    snapshotOf entry = some part ↔ entry.1 = part.1 ∧ entry.2.payload = .factSnapshot part.2 := by
  cases payload : entry.2.payload <;> simp [snapshotOf, payload, Prod.ext_iff]

lemma handOut_eq {calls : Nat} {read : Backwards PersistedEvent}
    (enough : (read.remaining ledger selectSnapshots).length < calls)
    (valid : ∀ entry ∈ read.remaining ledger selectSnapshots, ∃ part,
      snapshotOf entry = some part ∧ snapshotPart entry = .ok part) :
    handOut ledger floors calls read =
      ((read.remaining ledger selectSnapshots).reverse.filterMap snapshotOf, some (.ok ())) := by
  induction calls generalizing read with
  | zero => cases enough
  | succ calls ih =>
    unfold handOut snapshotEventsNewestFirst
    cases found : read.next ledger selectSnapshots runtimeFactSnapshotPageEvents with
    | none => simp [found, Backwards.next_eq_none found]
    | some answer =>
      obtain ⟨entry, rest⟩ := answer
      have whole := Backwards.next_eq_some found
      rw [whole] at valid enough ⊢
      obtain ⟨part, held, own⟩ := valid entry (mem_append_right _ (mem_singleton_self _))
      rw [length_append] at enough
      have later := @ih { rest with floor := floors calls } (Nat.lt_of_succ_lt_succ enough)
        fun older inside => valid older (mem_append_left _ inside)
      simp [found, held, own, later, Backwards.remaining]

/-- What the ledger stored was checked, so each event the read comes to holds a valid part. -/
lemma snapshotPart_selected {ledger : GlobalLedger} {upper : Nat}
    (valid : ∀ event ∈ ledger, event.payload.validate = .ok ()) {entry : Nat × PersistedEvent}
    (inside : entry ∈ selected ledger selectSnapshots 0 upper) :
    ∃ part, snapshotOf entry = some part ∧ snapshotPart entry = .ok part := by
  obtain ⟨listed, chosen, -⟩ := mem_selected inside
  have checked := valid _ (mem_of_getElem? (mem_numbered_iff.mp listed).2)
  cases payload : entry.2.payload with
  | factSnapshot snapshot =>
    rw [payload] at checked
    have accepted : snapshot.validate = .ok () := checked
    exact ⟨(entry.1, snapshot), snapshotOf_iff.mpr ⟨rfl, payload⟩, by
      simp [snapshotPart, payload, accepted]⟩
  | _ => simp [selectSnapshots, payload, EventPayload.isFactSnapshot] at chosen

lemma length_snapshotsThrough {upper : Nat} :
    (snapshotsThrough ledger upper).length = (selected ledger selectSnapshots 0 upper).length := by
  rw [snapshotsThrough, length_filterMap_eq_countP, countP_reverse, countP_eq_length]
  intro entry inside
  have chosen := (mem_selected inside).2.1
  cases payload : entry.2.payload <;>
    simp_all [snapshotOf, selectSnapshots, EventPayload.isFactSnapshot]

lemma mem_snapshotsThrough_iff {upper sequence : Nat} {snapshot : RuntimeFactSnapshot} :
    (sequence, snapshot) ∈ snapshotsThrough ledger upper ↔ (0 < sequence ∧ sequence ≤ upper) ∧
      (ledger[sequence - 1]?).map (·.payload) = some (.factSnapshot snapshot) := by
  simp only [snapshotsThrough, mem_filterMap, mem_reverse, map_eq_some_iff, snapshotOf_iff]
  constructor
  · rintro ⟨entry, inside, rfl, payload⟩
    obtain ⟨listed, -, above, below⟩ := mem_selected inside
    exact ⟨⟨above, below⟩, _, (mem_numbered_iff.mp listed).2, payload⟩
  · rintro ⟨⟨above, below⟩, event, there, payload⟩
    refine ⟨(sequence, event),
      mem_filter.mpr ⟨mem_numbered_iff.mpr ⟨above, there⟩, ?_⟩, rfl, payload⟩
    simp [selectSnapshots, payload, EventPayload.isFactSnapshot, above, below]

lemma snapshotsThrough_strict (upper : Nat) :
    (snapshotsThrough ledger upper).Pairwise (·.1 > ·.1) := by
  have newest : (selected ledger selectSnapshots 0 upper).reverse.Pairwise (·.1 > ·.1) :=
    pairwise_reverse.mpr ((numbered_strict 1 ledger).filter _)
  refine newest.filterMap _ fun later older below part own part' own' => ?_
  rwa [← (snapshotOf_iff.mp own).1, ← (snapshotOf_iff.mp own').1]

end HandOut

/-- From any position with any window and any floors, the read hands out the snapshot of every
snapshot event at or below the position once, newest first, and ends. -/
theorem every_snapshot_newest_first {ledger : GlobalLedger}
    (valid : ∀ event ∈ ledger, event.payload.validate = .ok ()) (upper : Nat) {window : Nat}
    (positive : 0 < window) (floor : Nat) (floors : Nat → Nat) :
    let snapshots := snapshotsThrough ledger upper
    (∀ calls > snapshots.length,
      handOut ledger floors calls ⟨upper, window, floor, [], positive⟩ =
        (snapshots, some (.ok ()))) ∧
    snapshots.Pairwise (·.1 > ·.1) ∧ ∀ sequence snapshot, (sequence, snapshot) ∈ snapshots ↔
      (0 < sequence ∧ sequence ≤ upper) ∧
        (ledger[sequence - 1]?).map (·.payload) = some (.factSnapshot snapshot) := by
  refine ⟨fun calls enough => ?_, snapshotsThrough_strict ledger upper,
    fun _ _ => mem_snapshotsThrough_iff ledger⟩
  have whole : (⟨upper, window, floor, [], positive⟩ : Backwards PersistedEvent).remaining ledger
      selectSnapshots = selected ledger selectSnapshots 0 upper := append_nil _
  have handed := @handOut_eq ledger floors calls ⟨upper, window, floor, [], positive⟩
  rw [whole] at handed
  exact handed (length_snapshotsThrough ledger ▸ enough) fun _ => snapshotPart_selected valid

namespace Sample

/-- A record so large that two of them do not fit one part. -/
def encoding : Encoding :=
  ⟨fun _ => 400000, fun snapshot => 100 + 400000 * snapshot.records.length⟩

def registered : InstanceId → Bool := fun _ => false

def flag (key : String) : RuntimeFactRecord := ⟨.runtime, key, .boolean true, 1000, .runtime, none⟩

def bothFlags : RuntimeFactStore :=
  .ofRecords [flag "host.a", flag "host.b"] (by decide +kernel) (by decide)

def part (number : Nat) (record : RuntimeFactRecord) : RuntimeFactSnapshot :=
  ⟨runtimeFactSchemaVersion, 2, 2000, 2, number, 2, [record]⟩

def cutOff : RuntimeFactSnapshot := ⟨runtimeFactSchemaVersion, 5, 3000, 5, 1, 3, [flag "host.a"]⟩

def oneFlag : Host where
  ledger := [factEvent 1000 (.factRecorded (flag "host.a"))]
  store := .ofRecords [flag "host.a"] (by decide +kernel) (by decide)
  dirty := true
  sealing := none

/-- Two records, and a seal that has appended none of its two parts. -/
def sealingFlags : Host where
  ledger := oneFlag.ledger ++ [factEvent 1001 (.factRecorded (flag "host.b"))]
  store := bothFlags
  dirty := true
  sealing := some [part 1 (flag "host.a"), part 2 (flag "host.b")]

/-- The seal is cut off behind its first part. -/
def halfSealed : Host :=
  { sealingFlags with
    ledger := sealingFlags.ledger ++ [factEvent 2000 (.factSnapshot (part 1 (flag "host.a")))]
    sealing := some [part 2 (flag "host.b")] }

lemma half_sealed : Run encoding registered .initial halfSealed := by
  have first : Step encoding registered .initial oneFlag :=
    @Step.record _ _ _ _ (flag "host.a") 1000 .inserted rfl (by decide +kernel)
  have second : Step encoding registered oneFlag { sealingFlags with sealing := none } :=
    @Step.record _ _ _ _ (flag "host.b") 1001 .inserted rfl (by decide +kernel)
  have third : Step encoding registered { sealingFlags with sealing := none } sealingFlags :=
    @Step.beginSeal _ _ { sealingFlags with sealing := none } 2000 _ rfl (by decide +kernel)
  have fourth : Step encoding registered sealingFlags halfSealed := .appendPart rfl
  exact (((Relation.ReflTransGen.single first).tail second).tail third).tail fourth

theorem recovery_rebuilds_store_half_sealed :
    Run encoding registered .initial halfSealed ∧
      ∃ store recovered, applyEvents (halfSealed.ledger.take 3) = .ok store ∧
        recoverRuntimeFactStore (halfSealed.ledger.take 3) 3000 runtimeFactSnapshotPageEvents =
          .ok recovered ∧
        recovered.store = store ∧ recovered.dirty = false :=
  ⟨half_sealed, recovery_rebuilds_store half_sealed 3 3000 runtimeFactSnapshotPageEvents⟩

theorem restart_keeps_store_half_sealed :
    applyEvents halfSealed.ledger = .ok bothFlags ∧
      ∃ recovered, recoverRuntimeFactStore halfSealed.ledger 3000 runtimeFactSnapshotPageEvents =
          .ok recovered ∧
        recovered.store = bothFlags ∧ applyEvents recovered.ledger = .ok bothFlags :=
  restart_keeps_store half_sealed 3000 runtimeFactSnapshotPageEvents

theorem seal_replays_flags :
    replaySet [(3, part 1 (flag "host.a")), (4, part 2 (flag "host.b"))] = .ok sealingFlags.store :=
  @seal_replays encoding sealingFlags 2000 _ (by decide +kernel)

/-- A whole seal, and a second one cut off behind the first of its three parts. -/
def twiceSealed : GlobalLedger :=
  halfSealed.ledger ++ [factEvent 2000 (.factSnapshot (part 2 (flag "host.b"))),
    factEvent 2500 (.factRecorded (flag "host.c")), factEvent 3000 (.factSnapshot cutOff)]

theorem every_snapshot_newest_first_twice_sealed :
    (∀ event ∈ twiceSealed, event.payload.validate = .ok ()) ∧
      handOut twiceSealed id 4 (newestFirst 6) =
        ([(6, cutOff), (4, part 2 (flag "host.b")), (3, part 1 (flag "host.a"))], some (.ok ())) ∧
      handOut twiceSealed (fun _ => 3) 3 ⟨5, 3, 4, [], Nat.succ_pos 2⟩ =
        ([(4, part 2 (flag "host.b")), (3, part 1 (flag "host.a"))], some (.ok ())) := by
  have valid : ∀ event ∈ twiceSealed, event.payload.validate = .ok () := by decide +kernel
  have tail := every_snapshot_newest_first valid 6 Nat.one_pos 0 id
  have inside := every_snapshot_newest_first valid 5 (Nat.succ_pos 2) 4 fun _ => 3
  exact ⟨valid, (tail.1 4 (by decide +kernel)).trans (by decide +kernel),
    (inside.1 3 (by decide +kernel)).trans (by decide +kernel)⟩

end Sample

end RuntimeFacts
