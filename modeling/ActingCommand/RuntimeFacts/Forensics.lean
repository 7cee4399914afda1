import ActingCommand.RuntimeFacts.Recovery

/-!
# The forensic reader

Offline, the facts at a ledger position are read again from the ledger alone: the newest
complete set at or before the position, then the changes behind it under the store's own rules.
The reader's deadlines are left out.
-/

namespace RuntimeFacts

open Machine EventLog List

inductive ForensicsCode
  | runtimeFactLedgerPositionInvalid
  | runtimeFactsPositionMissing
  | runtimeFactReplayFailed

structure ForensicError where
  code : ForensicsCode
  detail : String

inductive ForensicRuntimeFactsUnavailable
  | ledgerEmpty
  | positionBeyondSnapshot

inductive ForensicRuntimeFactsResult
  | available (position : Nat) (facts : RuntimeFactSnapshot)
  | notAvailable (position latestSequence : Nat) (reason : ForensicRuntimeFactsUnavailable)

def maxRuntimeEventQueryEvents : PageSize := ⟨256, by decide⟩

section

variable (ledger : GlobalLedger) (position : Nat)

/-- The events a query selects through the position, page by page. -/
def visit (select : Nat × PersistedEvent → Bool) (position : Nat) : List (Nat × PersistedEvent) :=
  readPages ledger select position maxRuntimeEventQueryEvents 0

def refused (sequence : Nat) (detail : String) : ForensicError :=
  ⟨.runtimeFactReplayFailed, s!"sequence {sequence}: {detail}"⟩

/-- The snapshot part at a sequence, read with its payload and checked. -/
def snapshotPartAt (sequence : Nat) : Except ForensicError SequencedPart :=
  match (visit ledger (fun entry => entry.1 = sequence && selectSnapshots entry)
      position).getLast? with
  | none => .error (refused sequence "snapshot part is not readable")
  | some entry =>
    match entry.2.payload with
    | .factSnapshot part =>
      match part.validate with
      | .error error => .error (refused sequence ("runtime fact rejected: " ++ error.code.asStr))
      | .ok () => .ok (sequence, part)
    | _ => .error (refused sequence "payload is not runtime.fact_snapshot")

/-- The sealed parts through a position, the last of the sequences first. -/
def sealedParts : Source (List Nat) ForensicError SequencedPart where
  next sequences :=
    match sequences.getLast? with
    | none => .ok none
    | some sequence =>
      match snapshotPartAt ledger position sequence with
      | .error error => .error error
      | .ok part => .ok (some (part, sequences.dropLast))
  size := List.length
  smaller {sequences rest part} answer := by
    split at answer
    · cases answer
    rename_i sequence last
    split at answer
    · cases answer
    simp only [Except.ok.injEq, Option.some.injEq, Prod.mk.injEq] at answer
    obtain ⟨-, rfl⟩ := answer
    have nonempty := length_pos_of_mem (mem_of_getLast? last)
    rw [length_dropLast]
    omega

/-- One event behind the set, applied as the store records and invalidates. -/
def applyForensic (store : ActiveFacts) (entry : Nat × PersistedEvent) :
    Except ForensicError ActiveFacts :=
  match entry.2.payload with
  | .factSnapshot _ => .ok store
  | .factRecorded record =>
    match record.validate with
    | .error error => .error (refused entry.1 ("runtime fact rejected: " ++ error.code.asStr))
    | .ok () =>
      match store[record.factKey]? with
      | some existing =>
        if existing = record then .ok store
        else if existing.observedAtUnixMs ≥ record.observedAtUnixMs then
          .error (refused entry.1 (RuntimeFactError.stale existing.observedAtUnixMs).text)
        else .ok (store.insert record.factKey record)
      | none =>
        if store.size ≥ maxRuntimeFacts then
          .error (refused entry.1 (RuntimeFactError.capacityExceeded maxRuntimeFacts).text)
        else .ok (store.insert record.factKey record)
  | .factInvalidated invalidation =>
    match store[(invalidation.scope, invalidation.key)]? with
    | none => .error (refused entry.1 "runtime fact is not present")
    | some _ => .ok (store.erase (invalidation.scope, invalidation.key))
  | _ => .error (refused entry.1 "unexpected event under origin module runtime-facts")

/-- The latest time of an event through the position: a record's time is its producer's and not
monotonic in the sequence. -/
def takenAt (positionUnixMs : Nat) : Nat :=
  (visit ledger (fun entry => saturatingAdd positionUnixMs 1 ≤ entry.2.timestampUnixMs)
    position).foldl (fun taken entry => max taken entry.2.timestampUnixMs) positionUnixMs

/-- The facts at a position, inclusive. -/
def runtimeFactsAt : Except ForensicError ForensicRuntimeFactsResult := do
  if position = 0 then
    throw ⟨.runtimeFactLedgerPositionInvalid, "ledger positions start at sequence 1"⟩
  let latestSequence := ledger.latestSequence
  if position > latestSequence then
    pure (.notAvailable position latestSequence
      (if latestSequence = 0 then .ledgerEmpty else .positionBeyondSnapshot))
  else
    let own ← Call.okOr (visit ledger (fun entry => entry.1 = position) position).getLast?
      (ForensicError.mk .runtimeFactsPositionMissing "no event at the position")
    let takenAtUnixMs := takenAt ledger position own.2.timestampUnixMs
    let sequences := (visit ledger selectSnapshots position).map (·.1)
    let search ← newestCompleteRuntimeFactSnapshotSet (sealedParts ledger position) sequences
    let set := search.set.getD []
    let store := (∅ : ActiveFacts).insertMany (keyedRecords (set.flatMap (·.2.records)))
    let fromSequence := set.getLast?.elim 1 fun last => saturatingAdd last.1 1
    let store ← (visit ledger (selectFactEvents fromSequence) position).foldlM applyForensic store
    pure (.available position
      { schemaVersion := runtimeFactSchemaVersion
        ledgerPosition := position
        takenAtUnixMs := takenAtUnixMs
        snapshotId := position
        part := 1
        parts := 1
        records := store.toList.map (·.2) })

end

variable {entry : Nat × PersistedEvent} {store : RuntimeFactStore} {segments : List Segment}

/-! ## The reader's source -/

section Reader

variable {ledger : GlobalLedger} {position : Nat}

lemma visit_eq (select : Nat × PersistedEvent → Bool) :
    visit ledger select position = selected (ledger.take position) select 0 position := by
  rw [selected_take]
  exact readPages_eq maxRuntimeEventQueryEvents 0

variable {part : SequencedPart}

lemma snapshotPart_ok (answer : snapshotPart entry = .ok part) :
    entry.1 = part.1 ∧ entry.2.payload = .factSnapshot part.2 ∧ part.2.validate = .ok () := by
  unfold snapshotPart at answer
  split at answer
  · rename_i snapshot payload
    split at answer
    · cases answer
    rename_i valid
    obtain rfl := Except.ok.inj answer
    exact ⟨rfl, payload, valid⟩
  · cases answer

/-- The reader finds at its sequence the part that a start finds there. -/
theorem snapshotPartAt_ok
    (listed : entry ∈ selected (ledger.take position) selectSnapshots 0 position)
    (answer : snapshotPart entry = .ok part) :
    snapshotPartAt ledger position part.1 = .ok part := by
  obtain ⟨sequence, payload, valid⟩ := snapshotPart_ok answer
  obtain ⟨inside, chosen, after, through⟩ := mem_selected listed
  have own : entry ∈ selected (ledger.take position)
      (fun entry => entry.1 = part.1 && selectSnapshots entry) 0 position := by
    refine mem_filter.mpr ⟨inside, ?_⟩
    simp [sequence, chosen, sequence ▸ after, sequence ▸ through]
  unfold snapshotPartAt
  rw [visit_eq]
  split
  · rename_i none
    rw [getLast?_eq_none_iff.mp none] at own
    cases own
  rename_i found last
  obtain ⟨held, selects, -⟩ := mem_selected (mem_of_getLast? last)
  have same : found = entry := by
    have at_part : found.1 = entry.1 := by
      rw [sequence]
      exact of_decide_eq_true (Bool.and_eq_true_iff.mp selects).1
    have first := (mem_numbered_iff.mp held).2
    rw [at_part, (mem_numbered_iff.mp inside).2] at first
    exact Prod.ext at_part (Option.some.inj first).symm
  simp [same, payload, valid]

/-- The sequences of the sealed parts bring the parts back, newest first. -/
theorem sealedParts_yields {parts : List SequencedPart}
    (read : ∀ part ∈ parts, snapshotPartAt ledger position part.1 = .ok part) :
    (sealedParts ledger position).Yields (parts.map (·.1)) parts.reverse := by
  induction parts using List.reverseRecOn with
  | nil => exact .done rfl
  | append_singleton parts part ih =>
    have earlier := ih fun other listed => read other (mem_append_left _ listed)
    have own := read part (mem_append_right _ mem_cons_self)
    rw [reverse_append, map_append]
    refine .more ?_ earlier
    simp [sealedParts, own]

theorem Written.entry_of_part (written : Written ledger store segments)
    (listed : part ∈ segments.flatMap (·.items)) :
    ∃ entry ∈ selected ledger selectSnapshots 0 ledger.length, snapshotPart entry = .ok part := by
  have inside : Except.ok part ∈
      (selected ledger selectSnapshots 0 ledger.length).map snapshotPart := by
    rw [written.parts]
    exact List.mem_map_of_mem listed
  exact List.mem_map.mp inside

/-- The search of the reader finds the set a start on the events up to the position finds. -/
theorem Written.search_forensic (written : Written (ledger.take position) store segments)
    (bound : position ≤ ledger.length) :
    ∃ skipped, newestCompleteRuntimeFactSnapshotSet (sealedParts ledger position)
        ((visit ledger selectSnapshots position).map (·.1)) =
      .ok ⟨(segments.reverse.find? (·.complete)).map (·.items), skipped⟩ := by
  have length : (ledger.take position).length = position := length_take_of_le bound
  have parts := written.parts
  rw [length] at parts
  set entries := selected (ledger.take position) selectSnapshots 0 position with held
  have each : ∀ part ∈ segments.flatMap (·.items),
      snapshotPartAt ledger position part.1 = .ok part := by
    intro part listed
    obtain ⟨entry, found, answer⟩ := written.entry_of_part listed
    rw [length] at found
    exact snapshotPartAt_ok found answer
  have sequences : entries.map (·.1) = (segments.flatMap (·.items)).map (·.1) := by
    have positions := congrArg (List.map fun answer : Except HostError SequencedPart =>
      answer.toOption.elim 0 (·.1)) parts
    rw [List.map_map, List.map_map] at positions
    refine Eq.trans (map_congr_left fun entry listed => ?_) positions
    have inside : snapshotPart entry ∈ (segments.flatMap (·.items)).map .ok := by
      rw [← parts]
      exact List.mem_map_of_mem listed
    obtain ⟨part, -, answer⟩ := List.mem_map.mp inside
    rw [Function.comp_apply, ← answer]
    exact (snapshotPart_ok answer.symm).1
  rw [visit_eq, ← held, sequences]
  exact written.search_yields (sealedParts_yields each)

end Reader

/-! ## The changes behind the set -/

theorem applyForensic_ok {next} (answer : replayEvent store entry = .ok next) :
    applyForensic store.active entry = .ok next.active := by
  unfold replayEvent at answer
  unfold applyForensic
  split at answer
  · rename_i record payload
    split at answer
    · cases answer
    rename_i change accepted
    obtain rfl := Except.ok.inj answer
    simp only [payload]
    unfold RuntimeFactStore.record at accepted
    split at accepted
    · cases accepted
    rename_i valid
    simp only [valid]
    split at accepted
    · rename_i existing found
      simp only [found]
      split_ifs at accepted ⊢ <;> cases accepted <;> rfl
    rename_i found
    simp only [found]
    split_ifs at accepted ⊢
    cases accepted
    rfl
  · rename_i invalidation payload
    split at answer
    · cases answer
    rename_i audited accepted
    obtain rfl := Except.ok.inj answer
    unfold RuntimeFactStore.invalidate at accepted
    split at accepted
    · cases accepted
    rename_i removed found
    cases accepted
    simp only [payload, found]
  · rename_i part payload
    obtain rfl := Except.ok.inj answer
    simp [payload]
  · cases answer

lemma foldlM_applyForensic_ok {next : RuntimeFactStore} {entries : List (Nat × PersistedEvent)}
    (answer : entries.foldlM replayEvent store = .ok next) :
    entries.foldlM applyForensic store.active = .ok next.active := by
  induction entries generalizing store with
  | nil =>
    obtain rfl := Except.ok.inj answer
    rfl
  | cons entry rest ih =>
    rw [foldlM_cons, Except.bind_ok_iff] at answer ⊢
    obtain ⟨middle, first, later⟩ := answer
    exact ⟨middle.active, applyForensic_ok first, ih later⟩

/-- Behind the last part of a set the reader applies what a start replays there. At the largest
sequence the addition stops, and the reader comes to the part itself once more. -/
theorem visit_behind {ledger : GlobalLedger} {position : Nat} {start : RuntimeFactStore}
    (written : Written (ledger.take position) store segments) (bound : position ≤ ledger.length)
    (fits : position ≤ u64Max) {last} (listed : last ∈ segments.flatMap (·.items))
    (inside : last.1 ≤ position)
    (behind : replayBehind (ledger.take position) last.1 start = .ok store) :
    (visit ledger (selectFactEvents (saturatingAdd last.1 1)) position).foldlM applyForensic
      start.active = .ok store.active := by
  have length : (ledger.take position).length = position := length_take_of_le bound
  rw [visit_eq]
  rw [replayBehind, length] at behind
  rcases Nat.lt_or_ge last.1 u64Max with below | top
  · have next : saturatingAdd last.1 1 = last.1 + 1 := Nat.min_eq_left below
    rw [next]
    have same : selected (ledger.take position) (selectFactEvents (last.1 + 1)) 0 position =
        selected (ledger.take position) (selectFactEvents (last.1 + 1)) last.1 position := by
      refine filter_congr fun entry _ => ?_
      by_cases later : last.1 < entry.1
      · simp [later, Nat.zero_lt_of_lt later]
      · simp [selectFactEvents, later]
    rw [same]
    exact foldlM_applyForensic_ok behind
  have closed : position ≤ last.1 := fits.trans top
  rw [selected_of_le closed] at behind
  obtain rfl := Except.ok.inj behind
  obtain ⟨own, found, answer⟩ := written.entry_of_part listed
  obtain ⟨sequence, payload, -⟩ := snapshotPart_ok answer
  have unchanged : ∀ entry ∈ selected (ledger.take position)
      (selectFactEvents (saturatingAdd last.1 1)) 0 position,
      applyForensic start.active entry = .ok start.active := by
    intro entry chosen
    obtain ⟨held, selects, -, through⟩ := mem_selected chosen
    have from_top : saturatingAdd last.1 1 ≤ entry.1 :=
      of_decide_eq_true (Bool.and_eq_true_iff.mp selects).1
    have at_part : entry.1 = own.1 := by
      have : saturatingAdd last.1 1 = u64Max := Nat.min_eq_right (by omega)
      omega
    have same := (mem_numbered_iff.mp held).2
    rw [at_part, (mem_numbered_iff.mp (mem_selected found).1).2] at same
    simp [applyForensic, ← Option.some.inj same, payload]
  generalize selected (ledger.take position) _ 0 position = entries at unchanged
  induction entries with
  | nil => rfl
  | cons entry rest ih =>
    rw [foldlM_cons, unchanged entry mem_cons_self]
    exact ih fun other later => unchanged other (mem_cons_of_mem _ later)

/-- On a written ledger the reader answers the facts of the store that the events up to the
position make up. -/
theorem Written.runtimeFactsAt {ledger : GlobalLedger} {position : Nat}
    (written : Written (ledger.take position) store segments) (first : 1 ≤ position)
    (bound : position ≤ ledger.length) (fits : position ≤ u64Max) :
    ∃ takenAtUnixMs, runtimeFactsAt ledger position =
      .ok (.available position (store.snapshot position takenAtUnixMs)) := by
  have length : (ledger.take position).length = position := length_take_of_le bound
  obtain ⟨skipped, search⟩ := written.search_forensic bound
  have own : ∃ entry, (visit ledger (fun entry => entry.1 = position) position).getLast? =
      some entry := by
    have there : position - 1 < ledger.length := by omega
    have inside : (position, ledger[position - 1]) ∈
        visit ledger (fun entry => entry.1 = position) position := by
      rw [visit_eq, selected_take]
      refine mem_filter.mpr ⟨mem_numbered_iff.mpr ⟨first, getElem?_eq_getElem there⟩, ?_⟩
      simp
      omega
    cases last : (visit ledger (fun entry => entry.1 = position) position).getLast? with
    | some entry => exact ⟨entry, rfl⟩
    | none =>
      rw [getLast?_eq_none_iff.mp last] at inside
      cases inside
  obtain ⟨entry, own⟩ := own
  refine ⟨takenAt ledger position entry.2.timestampUnixMs, ?_⟩
  -- The event at the position, the search, the records of the set, the changes behind it.
  simp only [RuntimeFacts.runtimeFactsAt, if_neg (Nat.ne_of_gt first), GlobalLedger.latestSequence,
    if_neg (Nat.not_lt.mpr bound), own, Call.okOr]
  change (newestCompleteRuntimeFactSnapshotSet _ _ >>= _) = _
  rw [Except.bind_ok_iff]
  refine ⟨_, search, ?_⟩
  rw [Except.bind_ok_iff]
  refine ⟨store.active, ?_, rfl⟩
  cases found : segments.reverse.find? (·.complete) with
  | none =>
    have all := written.replays
    rw [replayBehind, length] at all
    rw [visit_eq]
    exact foldlM_applyForensic_ok all
  | some segment =>
    have inside : segment ∈ segments := mem_reverse.mp (mem_of_find?_eq_some found)
    have holds := written.holds segment inside
    obtain ⟨last, newest, upper, behind⟩ := holds.behind
    have records := (holds.sealed (find?_some found)).records
    rw [flatMap_map] at records
    simp only [Option.map_some, Option.getD_some, newest, Option.elim_some, records,
      RuntimeFactStore.insertMany_records]
    exact visit_behind written bound fits
      (mem_flatMap.mpr ⟨segment, inside, mem_of_getLast? newest⟩) (by omega) behind

/-! ## Agreement with the runtime -/

/-- Whatever run wrote the ledger, the reader at a position answers the facts of the store that the
events through the position make up, also where the position cuts a snapshot set in two; at the
head these are the facts that a start rebuilds. -/
theorem forensic_reader_agrees {encoding : Encoding} {registered : InstanceId → Bool} {host : Host}
    (run : Run encoding registered .initial host) {position : Nat} (first : 1 ≤ position)
    (bound : position ≤ host.ledger.latestSequence) (fits : position ≤ u64Max) :
    ∃ store takenAtUnixMs, applyEvents (host.ledger.take position) = .ok store ∧
      runtimeFactsAt host.ledger position =
        .ok (.available position (store.snapshot position takenAtUnixMs)) ∧
      (position = host.ledger.latestSequence → ∀ (nowUnixMs : Nat) (pageEvents : PageSize),
        ∃ recovered, recoverRuntimeFactStore host.ledger nowUnixMs pageEvents = .ok recovered ∧
          recovered.store = store) := by
  obtain ⟨segments, written, -⟩ := run.consistent
  obtain ⟨store, segments, through⟩ := written.take position
  obtain ⟨takenAtUnixMs, answer⟩ := through.runtimeFactsAt first bound fits
  refine ⟨store, takenAtUnixMs, through.applies, answer, fun head nowUnixMs pageEvents => ?_⟩
  rw [head, GlobalLedger.latestSequence, take_length] at through
  obtain ⟨recovered, rebuilt, same, -⟩ := through.recover nowUnixMs pageEvents
  exact ⟨recovered, rebuilt, same⟩

namespace Sample

/-- At the head of the half-sealed ledger the reader passes the incomplete set over. -/
theorem forensic_reader_agrees_half_sealed :
    Run encoding registered .initial halfSealed ∧ halfSealed.ledger.latestSequence = 3 ∧
      ∃ store takenAtUnixMs, applyEvents (halfSealed.ledger.take 3) = .ok store ∧
        runtimeFactsAt halfSealed.ledger 3 =
          .ok (.available 3 (store.snapshot 3 takenAtUnixMs)) ∧
        (3 = halfSealed.ledger.latestSequence → ∀ (nowUnixMs : Nat) (pageEvents : PageSize),
          ∃ recovered, recoverRuntimeFactStore halfSealed.ledger nowUnixMs pageEvents =
            .ok recovered ∧ recovered.store = store) :=
  ⟨half_sealed, rfl, forensic_reader_agrees half_sealed (by decide) (by decide) (by decide)⟩

end Sample

end RuntimeFacts
